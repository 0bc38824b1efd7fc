import OrgClient.Text.Base64
import OrgClient.Url.Host

namespace OrgClient

open Number Text

/-- The path of a URL: bare text, or segments behind slashes. -/
inductive Url.Path where
  | bare (text : String)
  | segments (parts : List String)
  deriving DecidableEq, Repr

/-- A URL. Its parts are percent-encoded; a port is none if it is the one of the scheme. -/
structure Url where
  scheme : String
  username : String
  password : Option String
  host : Option Url.Host
  port : Option Nat
  path : Url.Path
  query : Option String
  fragment : Option String
  deriving DecidableEq, Repr

namespace Url

def Path.text : Path → String
  | .bare text => text
  | .segments parts => String.join (parts.map ("/" ++ ·))

def userText (u : Url) : String :=
  match u.password with
  | some password => u.username ++ ":" ++ password ++ "@"
  | none => if u.username.isEmpty then "" else u.username ++ "@"

def authorityText (u : Url) : String :=
  match u.host with
  | none => ""
  | some host =>
    "//" ++ u.userText ++ host.text ++
      match u.port with
      | some port => ":" ++ natText port
      | none => ""

def marked (mark : String) : Option String → String
  | none => ""
  | some text => mark ++ text

def target (u : Url) : String :=
  u.path.text ++ marked "?" u.query

def text (u : Url) : String :=
  u.scheme ++ ":" ++ u.authorityText ++ u.target ++ marked "#" u.fragment

def formText (pairs : List (String × String)) : String :=
  "&".intercalate (pairs.map fun p => encodeForm p.1 ++ "=" ++ encodeForm p.2)

def addPairs (u : Url) (pairs : List (String × String)) : Url :=
  if pairs.isEmpty then u
  else
    let before :=
      match u.query with
      | none => ""
      | some query => if query.isEmpty then "" else query ++ "&"
    { u with query := some (before ++ formText pairs) }

def withoutUser (u : Url) : Url :=
  { u with username := "", password := none }

/-- The value of the header that carries name and password, if there are any. -/
def basicAuthorization? (u : Url) : Option String := do
  let decode (s : String) := ofUtf8? (percentDecode s.toList)
  let username ← decode u.username
  let password := u.password.bind decode
  if username.isEmpty && password.isNone then none
  else some ("Basic " ++ String.ofList
    (base64 (utf8Bytes (username ++ ":" ++ password.getD "").toList)))

end Url

end OrgClient
