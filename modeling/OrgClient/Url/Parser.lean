import OrgClient.Text.Blank
import OrgClient.Url.Basic

namespace OrgClient.Url

open Text

/-- The text before the first of a character, and what follows it, if it is there. -/
def cut (mark : Char) (cs : List Char) : List Char × Option (List Char) :=
  match cs.dropWhile (· != mark) with
  | [] => (cs, none)
  | _ :: rest => (cs.takeWhile (· != mark), some rest)

/-- The text behind the last of a character, and what precedes it, if it is there. -/
def cutLast (mark : Char) (cs : List Char) : Option (List Char) × List Char :=
  let (behind, before) := cut mark cs.reverse
  (before.map List.reverse, behind.reverse)

/-- Drops controls and spaces at the ends, and tabs and line ends everywhere. -/
def cleaned (s : String) : List Char :=
  (dropEndWhile (· ≤ ' ') (s.toList.dropWhile (· ≤ ' '))).filter fun c =>
    c != '\t' && c != '\n' && c != '\r'

/-- Characters of a scheme behind its first letter. -/
def isSchemeChar (c : Char) : Bool :=
  isAsciiAlnum c || c == '+' || c == '-' || c == '.'

/-- The scheme before the first colon, and what follows. -/
def scheme? : List Char → Option (String × List Char)
  | [] => none
  | c :: cs =>
    match cs.dropWhile isSchemeChar with
    | ':' :: rest =>
      if c.isAlpha then some (lowerAscii (String.ofList (c :: cs.takeWhile isSchemeChar)), rest)
      else none
    | _ => none

/-- URLs of the web need a host, and a backslash counts as a slash in them. -/
def isWeb (scheme : String) : Bool :=
  ["http", "https", "ws", "wss", "ftp", "file"].contains scheme

def defaultPort? : String → Option Nat
  | "http" | "ws" => some 80
  | "https" | "wss" => some 443
  | "ftp" => some 21
  | _ => none

/-- A slash, or a backslash in a URL of the web. -/
def isSlash (web : Bool) (c : Char) : Bool :=
  c == '/' || (web && c == '\\')

def isBareChar (c : Char) : Bool :=
  ' ' ≤ c && c ≤ '~'

def isFragmentChar (c : Char) : Bool :=
  isBareChar c && !" \"<>".toList.contains c && c.toNat != 96

def isPathChar (c : Char) : Bool :=
  isFragmentChar c && !"#?^\x7b\x7d".toList.contains c

def isUserChar (c : Char) : Bool :=
  isPathChar c && !"/:;=@[\\]|".toList.contains c

/-- Characters of a query; a URL of the web keeps no quote. -/
def isQueryChar (web : Bool) (c : Char) : Bool :=
  isBareChar c && !" \"#<>".toList.contains c && !(web && c == '\'')

/-- A text in which only certain characters stay as they are. -/
def encoded (keep : Char → Bool) (cs : List Char) : String :=
  String.ofList (percentEncode keep cs)

structure Authority where
  username : String := ""
  password : Option String := none
  host : Host
  port : Option Nat := none

/-- The host before the colon of a port, and the port. A colon in brackets is part of the host. -/
def splitPort (inside : Bool) : List Char → List Char × Option (List Char)
  | [] => ([], none)
  | c :: cs =>
    if c == ':' && !inside then ([], some cs)
    else
      let (host, port) := splitPort (c == '[' || (inside && c != ']')) cs
      (c :: host, port)

/-- The number of a port, none if it is not given or is the one of the scheme. -/
def port? (scheme : String) : Option (List Char) → Except Defect (Option Nat)
  | none | some [] => .ok none
  | some cs =>
    match number? 10 cs with
    | none => .error .port
    | some port =>
      if 65535 < port then .error .port
      else .ok (if defaultPort? scheme = some port then none else some port)

/-- Name and password. An empty password is none. -/
def user (cs : List Char) : String × Option String :=
  let (username, password) := cut ':' cs
  (encoded isUserChar username,
    (password.filter (!·.isEmpty)).map (encoded isUserChar))

/-- Reads an authority; none stands for an empty one. -/
def authority (scheme : String) (cs : List Char) : Except Defect (Option Authority) := do
  let (before, behind) := cutLast '@' cs
  let (username, password) := user (before.getD [])
  let (hostText, portText) := splitPort false behind
  if hostText.isEmpty then
    if isWeb scheme || portText.isSome || before.isSome then .error .emptyHost else return none
  else
    let host ← if isWeb scheme then Host.ofText hostText else Host.ofPlainText hostText
    return some ⟨username, password, host, ← port? scheme portText⟩

def isDot (segment : List Char) : Bool :=
  [".", "%2e"].contains (lowerAscii (String.ofList segment))

def isDotDot (segment : List Char) : Bool :=
  ["..", ".%2e", "%2e.", "%2e%2e"].contains (lowerAscii (String.ofList segment))

/-- Walks a path: one dot stays where it is and two dots go back. The first list is what was walked,
last segment first. -/
def walk : List String → List (List Char) → List String
  | walked, [] => walked.reverse
  | walked, segment :: rest =>
    let finish (walked : List String) := if rest.isEmpty then "" :: walked else walked
    if isDotDot segment then walk (finish walked.tail) rest
    else if isDot segment then walk (finish walked) rest
    else walk (encoded isPathChar segment :: walked) rest

def pathSegments (web : Bool) (cs : List Char) : List String :=
  walk [] ((cs.drop 1).splitOnP (isSlash web))

/-- The path behind an authority. In a URL of the web it has a segment at least. -/
def pathBehind (web : Bool) (cs : List Char) : Path :=
  .segments (if cs.isEmpty && !web then [] else pathSegments web cs)

/-- The authority and path of a text behind a scheme and slashes. -/
def located (scheme : String) (cs : List Char) : Except Defect (Option Authority × Path) := do
  let web := isWeb scheme
  let a ← authority scheme (cs.takeWhile (!isSlash web ·))
  return (a, pathBehind web (cs.dropWhile (!isSlash web ·)))

/-- Whether a text is a letter and a colon or bar, as the name of a drive is. -/
def isDrive : List Char → Bool
  | [c, mark] => c.isAlpha && (mark == ':' || mark == '|')
  | _ => false

/-- The host of a local file: `localhost` and drives are none. -/
def fileHost (cs : List Char) : Except Defect Host := do
  if cs.isEmpty || isDrive cs then return .domain ""
  else
    let host ← Host.ofText cs
    return if host = .domain "localhost" then .domain "" else host

def fileLocated (cs : List Char) : Except Defect (Option Authority × Path) := do
  let web := true
  let slashes := cs.takeWhile (isSlash web)
  let named := 2 ≤ slashes.length
  let hostText := if named then (cs.drop 2).takeWhile (!isSlash web ·) else []
  let rest := if named then (cs.drop 2).dropWhile (!isSlash web ·) else cs
  let path := if slashes.isEmpty then '/' :: rest else rest
  return (some ⟨"", none, ← fileHost hostText, none⟩, pathBehind web path)

/-- The authority and path of what stands between scheme and query. -/
def body (scheme : String) (cs : List Char) : Except Defect (Option Authority × Path) :=
  if scheme = "file" then fileLocated cs
  else if isWeb scheme then located scheme (cs.dropWhile (isSlash true))
  else
    match cs with
    | '/' :: '/' :: rest => located scheme rest
    | '/' :: _ => .ok (none, .segments (pathSegments false cs))
    | _ => .ok (none, .bare (encoded isBareChar cs))

def parse (s : String) : Except Defect Url := do
  match scheme? (cleaned s) with
  | none => .error .noScheme
  | some (scheme, rest) =>
    let (rest, fragment) := cut '#' rest
    let (rest, query) := cut '?' rest
    let (a, path) ← body scheme rest
    return {
      scheme
      username := (a.map (·.username)).getD ""
      password := a.bind (·.password)
      host := a.map (·.host)
      port := a.bind (·.port)
      path
      query := query.map (encoded (isQueryChar (isWeb scheme)))
      fragment := fragment.map (encoded isFragmentChar) }

end OrgClient.Url
