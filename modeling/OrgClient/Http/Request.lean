import OrgClient.Http.Config
import OrgClient.Http.Error
import OrgClient.Http.Header
import OrgClient.Json.Printer
import OrgClient.Url.Parser

namespace OrgClient.Http

inductive Method where
  | get
  | post
  | patch
  | delete
  deriving DecidableEq, Repr

def Method.text : Method → String
  | .get => "GET"
  | .post => "POST"
  | .patch => "PATCH"
  | .delete => "DELETE"

structure Request where
  method : Method
  url : String
  headers : Headers := []
  /-- Names and values to be appended to the query of the URL. -/
  pairs : List (String × String) := []
  body : Option Json := none
  token : Option String := none

/-- A request as it goes over the network. -/
structure Message where
  method : Method
  url : Url
  headers : Headers
  content : Option Json

/-- The text of the content of a message. -/
def Message.body (m : Message) : Option String :=
  m.content.map Json.compact

namespace Request

def header (r : Request) (name value : String) : Request :=
  { r with headers := r.headers.set name value }

def query (r : Request) (name value : String) : Request :=
  { r with pairs := r.pairs ++ [(name, value)] }

def bearer (r : Request) (token : String) : Request :=
  { r with token := some token }

def json (r : Request) (body : Json) : Request :=
  { r with body := some body }.header "Content-Type" "application/json"

def batchSize (r : Request) (size : Nat) : Request :=
  r.header "Sforce-Query-Options" ("batchSize=" ++ Number.natText size)

/-- The URL of a request with its pairs. -/
def target (r : Request) : Except Error Url :=
  match Url.parse r.url with
  | .ok u => .ok (u.addPairs r.pairs)
  | .error d => .error (.causedBy (.invalidUrl d.message))

/-- The headers that a request asks for: who asks, then the others in order. -/
def askedHeaders (r : Request) (u : Url) : Headers :=
  (match u.basicAuthorization? with
    | some value => [("Authorization", value)]
    | none => [])
  ++ (match r.token with
    | some token => [("Authorization", "Bearer " ++ token)]
    | none => [])
  ++ r.headers

def withDefaults (c : Config) (hs : Headers) : Headers :=
  let hs := (hs.setDefault "Accept" "*/*").setDefault "User-Agent" c.userAgent
  if c.compression then hs.setDefault "Accept-Encoding" "gzip,deflate" else hs

/-- The greatest length of the text of a URL that can be sent. -/
def maxUrlLength : Nat := 65534

/-- The message for a request; texts that cannot stand in headers or in the request line, and
schemes other than HTTP, cannot be sent. -/
def message (r : Request) (c : Config) (u : Url) : Except Error Message :=
  let headers := r.askedHeaders u
  let sent := u.withoutUser
  if headers.any fun h => !isHeaderName h.1 || !isHeaderValue h.2 then
    .error (.causedBy (.other "builder error"))
  else if (u.scheme ≠ "http" ∧ u.scheme ≠ "https") ∨ maxUrlLength < sent.text.length then
    .error (.causedBy (.other ("builder error for url (" ++ sent.text ++ ")")))
  else .ok ⟨r.method, sent, withDefaults c headers, r.body⟩

end Request

end OrgClient.Http
