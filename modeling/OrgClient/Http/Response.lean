import OrgClient.Http.Error
import OrgClient.Http.Header
import OrgClient.Http.Redaction
import OrgClient.Http.Usage
import OrgClient.Json.Decode
import OrgClient.Text.Blank
import OrgClient.Text.Utf8

namespace OrgClient.Http

open Json (Decoder Fields)
open Text

structure Response where
  /-- The URL that was asked. -/
  url : String
  status : Nat
  headers : Headers
  body : List UInt8
  /-- Whether all of the body arrived. -/
  complete : Bool

/-- What an org says about a request that it refuses. -/
structure Complaint where
  errorCode : String
  message : String
  fields : Option (List String)

def Complaint.decode : Decoder Complaint := fun d => do
  let f ← Fields.read? ["errorCode", "message", "fields"] d
  return {
    errorCode := ← f.required "errorCode" .string
    message := ← f.required "message" .string
    fields := ← f.nullable "fields" (.list .string) }

/-- The first complaint of a body, which is a list of them or a single one. -/
def Complaint.first? (body : String) : Option Complaint :=
  (Json.decodeText? (.list Complaint.decode) body).bind List.head? <|>
    Json.decodeText? Complaint.decode body

def refusal (status : Nat) (retryAfter : Option Nat) (body : String) : Error :=
  if status = 429 then .of (.rateLimited retryAfter)
  else
    match Complaint.first? body with
    | some c => .of (.api c.errorCode (redact c.message) (c.fields.getD []))
    | none =>
      .of (match status with
        | 401 => .authentication (redact body)
        | 403 => .authorization (redact body)
        | 404 => .notFound (redact body)
        | _ => .http status (redact body))

namespace Response

def isSuccess (r : Response) : Bool :=
  200 ≤ r.status && r.status < 300

/-- The first value of a header, if it can be read. -/
def header? (r : Response) (name : String) : Option String :=
  (r.headers.get? name).filter isReadableValue

/-- A number of seconds, which a plus sign may precede, in milliseconds. -/
def seconds? (text : String) : Option Nat := do
  let cs := (trimBlank text).toList
  let ds := if cs.head? = some '+' then cs.drop 1 else cs
  if ds.isEmpty || !ds.all Char.isDigit then none
  else return (← Usage.count? ds) * 1000

def retryAfter? (r : Response) : Option Nat :=
  (r.header? "retry-after").bind seconds?

def usage? (r : Response) : Option Usage :=
  (r.header? "sforce-limit-info").bind Usage.ofHeader?

def bytes (r : Response) : Except Error (List UInt8) :=
  if r.complete then .ok r.body
  else .error (.causedBy (.other ("error decoding response body for url (" ++ r.url ++ ")")))

def text (r : Response) : Except Error String :=
  r.bytes.map ofUtf8Lossy

/-- Whether a byte is ASCII white space. -/
def isBlankByte (b : UInt8) : Bool :=
  isAsciiBlank (Char.ofNat b.toNat)

/-- What a body of JSON holds; white space alone stands for null. -/
def decodeBytes? {α : Type} (d : Decoder α) (bs : List UInt8) : Option α :=
  if bs.all isBlankByte then Json.decodeValue? d .null
  else Json.decodeBytes? d bs

def json {α : Type} (d : Decoder α) (r : Response) : Except Error α :=
  match r.bytes with
  | .error e => .error e
  | .ok bs =>
    match decodeBytes? d bs with
    | some a => .ok a
    | none => .error (.causedBy (.json "unexpected data"))

/-- The response, if it is one of success. A body that did not arrive counts as empty. -/
def checked (r : Response) : Except Error Response :=
  if r.isSuccess then .ok r
  else .error (refusal r.status r.retryAfter?
    (match r.text with
      | .ok body => body
      | .error _ => ""))

end Response

end OrgClient.Http
