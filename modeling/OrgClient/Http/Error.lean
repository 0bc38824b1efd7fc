import OrgClient.Number.Decimal
import OrgClient.Text.Blank

namespace OrgClient.Http

open Number

/-- The fault behind an error. Times are in milliseconds. -/
inductive Fault where
  | http (status : Nat) (text : String)
  | rateLimited (retryAfter : Option Nat)
  | authentication (text : String)
  | authorization (text : String)
  | notFound (text : String)
  | timeout
  | connection (text : String)
  | json (text : String)
  | invalidUrl (text : String)
  | config (text : String)
  | api (errorCode text : String) (fields : List String)
  | other (text : String)
  deriving DecidableEq, Repr

/-- The milliseconds beyond whole seconds as a decimal fraction. -/
def fractionText (millis : Nat) : String :=
  String.ofList ('.' :: Text.dropEndWhile (· == '0') (padded 3 millis).toList)

/-- A time in the greatest unit of which there is a whole one. -/
def durationText (millis : Nat) : String :=
  if millis = 0 then "0ns"
  else if millis < 1000 then natText millis ++ "ms"
  else
    natText (millis / 1000) ++ (if millis % 1000 = 0 then "" else fractionText (millis % 1000))
      ++ "s"

def Fault.message : Fault → String
  | .http status text => "HTTP error: " ++ natText status ++ " " ++ text
  | .rateLimited none => "Rate limited"
  | .rateLimited (some millis) => "Rate limited, retry after " ++ durationText millis
  | .authentication text => "Authentication error: " ++ text
  | .authorization text => "Authorization error: " ++ text
  | .notFound text => "Not found: " ++ text
  | .timeout => "Request timeout"
  | .connection text => "Connection error: " ++ text
  | .json text => "JSON error: " ++ text
  | .invalidUrl text => "Invalid URL: " ++ text
  | .config text => "Configuration error: " ++ text
  | .api errorCode text _ => "Salesforce API error: " ++ errorCode ++ " - " ++ text
  | .other text => text

def Fault.code : Fault → String
  | .http .. => "Http"
  | .rateLimited _ => "RateLimited"
  | .authentication _ => "Authentication"
  | .authorization _ => "Authorization"
  | .notFound _ => "NotFound"
  | .timeout => "Timeout"
  | .connection _ => "Connection"
  | .json _ => "Json"
  | .invalidUrl _ => "InvalidUrl"
  | .config _ => "Config"
  | .api .. => "SalesforceApi"
  | .other _ => "Other"

/-- A fault, and whether another error is its cause. -/
structure Error where
  fault : Fault
  caused : Bool
  deriving DecidableEq, Repr

namespace Error

def of (fault : Fault) : Error :=
  ⟨fault, false⟩

def causedBy (fault : Fault) : Error :=
  ⟨fault, true⟩

def message (e : Error) : String :=
  e.fault.message

def isRateLimited (e : Error) : Bool :=
  match e.fault with
  | .rateLimited _ => true
  | _ => false

/-- Whether the org did not accept who asked. -/
def isAuthentication (e : Error) : Bool :=
  match e.fault with
  | .authentication _ => true
  | _ => false

def status? (e : Error) : Option Nat :=
  match e.fault with
  | .http status _ => some status
  | .rateLimited _ => some 429
  | .authentication _ => some 401
  | .authorization _ => some 403
  | .notFound _ => some 404
  | _ => none

def retryAfter? (e : Error) : Option Nat :=
  match e.fault with
  | .rateLimited millis => millis
  | _ => none

end Error

end OrgClient.Http
