import OrgClient.Http.Error
import OrgClient.Number.Decimal
import OrgClient.Soql.Error

namespace OrgClient

open Number

inductive Fault where
  | transport (text : String)
  | query (text : String)
  | invalidName (name : String)
  | batchTooLarge (size max : Nat)
  | missingRecordId (index : Nat)
  | invalidRecordId (index : Nat) (id : String)
  | missingExternalId (index : Nat) (field : String)
  | invalidExternalIdField (table field : String)
  | resultCountMismatch (expected actual : Nat)
  | serialization (text : String)
  | other (text : String)
  deriving DecidableEq, Repr

def Fault.message : Fault → String
  | .transport text => "Client error: " ++ text
  | .query text => "Query error: " ++ text
  | .invalidName name => "Invalid API name: " ++ name
  | .batchTooLarge size max =>
    "Batch of " ++ natText size ++ " records exceeds the collection limit of " ++ natText max
  | .missingRecordId index => "Record at index " ++ natText index ++ " has no Id"
  | .invalidRecordId index id =>
    "Record at index " ++ natText index ++ " has a malformed Id: " ++ id
  | .missingExternalId index field =>
    "Record at index " ++ natText index ++ " has no value for external id " ++ field
  | .invalidExternalIdField table field =>
    field ++ " is not an external id field on " ++ table
  | .resultCountMismatch expected actual =>
    "Expected " ++ natText expected ++ " results, received " ++ natText actual
  | .serialization text => "Serialization error: " ++ text
  | .other text => text

def Fault.code : Fault → String
  | .transport _ => "Client"
  | .query _ => "Query"
  | .invalidName _ => "InvalidName"
  | .batchTooLarge .. => "BatchTooLarge"
  | .missingRecordId _ => "MissingRecordId"
  | .invalidRecordId .. => "InvalidRecordId"
  | .missingExternalId .. => "MissingExternalId"
  | .invalidExternalIdField .. => "InvalidExternalIdField"
  | .resultCountMismatch .. => "ResultCountMismatch"
  | .serialization _ => "Serialization"
  | .other _ => "Other"

def Fault.isPrecondition : Fault → Bool
  | .query _ | .invalidName _ | .batchTooLarge .. | .missingRecordId _ | .invalidRecordId ..
  | .missingExternalId .. | .invalidExternalIdField .. => true
  | _ => false

/-- A fault, and whether another error is its cause. -/
structure Error where
  fault : Fault
  caused : Bool
  deriving DecidableEq, Repr

namespace Error

def of (fault : Fault) : Error :=
  ⟨fault, false⟩

def message (e : Error) : String :=
  e.fault.message

def isPrecondition (e : Error) : Bool :=
  e.fault.isPrecondition

def ofHttp (e : Http.Error) : Error :=
  ⟨.transport e.message, true⟩

def ofQuery (e : Soql.Error) : Error :=
  ⟨.query e.message, true⟩

def ofSerialization (text : String) : Error :=
  ⟨.serialization text, true⟩

end Error

end OrgClient
