import OrgClient.Json.Decode

namespace OrgClient.Record

open Json (Decoder Fields)

/-- The type of a record, and where it is found. -/
structure Attributes where
  type : String
  url : Option String

namespace Attributes

def decode : Decoder Attributes := fun d => do
  let f ← Fields.read? ["type", "url"] d
  return {
    type := ← f.required "type" .string
    url := ← f.defaulted "url" (.option .string) none }

/-- The JSON form of attributes; no place is left out. -/
def toJson (a : Attributes) : Json :=
  .object (("type", .str a.type) ::
    match a.url with
    | none => []
    | some url => [("url", .str url)])

end Attributes

structure Refusal where
  statusCode : String
  message : String
  fields : List String

namespace Refusal

def decode : Decoder Refusal := fun d => do
  let f ← Fields.read? ["statusCode", "message", "fields"] d
  return {
    statusCode := ← f.required "statusCode" .string
    message := ← f.required "message" .string
    fields := ← f.defaulted "fields" (.list .string) [] }

def toJson (r : Refusal) : Json :=
  .object [("statusCode", .str r.statusCode), ("message", .str r.message),
    ("fields", .strings r.fields)]

end Refusal

/-- The outcome of saving one record. -/
structure SaveResult where
  id : Option String
  success : Bool
  errors : List Refusal
  warnings : List Json
  created : Option Bool

namespace SaveResult

def decode : Decoder SaveResult := fun d => do
  let f ← Fields.read? ["id", "success", "errors", "warnings", "created"] d
  return {
    id := ← f.defaulted "id" (.option .string) none
    success := ← f.required "success" .bool
    errors := ← f.defaulted "errors" (.list Refusal.decode) []
    warnings := ← f.defaulted "warnings" (.list .value) []
    created := ← f.defaulted "created" (.option .bool) none }

def toJson (r : SaveResult) : Json :=
  .object ([("id", Json.ofString? r.id), ("success", .bool r.success),
      ("errors", .arr (r.errors.map Refusal.toJson)), ("warnings", .arr r.warnings)] ++
    match r.created with
    | none => []
    | some b => [("created", .bool b)])

end SaveResult

/-- The outcome of deleting one record. -/
structure DeleteResult where
  id : Option String
  success : Bool
  errors : List Refusal

namespace DeleteResult

def decode : Decoder DeleteResult := fun d => do
  let f ← Fields.read? ["id", "success", "errors"] d
  return {
    id := ← f.defaulted "id" (.option .string) none
    success := ← f.required "success" .bool
    errors := ← f.defaulted "errors" (.list Refusal.decode) [] }

def toJson (r : DeleteResult) : Json :=
  .object [("id", Json.ofString? r.id), ("success", .bool r.success),
    ("errors", .arr (r.errors.map Refusal.toJson))]

end DeleteResult

end OrgClient.Record
