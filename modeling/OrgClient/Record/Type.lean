import OrgClient.Record.Modified
import OrgClient.Record.Result
import OrgClient.Schema.Table

namespace OrgClient

/-- A type `α` of records of one table of a schema. -/
structure RecordType (κ α : Type) where
  schema : Schema κ
  key : κ
  /-- The id of a record, if it has one. -/
  id? : α → Option String
  setId : String → α → α
  /-- The properties changed since the record was loaded or saved. -/
  modified : α → Record.Modified
  setModified : Record.Modified → α → α
  attributes : α → Record.Attributes
  /-- The whole record as JSON, or why it has no such form. -/
  serialize : α → Except String Json
  decode : Json.Decoder α

namespace RecordType

variable {κ α : Type}

def table (T : RecordType κ α) : Schema.Table κ :=
  T.schema T.key

def name (T : RecordType κ α) : String :=
  T.table.apiName

end RecordType

namespace Record

structure Row where
  data : Json
  modified : Modified

namespace Row

/-- The text under `Id`. -/
def id? (r : Row) : Option String :=
  (r.data.member? "Id").bind Json.text?

/-- Puts a value under a name of an object; other values stay as they are. -/
def put (name : String) (value : Json) (r : Row) : Row :=
  match r.data with
  | .obj ms => { r with data := .obj (Members.insert name value ms) }
  | _ => r

def setId (id : String) (r : Row) : Row :=
  r.put "Id" (.str id)

def mark (property : String) (r : Row) : Row :=
  { r with modified := r.modified.mark property }

def toJson (r : Row) : Json :=
  .object [("data", r.data), ("modified", .strings r.modified.properties)]

def decode : Json.Decoder Row := fun d => do
  match ← d.value? with
  | .obj ms => return ⟨.obj ms, .empty⟩
  | _ => none

def type {κ : Type} (schema : Schema κ) (key : κ) : RecordType κ Row where
  schema := schema
  key := key
  id? := id?
  setId := setId
  modified := Row.modified
  setModified := fun m r => { r with modified := m }
  attributes := fun _ => ⟨(schema key).apiName, none⟩
  serialize := fun r => .ok r.data
  decode := decode

end Row

end Record

end OrgClient
