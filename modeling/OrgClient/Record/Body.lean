import OrgClient.Error
import OrgClient.Json.Printer
import OrgClient.Record.Type

namespace OrgClient.Record

variable {κ α : Type}

inductive WriteMode where
  /-- New records: fields that can be created and have a value. -/
  | insert
  /-- All fields that can be updated and are there. -/
  | update
  /-- Changed fields that can be updated; one that is not there is cleared. -/
  | updateModified
  deriving DecidableEq, Repr

def WriteMode.includes (mode : WriteMode) (modified : Modified) (f : Schema.Field κ) : Bool :=
  !f.isRelationship && !f.type.isCompound &&
    match mode with
    | .insert => f.createable
    | .update => f.updateable
    | .updateModified => f.updateable && modified.contains f.property

/-- The value that is sent for what was found under a field's name. -/
def WriteMode.sent? (mode : WriteMode) : Option Json → Option Json
  | some v => if mode = .insert && v.isNull then none else some v
  | none => if mode = .updateModified then some .null else none

/-- Adds the fields that are written to a body. Each value is taken out of the source. -/
def writeFields (mode : WriteMode) (modified : Modified) :
    List (Schema.Field κ) → Members Json → Members Json → Members Json
  | [], _, body => body
  | f :: fs, source, body =>
    if mode.includes modified f then
      let body :=
        match mode.sent? (source.get? f.apiName) with
        | some v => Members.insert f.apiName v body
        | none => body
      writeFields mode modified fs (source.erase f.apiName) body
    else writeFields mode modified fs source body

end Record

namespace RecordType

open Record

variable {κ α : Type}

def body (T : RecordType κ α) (mode : WriteMode) (r : α) : Except Error (Members Json) :=
  match T.serialize r with
  | .error text => .error (.ofSerialization text)
  | .ok (.obj source) =>
    .ok (writeFields mode (T.modified r) T.table.fields source
      (Members.insert "attributes" (T.attributes r).toJson []))
  | .ok other =>
    .error (.of (.serialization
      (T.name ++ " serialized to " ++ other.compact ++ " instead of an object")))

end RecordType

end OrgClient
