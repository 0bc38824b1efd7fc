import OrgClient.Record.Body
import OrgClient.Text.Name

namespace OrgClient

namespace Record

/-- The greatest number of records in a batch. -/
def maxBatchSize : Nat := 200

def ensureBatchSize (size : Nat) : Except Error Unit :=
  if size > maxBatchSize then .error (.of (.batchTooLarge size maxBatchSize)) else .ok ()

/-- The bodies of a batch, and whether one failure undoes all. -/
structure BatchRequest where
  allOrNone : Bool
  records : List (Members Json)

def BatchRequest.toJson (r : BatchRequest) : Json :=
  .object [("allOrNone", .bool r.allOrNone), ("records", .arr (r.records.map .obj))]

structure InsertOptions where
  allOrNone : Bool := true
  setId : Bool := true

structure UpdateOptions where
  allOrNone : Bool := true
  sendAllFields : Bool := false

def UpdateOptions.mode (o : UpdateOptions) : WriteMode :=
  if o.sendAllFields then .update else .updateModified

/-- Applies a function to each item and its index, up to the first error. -/
def mapIndexed {α β : Type} (f : Nat → α → Except Error β) : Nat → List α → Except Error (List β)
  | _, [] => .ok []
  | i, x :: xs => do return (← f i x) :: (← mapIndexed f (i + 1) xs)

end Record

namespace RecordType

open Record

variable {κ α : Type}

def recordId (T : RecordType κ α) (index : Nat) (r : α) : Except Error String :=
  match T.id? r with
  | none => .error (.of (.missingRecordId index))
  | some id =>
    if Text.isRecordId id then .ok id else .error (.of (.invalidRecordId index id))

def insertRequest (T : RecordType κ α) (records : List α) (allOrNone : Bool) :
    Except Error BatchRequest := do
  ensureBatchSize records.length
  return ⟨allOrNone, ← mapIndexed (fun _ => T.body .insert) 0 records⟩

def updateBody (T : RecordType κ α) (mode : WriteMode) (index : Nat) (r : α) :
    Except Error (Members Json) := do
  let id ← T.recordId index r
  return Members.insert "Id" (.str id) (← T.body mode r)

def updateRequest (T : RecordType κ α) (records : List α) (options : UpdateOptions) :
    Except Error BatchRequest := do
  ensureBatchSize records.length
  return ⟨options.allOrNone, ← mapIndexed (T.updateBody options.mode) 0 records⟩

/-- The API name of a field that identifies records, given by property or API name. -/
def externalIdField (T : RecordType κ α) (field : String) : Except Error String :=
  match (T.table.field? field).or (T.table.fieldByApiName? field) with
  | some f =>
    if f.externalId || f.apiName == "Id" then .ok f.apiName
    else .error (.of (.invalidExternalIdField T.name field))
  | none => .error (.of (.invalidExternalIdField T.name field))

def wholeValue? (T : RecordType κ α) (r : α) (field : String) : Except Error (Option Json) :=
  match T.serialize r with
  | .error text => .error (.ofSerialization text)
  | .ok j => .ok (j.member? field)

/-- The body of an upsert: the record's body with its id and the field that identifies it. -/
def upsertBody (T : RecordType κ α) (mode : WriteMode) (field : String) (index : Nat) (r : α) :
    Except Error (Members Json) := do
  let body ← T.body mode r
  let body :=
    match T.id? r with
    | some id => Members.insert "Id" (Json.str id) body
    | none => body
  if body.has field then return body
  else
    match (← T.wholeValue? r field).filter fun (v : Json) => !v.isNull with
    | some v => return Members.insert field v body
    | none =>
      if field = "Id" then return body else .error (.of (.missingExternalId index field))

/-- The request to update records found by a field, or to insert those that are not found. -/
def upsertRequest (T : RecordType κ α) (records : List α) (field : String)
    (options : UpdateOptions) : Except Error BatchRequest := do
  ensureBatchSize records.length
  return ⟨options.allOrNone, ← mapIndexed (T.upsertBody options.mode field) 0 records⟩

def deleteIds (T : RecordType κ α) (records : List α) : Except Error String := do
  ensureBatchSize records.length
  return ",".intercalate (← mapIndexed T.recordId 0 records)

end RecordType

end OrgClient
