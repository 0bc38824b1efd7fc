import OrgClient.Client.Work
import OrgClient.Record.Reconcile

namespace OrgClient

open Record (BatchRequest DeleteResult InsertOptions SaveResult UpdateOptions)

variable {κ α β : Type}

/-- Work on a batch of records in a session, which may fail. -/
abbrev BatchWork (α : Type) := ExceptT Error (StateM (List α × Http.Session))

namespace BatchWork

def ofWork (work : Work β) : BatchWork α β :=
  ExceptT.mk fun s =>
    let (result, session) := work.run s.2
    (result, (s.1, session))

def records : BatchWork α (List α) :=
  ExceptT.lift fun s => (s.1, s)

def setRecords (rs : List α) : BatchWork α Unit :=
  ExceptT.lift fun s => ((), (rs, s.2))

end BatchWork

namespace Connection

def batchPath : String := "composite/sobjects"

/-- Notes the records that were not saved. -/
def noteUnsaved (T : RecordType κ α) (results : List SaveResult) : Work Unit :=
  (RecordType.unsaved results).forM fun index =>
    Work.note .warn "Record was not saved" [("sobject", .text T.name), ("index", .count index)]

def submit (c : Connection) (T : RecordType κ α) (method : Http.Method) (path : String)
    (request : BatchRequest) (setId : Bool) : BatchWork α (List SaveResult) := do
  let results ← BatchWork.ofWork (Work.ofCall
    (c.restSubmit method (.list SaveResult.decode) path request.toJson))
  -- The records are replaced at once, and only when all outcomes fit them.
  let saved ← T.reconcile setId (← BatchWork.records) results
  BatchWork.ofWork (noteUnsaved T results)
  BatchWork.setRecords saved
  return results

/-- Inserts the records of the batch; an empty batch is not sent. -/
def insert (c : Connection) (T : RecordType κ α) (o : InsertOptions) :
    BatchWork α (List SaveResult) := do
  let rs ← BatchWork.records
  if rs.isEmpty then return []
  let request ← T.insertRequest rs o.allOrNone
  BatchWork.ofWork (Work.note .debug "Submitting collection insert"
    [("all_or_none", .flag o.allOrNone)])
  c.submit T .post batchPath request o.setId

/-- Updates the records of the batch; an empty batch is not sent. -/
def update (c : Connection) (T : RecordType κ α) (o : UpdateOptions) :
    BatchWork α (List SaveResult) := do
  let rs ← BatchWork.records
  if rs.isEmpty then return []
  let request ← T.updateRequest rs o
  BatchWork.ofWork (Work.note .debug "Submitting collection update"
    [("all_or_none", .flag o.allOrNone), ("send_all_fields", .flag o.sendAllFields)])
  c.submit T .patch batchPath request false

/-- Updates the records of the batch that are found by a field and inserts the others; an empty
batch is not sent. -/
def upsert (c : Connection) (T : RecordType κ α) (key : String) (o : UpdateOptions) :
    BatchWork α (List SaveResult) := do
  let field ← T.externalIdField key
  let rs ← BatchWork.records
  if rs.isEmpty then return []
  let request ← T.upsertRequest rs field o
  BatchWork.ofWork (Work.note .debug "Submitting collection upsert"
    [("external_id", .text field)])
  c.submit T .patch (batchPath ++ "/" ++ T.name ++ "/" ++ field) request true

def flagText (b : Bool) : String :=
  if b then "true" else "false"

def deleteRequest (c : Connection) (ids : String) (allOrNone : Bool) : Http.Request :=
  ((c.request .delete (c.restUrl batchPath)).query "ids" ids).query "allOrNone"
    (flagText allOrNone)

/-- Deletes the records of the batch, which stay as they are; an empty batch is not sent. -/
def delete (c : Connection) (T : RecordType κ α) (allOrNone : Bool) :
    BatchWork α (List DeleteResult) := do
  let rs ← BatchWork.records
  if rs.isEmpty then return []
  let ids ← T.deleteIds rs
  BatchWork.ofWork (Work.note .debug "Submitting collection delete"
    [("all_or_none", .flag allOrNone)])
  BatchWork.ofWork (Work.ofCall
    (c.sendJson (.list DeleteResult.decode) (c.deleteRequest ids allOrNone)))

end Connection

end OrgClient
