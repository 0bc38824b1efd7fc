import OrgClient.Record.Batch

namespace OrgClient.RecordType

open Record

variable {κ α : Type}

/-- A saved record has no changes, and has its id if ids are set. -/
def reconcileOne (T : RecordType κ α) (setId : Bool) (r : α) (result : SaveResult) : α :=
  if result.success then
    let r :=
      match setId, result.id with
      | true, some id => T.setId id r
      | _, _ => r
    T.setModified .empty r
  else r

/-- The records after a save; there must be one outcome for each. -/
def reconcile (T : RecordType κ α) (setId : Bool) (records : List α)
    (results : List SaveResult) : Except Error (List α) :=
  if records.length ≠ results.length then
    .error (.of (.resultCountMismatch records.length results.length))
  else .ok (List.zipWith (T.reconcileOne setId) records results)

/-- The places of records that were not saved. -/
def unsaved (results : List SaveResult) : List Nat :=
  (results.zipIdx.filter (!·.1.success)).map (·.2)

end OrgClient.RecordType
