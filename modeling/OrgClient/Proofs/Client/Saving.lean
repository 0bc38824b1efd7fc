import OrgClient.Proofs.Client.Batch
import OrgClient.Proofs.Record.Body

namespace OrgClient

open Record
set_option autoImplicit true

namespace Record

/-- What a save makes of records: nothing if it fails, else what their outcomes say. -/
def Reconciled (T : RecordType κ α) (other : α → ρ) (takesId : Bool) (before : List α) :
    Except Error (List SaveResult) → List α → Prop
  | .error _, after => after = before
  | .ok results, after => AllSavedAs T other takesId results before after

theorem IsObject.of_updateBody {T : RecordType κ α} (h : T.updateBody mode i r = .ok b) :
    IsObject T r := by
  obtain ⟨id, -, h⟩ := bind_eq_ok_iff.mp h
  obtain ⟨body, hb, -⟩ := bind_eq_ok_iff.mp h
  exact .of_body hb

theorem IsObject.of_upsertBody {T : RecordType κ α} (h : T.upsertBody mode field i r = .ok b) :
    IsObject T r := by
  obtain ⟨body, hb, -⟩ := bind_eq_ok_iff.mp h
  exact .of_body hb

/-- A request that can be built is built of objects. -/
theorem isObject_of_request {T : RecordType κ α} {body : Nat → α → Except Error (Members Json)}
    {rs : List α} (h : (do
      ensureBatchSize rs.length
      return (⟨allOrNone, ← mapIndexed body 0 rs⟩ : BatchRequest)) = .ok request)
    (hf : ∀ {i r b}, body i r = .ok b → IsObject T r) : ∀ r ∈ rs, IsObject T r := by
  obtain ⟨_, -, h⟩ := bind_eq_ok_iff.mp h
  obtain ⟨bodies, hb, -⟩ := bind_eq_ok_iff.mp h
  intro r hr
  obtain ⟨k, hk⟩ := List.mem_iff_getElem?.mp hr
  obtain ⟨b, -, hi⟩ := getElem?_of_mapIndexed hb hk
  exact hf hi

end Record

namespace Saving

/-- Only objects have bodies. -/
theorem isObject_of_bodies {s : Saving} {T : RecordType κ α} (h : s.bodies T rs = .ok q) :
    ∀ r ∈ rs, IsObject T r := by
  cases s with
  | insert o => exact isObject_of_request h .of_body
  | update o => exact isObject_of_request h .of_updateBody
  | upsert key o =>
    obtain ⟨field, -, h⟩ := bind_eq_ok_iff.mp h
    exact isObject_of_request h .of_upsertBody

/-- A save in any session that fails leaves all records alone. Otherwise there is one outcome for
each record: a record that was refused is left alone, and one that was saved has lost its changes
and taken the id of its outcome, if there is one and the save takes ids. -/
theorem changes_only_confirmed (s : Saving) (c : Connection) {T : RecordType κ α}
    (hT : T.Lawful other) (rs : List α) (session : Http.Session) :
    Reconciled T other s.takesId rs ((s.run c T).run (rs, session)).1
      ((s.run c T).run (rs, session)).2.1 := by
  cases h : ((s.run c T).run (rs, session)).1 with
  | error e => exact records_of_error h
  | ok results =>
    obtain ⟨hr, hq⟩ := reconcile_of_ok h
    refine .reconcile hT ?_ hr
    rcases hq with rfl | ⟨q, hq⟩
    · exact fun r hr => absurd hr List.not_mem_nil
    · exact isObject_of_bodies hq

def accountRows : RecordType Nat Row :=
  Row.type
    (Schema.ofList [⟨"Account", [⟨"name", "Name", .string, false, true, true, false, none⟩]⟩]) 0

def renamedAccounts : List Row :=
  ["Acme", "Globex"].map fun name => ⟨.obj [("Name", .str name)], .mark .empty "name"⟩

/-- What becomes of an insert of accounts of which the org refuses the second. -/
def refusedSecond : Except Error (List SaveResult) × List Row × Http.Session :=
  let answer := "[\x7b\"id\":\"1\",\"success\":true\x7d,\x7b\"success\":false\x7d]"
  let network : Http.Network :=
    ⟨fun _ => true, [.answer ⟨200, [], Text.utf8Bytes answer.toList⟩], []⟩
  ((Saving.insert {}).run ⟨"http://org", "token", "62.0", {}⟩
    accountRows).run (renamedAccounts, ⟨network, [], none⟩)

theorem refusedSecond_changes_first :
    refusedSecond.2.1.map (fun r => (r.id?, r.modified)) =
        [(some "1", .empty), (none, .mark .empty "name")] ∧
      Reconciled accountRows Row.other true renamedAccounts refusedSecond.1 refusedSecond.2.1 :=
  ⟨by decide +kernel, changes_only_confirmed (.insert {}) _ (Row.lawful _ _) _ _⟩

end Saving

end OrgClient
