import OrgClient.Proofs.Client.Saving

namespace OrgClient

open Http (Session)
open Record
set_option autoImplicit true

namespace Saving

variable {s : Saving} {c : Connection} {T : RecordType κ α} {rs : List α} {session : Session}

theorem length_eq_of_run (h : ((s.run c T).run (rs, session)).1 = .ok results) :
    results.length = rs.length :=
  (reconcile_eq_ok_iff.mp (reconcile_of_ok h).1).1.symm

theorem run_of_misfit (hne : rs ≠ []) (hr : s.request c T rs = .ok r)
    (ha : c.asked (.list SaveResult.decode) r session.network = .ok results)
    (hl : results.length ≠ rs.length) :
    ((s.run c T).run (rs, session)).1 =
      .error (.of (.resultCountMismatch rs.length results.length)) := by
  rw [(ends_of_ok session hne hr).outcome, outcome, ha]
  change (T.taken s.takesId rs results).map _ = _
  rw [RecordType.taken_of_error (reconcile_of_ne hl.symm)]
  rfl

end Saving

theorem BatchCall.run_delete {c : Connection} {T : RecordType κ α} {rs : List α}
    {session : Session} (hne : rs ≠ []) (hr : (delete allOrNone).request c T rs = .ok r)
    (ha : c.asked (.list DeleteResult.decode) r session.network = .ok results) :
    ((c.delete T allOrNone).run (rs, session)).1 = .ok results := by
  have h := (ends_of_ok session hne hr).outcome
  rw [outcome, ha] at h
  exact h

/-- A save that gives results gives one for each record, and reports an answer with more or fewer. A
deletion gives all results of its answer, however many they are. -/
theorem only_saves_check_count (c : Connection) (T : RecordType κ α) (rs : List α)
    (session : Session) :
    (∀ (s : Saving) (results : List SaveResult),
      ((s.run c T).run (rs, session)).1 = .ok results → results.length = rs.length) ∧
    (∀ (s : Saving) (r : Http.Request) (results : List SaveResult), rs ≠ [] →
      s.request c T rs = .ok r →
      c.asked (.list SaveResult.decode) r session.network = .ok results →
      results.length ≠ rs.length →
      ((s.run c T).run (rs, session)).1 =
        .error (.of (.resultCountMismatch rs.length results.length))) ∧
    ∀ (allOrNone : Bool) (r : Http.Request) (results : List DeleteResult), rs ≠ [] →
      (BatchCall.delete allOrNone).request c T rs = .ok r →
      c.asked (.list DeleteResult.decode) r session.network = .ok results →
      ((c.delete T allOrNone).run (rs, session)).1 = .ok results :=
  ⟨fun _ _ => Saving.length_eq_of_run, fun _ _ _ => Saving.run_of_misfit,
    fun _ _ _ => BatchCall.run_delete⟩

/-- A deletion of two accounts that is answered with the outcome of one. -/
def deletedTogether : Except Error (List DeleteResult) × List Row × Session :=
  let answer := "[\x7b\"id\":\"001000000000001AAA\",\"success\":true\x7d]"
  let network : Http.Network :=
    ⟨fun _ => true, [.answer ⟨200, [], Text.utf8Bytes answer.toList⟩], []⟩
  let rows : List Row := ["001000000000001AAA", "001000000000002AAA"].map fun id =>
    ⟨.obj [("Id", .str id)], .empty⟩
  (Connection.delete ⟨"http://org", "token", "62.0", {}⟩ Saving.accountRows true).run
    (rows, ⟨network, [], none⟩)

theorem deletedTogether_has_one_result :
    deletedTogether.1.toOption.map List.length = some 1 ∧ deletedTogether.2.1.length = 2 := by
  decide +kernel

end OrgClient
