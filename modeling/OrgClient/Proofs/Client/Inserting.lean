import OrgClient.Proofs.Client.Batch
import OrgClient.Proofs.Record.Sent

namespace OrgClient

open Record
set_option autoImplicit true

theorem Record.WriteMode.written_insert (found : Option Json) (n : Nat) :
    WriteMode.insert.written found (n + 1) = WriteMode.insert.sent? found := by
  have hn : WriteMode.insert.written none n = none :=
    (written_eq_none_iff _ _ _).mpr (.inr rfl)
  rw [written, hn, Option.none_or]

namespace RecordType

variable {T : RecordType κ α} {r : α} {f : Schema.Field κ} {name : String} {v : Json}
  {body : Members Json}

/-- A field of a new record that is sent is sent with its value, even if others have its name. -/
theorem get?_body_of_created (h : T.body .insert r = .ok body) (hf : f ∈ T.table.fields)
    (hs : T.Sends r f .insert v) : Members.get? body f.apiName = some v := by
  have hp : 0 < WriteMode.insert.writers (T.modified r) T.table.fields f.apiName :=
    WriteMode.writers_pos_iff.mpr ⟨f, hf, hs.includes, rfl⟩
  obtain ⟨n, hn⟩ := Nat.exists_eq_add_of_lt hp
  rw [Nat.zero_add] at hn
  rw [get?_body h, hn, WriteMode.written_insert, hs.sent, Option.some_or]

theorem get?_body_of_no_writer (h : T.body mode r = .ok body) (hname : name ≠ "attributes")
    (hno : ∀ f ∈ T.table.fields, mode.includes (T.modified r) f → f.apiName ≠ name) :
    Members.get? body name = none := by
  rw [get?_body h, WriteMode.writers_eq_zero hno, if_neg hname]
  rfl

end RecordType

namespace Record

/-- What becomes of a record and its changes where an insert sends a body for it. -/
structure Inserted (T : RecordType κ α) (r : α) (body : Members Json) (r' : α) : Prop where
  sent : ∀ f ∈ T.table.fields, f.createable → f.isUpdated → (T.modified r).contains f.property →
    ∀ v, T.found? r f.apiName = some v → v.isNull = false → body.get? f.apiName = some v
  unsent : ∀ name, name ≠ "attributes" →
    (∀ f ∈ T.table.fields, f.apiName = name → f.createable = false) → body.get? name = none
  forgotten : T.modified r' = .empty
  /-- An update of the record with its changed fields has none. -/
  unchanged : ∀ update, T.body .updateModified r' = .ok update →
    ∀ name, name ≠ "attributes" → Members.get? update name = none

theorem Inserted.of_body {T : RecordType κ α} (h : T.body .insert r = .ok body)
    (hm : T.modified r' = .empty) : Inserted T r body r' := by
  refine ⟨?_, ?_, hm, ?_⟩
  · intro f hf hc hu _ v hv hn
    have hp : f.IsPlain := by
      simp only [Schema.Field.isUpdated, Bool.and_eq_true, Bool.not_eq_true'] at hu
      exact ⟨hu.1.2, hu.2⟩
    exact RecordType.get?_body_of_created h hf (.created hp hc hv hn)
  · intro name hname hno
    apply RecordType.get?_body_of_no_writer h hname
    intro f hf hi he
    simp only [WriteMode.includes, hno f hf he, Bool.and_false] at hi
    cases hi
  · intro update hu name hname
    apply RecordType.get?_body_of_no_writer hu hname
    intro f _ hi
    rw [includes_updateModified, hm, Bool.and_eq_true] at hi
    cases hi.2

end Record

theorem RecordType.body_of_insertRequest {T : RecordType κ α}
    (h : T.insertRequest rs allOrNone = .ok q) {i : Nat} (hr : rs[i]? = some r) :
    ∃ body, q.records[i]? = some body ∧ T.body .insert r = .ok body := by
  obtain ⟨_, -, h⟩ := bind_eq_ok_iff.mp h
  obtain ⟨bodies, hb, h⟩ := bind_eq_ok_iff.mp h
  cases h
  exact getElem?_of_mapIndexed hb hr

namespace Saving

variable {s : Saving} {c : Connection} {T : RecordType κ α} {session : Http.Session}

theorem record_of_ok (h : ((s.run c T).run (rs, session)).1 = .ok results) {i : Nat}
    (hr : rs[i]? = some r) (hi : results[i]? = some result) :
    ((s.run c T).run (rs, session)).2.1[i]? = some (T.reconcileOne s.takesId r result) := by
  rw [(reconcile_eq_ok_iff.mp (reconcile_of_ok h).1).2, List.getElem?_zipWith, hr, hi]

theorem request_of_insert (h : T.insertRequest rs o.allOrNone = .ok q) :
    (insert o).request c T rs = .ok (c.batchRequest .post Connection.batchPath q) := by
  have hb : (insert o).bodies T rs = .ok q := h
  rw [request, hb]
  rfl

end Saving

namespace Connection

/-- A record that an insert has saved was sent with the values of all changed fields that can be
created. Its changes are forgotten then, with those of fields that cannot be created, which were not
sent and which no update sends until they are changed again. -/
theorem insert_sends_what_can_be_created (c : Connection) {T : RecordType κ α}
    (hT : ∀ m r, T.modified (T.setModified m r) = m) (o : InsertOptions) (rs : List α)
    (session : Http.Session) (h : ((c.insert T o).run (rs, session)).1 = .ok results)
    {i : Nat} {result : SaveResult} (hr : rs[i]? = some r) (hi : results[i]? = some result)
    (hs : result.success) :
    ∃ q body r', T.insertRequest rs o.allOrNone = .ok q ∧
      ((c.insert T o).run (rs, session)).2.2.network =
        (session.network.exchange c.config (c.batchRequest .post batchPath q)).2 ∧
      q.records[i]? = some body ∧
      ((c.insert T o).run (rs, session)).2.1[i]? = some r' ∧ Inserted T r body r' := by
  have hne : rs ≠ [] := by
    rintro rfl
    cases hr
  have h : (((Saving.insert o).run c T).run (rs, session)).1 = .ok results := h
  obtain ⟨q, hq⟩ := (Saving.reconcile_of_ok h).2.resolve_left hne
  have hreq : (Saving.insert o).request c T rs = .ok (c.batchRequest .post batchPath q) :=
    Saving.request_of_insert hq
  obtain ⟨body, hbi, hbody⟩ := RecordType.body_of_insertRequest hq hr
  have hends := Saving.ends_of_ok session hne hreq
  refine ⟨q, body, _, hq, hends.network, hbi, Saving.record_of_ok h hr hi, ?_⟩
  apply Inserted.of_body hbody
  rw [reconcileOne_saved T _ r hs, hT]

def tieredAccounts : RecordType Nat Row :=
  Row.type (Schema.ofList [⟨"Account", [⟨"name", "Name", .string, false, true, true, false, none⟩,
    ⟨"tier", "Tier__c", .string, false, false, true, false, none⟩]⟩]) 0

def promotedAccount : Row :=
  ⟨.obj [("Name", .str "Acme"), ("Tier__c", .str "Gold")], .ofList ["name", "tier"]⟩

/-- What becomes of an insert of an account with a tier, which accounts get by updates only. -/
def promoted : Except Error (List SaveResult) × List Row × Http.Session :=
  let answer := "[\x7b\"id\":\"1\",\"success\":true\x7d]"
  let network : Http.Network :=
    ⟨fun _ => true, [.answer ⟨200, [], Text.utf8Bytes answer.toList⟩], []⟩
  (Connection.insert ⟨"http://org", "token", "62.0", {}⟩ tieredAccounts {}).run
    ([promotedAccount], ⟨network, [], none⟩)

theorem promoted_sends_name : ∃ results result, promoted.1 = .ok results ∧
    results[0]? = some result ∧ result.success ∧
    ∃ q body, tieredAccounts.insertRequest [promotedAccount] true = .ok q ∧
      q.records[0]? = some body ∧ body.get? "Name" = some (.str "Acme") := by
  have hsaved : (promoted.1.toOption.bind (·[0]?)).map (·.success) = some true := by decide +kernel
  cases h : promoted.1 with
  | error e =>
    rw [h] at hsaved
    cases hsaved
  | ok results =>
    rw [h] at hsaved
    obtain ⟨result, hi, hs⟩ := Option.map_eq_some_iff.mp hsaved
    obtain ⟨q, body, r', hq, -, hb, -, hins⟩ :=
      insert_sends_what_can_be_created _ (fun _ _ => rfl) _ _ _ h rfl hi hs
    exact ⟨results, result, rfl, hi, hs, q, body, hq, hb,
      hins.sent _ (.head _) rfl rfl (by decide) _ rfl rfl⟩

/-- The tier can be updated, was changed and has a value. It is neither in the body of the insert
nor among the changes behind it. -/
theorem promoted_forgets_tier :
    (tieredAccounts.table.field? "tier").any (·.isUpdated) ∧
      promotedAccount.modified.contains "tier" ∧
      tieredAccounts.found? promotedAccount "Tier__c" = some (.str "Gold") ∧
      (tieredAccounts.insertRequest [promotedAccount] true).toOption.map
        (·.records.map (·.map Prod.fst)) = some [["Name", "attributes"]] ∧
      (promoted.1.toOption.bind (·[0]?)).map (·.success) = some true ∧
      promoted.2.1.map (·.modified) = [.empty] := by
  refine ⟨rfl, by decide, rfl, rfl, ?_⟩
  decide +kernel

end Connection

end OrgClient
