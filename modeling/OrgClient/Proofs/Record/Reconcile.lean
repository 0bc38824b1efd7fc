import OrgClient.Proofs.Json.Members
import OrgClient.Proofs.Outcome
import OrgClient.Record.Reconcile

namespace OrgClient

set_option autoImplicit true

/-- A type of records in which ids and changes can be set, each without the other and without what
else is in a record. Ids can be set in records that have the form of an object. -/
structure RecordType.Lawful (T : RecordType κ α) (other : α → ρ) : Prop where
  id_setId : ∀ {id : String}, T.serialize r = .ok (.obj ms) → T.id? (T.setId id r) = some id
  other_setId : ∀ {id : String}, other (T.setId id r) = other r
  id_setModified : T.id? (T.setModified m r) = T.id? r
  modified_setModified : T.modified (T.setModified m r) = m
  other_setModified : other (T.setModified m r) = other r

namespace Record

/-- A record behind a save that had an outcome for it. Ids are taken from outcomes or not. -/
structure SavedAs (T : RecordType κ α) (other : α → ρ) (takesId : Bool) (result : SaveResult)
    (before after : α) : Prop where
  refused : result.success = false → after = before
  unmodified : result.success → T.modified after = .empty
  id : result.success →
    T.id? after = if takesId then result.id.or (T.id? before) else T.id? before
  kept : result.success → other after = other before

/-- Records behind a save: each goes by the outcome at its own place. -/
structure AllSavedAs (T : RecordType κ α) (other : α → ρ) (takesId : Bool)
    (results : List SaveResult) (before after : List α) : Prop where
  count : results.length = before.length
  length : after.length = before.length
  saved : ∀ (i : Nat) result r r', results[i]? = some result → before[i]? = some r →
    after[i]? = some r' → SavedAs T other takesId result r r'

theorem reconcileOne_refused (T : RecordType κ α) (takesId : Bool) (r : α)
    (h : result.success = false) : T.reconcileOne takesId r result = r := by
  simp only [RecordType.reconcileOne, h, Bool.false_eq_true, if_false]

theorem reconcileOne_saved (T : RecordType κ α) (takesId : Bool) (r : α) (h : result.success) :
    T.reconcileOne takesId r result =
      T.setModified .empty
        (((if takesId then result.id else none).map fun id => T.setId id r).getD r) := by
  simp only [RecordType.reconcileOne, h, if_true]
  cases takesId with
  | false => rfl
  | true => cases result.id <;> rfl

theorem SavedAs.reconcileOne {T : RecordType κ α} (hT : T.Lawful other)
    (hr : T.serialize r = .ok (.obj ms)) (takesId : Bool) (result : SaveResult) :
    SavedAs T other takesId result r (T.reconcileOne takesId r result) := by
  refine ⟨reconcileOne_refused T takesId r, fun h => ?_, fun h => ?_, fun h => ?_⟩
  · rw [reconcileOne_saved T takesId r h, hT.modified_setModified]
  · rw [reconcileOne_saved T takesId r h, hT.id_setModified]
    cases takesId with
    | false => rfl
    | true =>
      cases result.id with
      | none => rfl
      | some id => exact hT.id_setId hr
  · rw [reconcileOne_saved T takesId r h, hT.other_setModified]
    cases takesId with
    | false => rfl
    | true =>
      cases result.id with
      | none => rfl
      | some id => exact hT.other_setId

theorem reconcile_of_ne {T : RecordType κ α} (h : rs.length ≠ results.length) :
    T.reconcile takesId rs results = .error (.of (.resultCountMismatch rs.length results.length)) :=
  if_pos h

theorem reconcile_eq_ok_iff {T : RecordType κ α} :
    T.reconcile takesId rs results = .ok rs' ↔
      rs.length = results.length ∧ rs' = List.zipWith (T.reconcileOne takesId) rs results := by
  by_cases hl : rs.length = results.length
  · rw [RecordType.reconcile, if_neg (not_not.mpr hl)]
    exact ⟨fun h => ⟨hl, (Except.ok.inj h).symm⟩, fun h => congrArg Except.ok h.2.symm⟩
  · rw [reconcile_of_ne hl]
    exact ⟨nofun, fun h => absurd h.1 hl⟩

/-- Taking the outcomes into records puts each into the record at its place, or fails. -/
theorem AllSavedAs.reconcile {T : RecordType κ α} (hT : T.Lawful other)
    (hr : ∀ r ∈ rs, ∃ ms, T.serialize r = .ok (.obj ms))
    (h : T.reconcile takesId rs results = .ok rs') :
    AllSavedAs T other takesId results rs rs' := by
  obtain ⟨hl, rfl⟩ := reconcile_eq_ok_iff.mp h
  refine ⟨hl.symm, ?_, ?_⟩
  · rw [List.length_zipWith, hl, Nat.min_self]
  · intro i result r r' hi hri hri'
    rw [List.getElem?_zipWith, hri, hi] at hri'
    cases hri'
    obtain ⟨ms, hms⟩ := hr r (List.mem_of_getElem? hri)
    exact .reconcileOne hT hms takesId result

end Record

namespace Record.Row

/-- What is in a row besides its id and its changes. -/
def other (r : Row) : Json :=
  match r.data with
  | .obj ms => .obj (Members.erase "Id" ms)
  | j => j

theorem lawful (schema : Schema κ) (key : κ) : (type schema key).Lawful other := by
  refine ⟨?_, ?_, rfl, rfl, rfl⟩
  · rintro ⟨data, modified⟩ ms id h
    cases h
    change (Members.get? (Members.insert "Id" (.str id) ms) "Id").bind Json.text? = _
    rw [Members.get?_insert_self]
    rfl
  · rintro ⟨data, modified⟩ id
    change Row.other (Row.setId id ⟨data, modified⟩) = _
    cases data with
    | obj ms => exact congrArg Json.obj (Members.erase_insert_self "Id" _ ms)
    | null => rfl
    | bool b => rfl
    | int n => rfl
    | float x => rfl
    | str s => rfl
    | arr js => rfl

end Record.Row

end OrgClient
