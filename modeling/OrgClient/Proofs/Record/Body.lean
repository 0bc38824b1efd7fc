import Mathlib.Data.List.Nodup
import OrgClient.Proofs.Json.Members
import OrgClient.Proofs.Outcome
import OrgClient.Record.Batch

namespace OrgClient

set_option autoImplicit true

/-- A field whose values can be updated. -/
def Schema.Field.isUpdated (f : Schema.Field κ) : Bool :=
  f.updateable && !f.isRelationship && !f.type.isCompound

/-- The value under a name in the JSON form of a record, `null` if there is none. -/
def RecordType.value (T : RecordType κ α) (r : α) (name : String) : Json :=
  ((T.serialize r).toOption.bind (Json.member? name)).getD .null

theorem RecordType.body_of_object {T : RecordType κ α} (h : T.serialize r = .ok (.obj source))
    (mode : Record.WriteMode) :
    T.body mode r = .ok (Record.writeFields mode (T.modified r) T.table.fields source
      (Members.insert "attributes" (T.attributes r).toJson [])) := by
  rw [RecordType.body, h]

/-- Only a record that is an object in JSON has a body. -/
theorem RecordType.object_of_body {T : RecordType κ α} (h : T.body mode r = .ok b) :
    ∃ source, T.serialize r = .ok (.obj source) ∧
      b = Record.writeFields mode (T.modified r) T.table.fields source
        (Members.insert "attributes" (T.attributes r).toJson []) := by
  rw [RecordType.body] at h
  split at h
  · cases h
  · rename_i source hs
    cases h
    exact ⟨source, hs, rfl⟩
  · cases h

namespace Record

/-- A record has the form of an object. -/
def IsObject (T : RecordType κ α) (r : α) : Prop :=
  ∃ ms, T.serialize r = .ok (.obj ms)

theorem IsObject.of_body {T : RecordType κ α} (h : T.body mode r = .ok b) : IsObject T r := by
  obtain ⟨source, hs, -⟩ := RecordType.object_of_body h
  exact ⟨source, hs⟩

theorem includes_updateModified (m : Modified) (f : Schema.Field κ) :
    WriteMode.updateModified.includes m f = (f.isUpdated && m.contains f.property) := by
  unfold WriteMode.includes Schema.Field.isUpdated
  cases f.updateable <;> cases f.isRelationship <;> cases f.type.isCompound <;> rfl

/-- How many fields write under a name. -/
def WriteMode.writers (mode : WriteMode) (m : Modified) (fs : List (Schema.Field κ))
    (name : String) : Nat :=
  fs.countP fun f => mode.includes m f && f.apiName == name

/-- What so many fields leave under their common name. The value that was found there is taken out
for the first of them. -/
def WriteMode.written (mode : WriteMode) (found : Option Json) : Nat → Option Json
  | 0 => none
  | n + 1 => (mode.written none n).or (mode.sent? found)

theorem WriteMode.written_one (mode : WriteMode) (found : Option Json) :
    mode.written found 1 = mode.sent? found :=
  rfl

theorem WriteMode.sent?_eq_some {mode : WriteMode} {found : Option Json}
    (h : mode.sent? found = some v) : v = found.getD .null := by
  cases found <;> simp [sent?] at h <;> simp [h]

theorem WriteMode.sent?_none_of_found {mode : WriteMode} {found : Option Json}
    (h : mode.sent? found = none) : mode.sent? none = none := by
  cases found with
  | none => exact h
  | some v =>
    cases mode with
    | insert => rfl
    | update => rfl
    | updateModified => cases h

/-- What is found is written, or `null` behind the first of several fields. -/
theorem WriteMode.written_eq_some {mode : WriteMode} {found : Option Json} {n : Nat}
    (h : mode.written found n = some v) : v = found.getD .null ∨ v = .null ∧ 1 < n := by
  induction n generalizing found with
  | zero => cases h
  | succ n ih =>
    rcases Option.or_eq_some_iff.mp h with h | ⟨-, h⟩
    · right
      cases n with
      | zero => cases h
      | succ n =>
        rcases ih h with hv | ⟨hv, -⟩ <;> exact ⟨hv, by omega⟩
    · exact .inl (sent?_eq_some h)

theorem WriteMode.written_eq_none_iff (mode : WriteMode) (found : Option Json) (n : Nat) :
    mode.written found n = none ↔ n = 0 ∨ mode.sent? found = none := by
  induction n generalizing found with
  | zero => exact iff_of_true rfl (.inl rfl)
  | succ n ih =>
    rw [written, Option.or_eq_none_iff, ih]
    constructor
    · intro h
      exact .inr h.2
    · rintro (h | h)
      · cases h
      · exact ⟨.inr (sent?_none_of_found h), h⟩

/-- The value under each name of a body, whatever the names of the fields. -/
theorem get?_writeFields (mode : WriteMode) (m : Modified) (fs : List (Schema.Field κ))
    (name : String) (source body : Members Json) :
    (writeFields mode m fs source body).get? name =
      (mode.written (source.get? name) (mode.writers m fs name)).or (body.get? name) := by
  induction fs generalizing source body with
  | nil => rfl
  | cons f fs ih =>
    rw [writeFields]
    split
    · rename_i hi
      rw [ih]
      by_cases hn : f.apiName = name
      · -- The fields behind find nothing under this name any more.
        have hw : mode.writers m (f :: fs) name = mode.writers m fs name + 1 :=
          List.countP_cons_of_pos (by simp [hi, hn])
        subst hn
        rw [hw, Members.get?_erase_self, WriteMode.written, Option.or_assoc]
        cases mode.sent? (source.get? f.apiName) with
        | none => rfl
        | some v => rw [Members.get?_insert_self, Option.some_or]
      · have hw : mode.writers m (f :: fs) name = mode.writers m fs name :=
          List.countP_cons_of_neg (by simp [hn])
        rw [hw, Members.get?_erase_of_ne (Ne.symm hn)]
        cases mode.sent? (source.get? f.apiName) with
        | none => rfl
        | some v => rw [Members.get?_insert_of_ne (Ne.symm hn)]
    · rename_i hi
      have hw : mode.writers m (f :: fs) name = mode.writers m fs name :=
        List.countP_cons_of_neg (by simp [hi])
      rw [ih, hw]

theorem ordered_writeFields (mode : WriteMode) (m : Modified) (fs : List (Schema.Field κ))
    {source body : Members Json} (h : body.Ordered) :
    (writeFields mode m fs source body).Ordered := by
  induction fs generalizing source body with
  | nil => exact h
  | cons f fs ih =>
    rw [writeFields]
    split
    · apply ih
      cases mode.sent? (source.get? f.apiName) with
      | none => exact h
      | some v => exact h.insert f.apiName v
    · exact ih h

section Distinct

variable {mode : WriteMode} {m : Modified} {fs : List (Schema.Field κ)}

theorem WriteMode.writers_pos_iff :
    0 < mode.writers m fs name ↔ ∃ f ∈ fs, mode.includes m f ∧ f.apiName = name := by
  simp [writers, List.countP_pos_iff]

theorem WriteMode.writers_eq_zero (h : ∀ f ∈ fs, mode.includes m f → f.apiName ≠ name) :
    mode.writers m fs name = 0 := by
  by_contra hw
  obtain ⟨f, hf, hi, hn⟩ := writers_pos_iff.mp (Nat.pos_of_ne_zero hw)
  exact h f hf hi hn

theorem WriteMode.writers_le_count :
    mode.writers m fs name ≤ (fs.map (·.apiName)).count name := by
  rw [List.count, List.countP_map]
  apply List.countP_mono_left
  intro f _ hf
  exact (Bool.and_eq_true_iff.mp hf).2

/-- Of fields with names of their own, one at most writes under a name. -/
theorem WriteMode.writers_le_one (hn : (fs.map (·.apiName)).Nodup) :
    mode.writers m fs name ≤ 1 :=
  writers_le_count.trans (List.nodup_iff_count_le_one.mp hn name)

theorem get?_writeFields_of_ne (h : ∀ f ∈ fs, mode.includes m f → f.apiName ≠ name)
    (source body : Members Json) :
    (writeFields mode m fs source body).get? name = body.get? name := by
  rw [get?_writeFields, WriteMode.writers_eq_zero h]
  rfl

/-- Fields with names of their own do not take values from each other. -/
theorem get?_writeFields_of_mem (hn : (fs.map (·.apiName)).Nodup) (hf : f ∈ fs)
    (hi : mode.includes m f) (source body : Members Json) :
    (writeFields mode m fs source body).get? f.apiName =
      (mode.sent? (source.get? f.apiName)).or (body.get? f.apiName) := by
  have hp : 0 < mode.writers m fs f.apiName :=
    WriteMode.writers_pos_iff.mpr ⟨f, hf, hi, rfl⟩
  have hl : mode.writers m fs f.apiName ≤ 1 := WriteMode.writers_le_one hn
  rw [get?_writeFields, Nat.le_antisymm hl hp, WriteMode.written_one]

end Distinct

/-- A body that updates a record: it names the record, has the values of its changed fields, and
leaves its other fields alone. -/
structure Updates (T : RecordType κ α) (r : α) (body : Members Json) : Prop where
  id : ∃ id, T.id? r = some id ∧ body.get? "Id" = some (.str id)
  changed : ∀ f ∈ T.table.fields, f.isUpdated → (T.modified r).contains f.property →
    f.apiName ≠ "Id" → body.get? f.apiName = some (T.value r f.apiName)
  unchanged : ∀ f ∈ T.table.fields, ¬ (T.modified r).contains f.property → f.apiName ≠ "Id" →
    body.get? f.apiName = none

theorem Updates.rowId {T : RecordType κ α} {id : String} (h : Updates T r body)
    (hid : T.id? r = some id) : (body.get? "Id").bind Json.text? = some id := by
  obtain ⟨id', hid', hb⟩ := h.id
  rw [hb, ← hid, hid']
  rfl

theorem id_of_recordId {T : RecordType κ α} {id : String} (h : T.recordId i r = .ok id) :
    T.id? r = some id := by
  unfold RecordType.recordId at h
  split at h
  · cases h
  · rename_i id' hid
    split at h <;> cases h
    exact hid

theorem Updates.of_updateBody {T : RecordType κ α}
    (hn : (T.table.fields.map (·.apiName)).Nodup)
    (ha : "attributes" ∉ T.table.fields.map (·.apiName))
    (h : T.updateBody .updateModified i r = .ok body) : Updates T r body := by
  obtain ⟨id, hid, h⟩ := bind_eq_ok_iff.mp h
  obtain ⟨fields, hb, h⟩ := bind_eq_ok_iff.mp h
  cases h
  obtain ⟨source, hs, rfl⟩ := RecordType.object_of_body hb
  refine ⟨⟨id, id_of_recordId hid, Members.get?_insert_self ..⟩, ?_, ?_⟩
  · intro f hf hu hm hne
    have hi : WriteMode.updateModified.includes (T.modified r) f := by
      rw [includes_updateModified, hu, hm]
      rfl
    rw [Members.get?_insert_of_ne hne, get?_writeFields_of_mem hn hf hi, RecordType.value, hs]
    change (WriteMode.updateModified.sent? _).or _ =
      some ((Members.get? source f.apiName).getD .null)
    cases Members.get? source f.apiName <;> rfl
  · intro f hf hm hne
    have ho : ∀ g ∈ T.table.fields, WriteMode.updateModified.includes (T.modified r) g →
        g.apiName ≠ f.apiName := by
      intro g hg hi he
      cases List.inj_on_of_nodup_map hn hg hf he
      rw [includes_updateModified, Bool.and_eq_true] at hi
      exact hm hi.2
    rw [Members.get?_insert_of_ne hne, get?_writeFields_of_ne ho]
    exact Members.get?_insert_of_ne (fun he => ha (List.mem_map.mpr ⟨f, hf, he⟩)) _ []

theorem getElem?_of_mapIndexed {f : Nat → β → Except Error γ} {xs : List β} {ys : List γ} {k : Nat}
    (h : mapIndexed f i xs = .ok ys) (hx : xs[k]? = some x) :
    ∃ y, ys[k]? = some y ∧ f (i + k) x = .ok y := by
  induction xs generalizing i ys k with
  | nil => cases hx
  | cons x' xs ih =>
    obtain ⟨y, hy, h⟩ := bind_eq_ok_iff.mp h
    obtain ⟨ys', hys, h⟩ := bind_eq_ok_iff.mp h
    cases h
    cases k with
    | zero =>
      cases hx
      exact ⟨y, rfl, hy⟩
    | succ k =>
      rw [List.getElem?_cons_succ] at hx ⊢
      rw [Nat.add_comm k, ← Nat.add_assoc]
      exact ih hys hx

/-- An error comes from the first item that gives one. -/
theorem first_of_mapIndexed_error {f : Nat → β → Except Error γ} {xs : List β}
    (h : mapIndexed f i xs = .error e) :
    ∃ k x, xs[k]? = some x ∧ f (i + k) x = .error e ∧
      ∀ j < k, ∀ x, xs[j]? = some x → ∃ y, f (i + j) x = .ok y := by
  induction xs generalizing i with
  | nil => cases h
  | cons x xs ih =>
    rcases bind_eq_error_iff.mp h with hx | ⟨y, hy, h⟩
    · exact ⟨0, x, rfl, hx, nofun⟩
    · rcases bind_eq_error_iff.mp h with hxs | ⟨ys, -, h⟩
      · obtain ⟨k, x', hk, he, hok⟩ := ih hxs
        refine ⟨k + 1, x', hk, ?_, fun j hj x'' hx => ?_⟩
        · rw [Nat.add_comm k, ← Nat.add_assoc]
          exact he
        · cases j with
          | zero =>
            cases hx
            exact ⟨y, hy⟩
          | succ j =>
            rw [Nat.add_comm j, ← Nat.add_assoc]
            exact hok j (Nat.lt_of_succ_lt_succ hj) x'' hx
      · cases h

/-- The first item that gives an error decides which error is given. -/
theorem mapIndexed_eq_error_iff {f : Nat → β → Except Error γ} {xs : List β} :
    mapIndexed f i xs = .error e ↔
      ∃ k x, xs[k]? = some x ∧ f (i + k) x = .error e ∧
        ∀ j < k, ∀ x, xs[j]? = some x → ∃ y, f (i + j) x = .ok y := by
  refine ⟨first_of_mapIndexed_error, ?_⟩
  rintro ⟨k, x, hx, he, hok⟩
  cases hm : mapIndexed f i xs with
  | ok ys =>
    obtain ⟨y, -, hy⟩ := getElem?_of_mapIndexed hm hx
    cases he.symm.trans hy
  | error e' =>
    obtain ⟨k', x', hx', he', hok'⟩ := first_of_mapIndexed_error hm
    rcases Nat.lt_trichotomy k k' with hk | rfl | hk
    · obtain ⟨y, hy⟩ := hok' k hk x hx
      cases he.symm.trans hy
    · cases hx.symm.trans hx'
      cases he'.symm.trans he
      rfl
    · obtain ⟨y, hy⟩ := hok k' hk x' hx'
      cases he'.symm.trans hy

/-- If each item gives a result at its place, all of them do. -/
theorem mapIndexed_ok {f : Nat → β → Except Error γ} {xs : List β}
    (h : ∀ (k : Nat) x, xs[k]? = some x → ∃ y, f (i + k) x = .ok y) :
    ∃ ys, mapIndexed f i xs = .ok ys := by
  cases hm : mapIndexed f i xs with
  | ok ys => exact ⟨ys, rfl⟩
  | error e =>
    obtain ⟨k, x, hk, he, -⟩ := first_of_mapIndexed_error hm
    obtain ⟨y, hy⟩ := h k x hk
    cases hy.symm.trans he

theorem forall₂_of_mapIndexed {f : Nat → β → Except Error γ} (h : mapIndexed f i xs = .ok ys) :
    List.Forall₂ (fun x y => ∃ j, f j x = .ok y) xs ys := by
  induction xs generalizing i ys with
  | nil =>
    cases h
    exact .nil
  | cons x xs ih =>
    obtain ⟨y, hy, h⟩ := bind_eq_ok_iff.mp h
    obtain ⟨ys', hys, h⟩ := bind_eq_ok_iff.mp h
    cases h
    exact .cons ⟨i, hy⟩ (ih hys)

theorem map_of_mapIndexed {f : Nat → β → Except Error γ} {g : β → δ} {g' : γ → δ}
    (hf : ∀ {i x y}, f i x = .ok y → g x = g' y) (h : mapIndexed f i xs = .ok ys) :
    xs.map g = ys.map g' := by
  induction xs generalizing i ys with
  | nil =>
    cases h
    rfl
  | cons x xs ih =>
    obtain ⟨y, hy, h⟩ := bind_eq_ok_iff.mp h
    obtain ⟨ys', hys, h⟩ := bind_eq_ok_iff.mp h
    cases h
    rw [List.map_cons, List.map_cons, hf hy, ih hys]

theorem mem_of_mapIndexed {f : Nat → β → Except Error γ} (h : mapIndexed f i xs = .ok ys)
    (hy : y ∈ ys) : ∃ x ∈ xs, ∃ j, f j x = .ok y := by
  induction xs generalizing i ys with
  | nil =>
    cases h
    cases hy
  | cons x xs ih =>
    obtain ⟨y', hy', h⟩ := bind_eq_ok_iff.mp h
    obtain ⟨ys', hys, h⟩ := bind_eq_ok_iff.mp h
    cases h
    rcases List.mem_cons.mp hy with rfl | hy
    · exact ⟨x, List.mem_cons_self, i, hy'⟩
    · obtain ⟨x', hx', j, hj⟩ := ih hys hy
      exact ⟨x', List.mem_cons_of_mem x hx', j, hj⟩

end Record

end OrgClient
