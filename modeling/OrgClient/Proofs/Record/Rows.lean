import Mathlib.Tactic.Tauto
import OrgClient.Proofs.Record.Body

namespace OrgClient

open Record
set_option autoImplicit true

namespace Record

/-- The bodies of records in the JSON form of a batch, none if it is no batch. -/
def bodiesIn (batch : Json) : List (Members Json) :=
  match batch.member? "records" with
  | some (.arr items) => items.filterMap fun
    | .obj body => some body
    | _ => none
  | _ => []

theorem bodiesIn_toJson (q : BatchRequest) : bodiesIn q.toJson = q.records := by
  have hm : q.toJson.member? "records" = some (.arr (q.records.map .obj)) :=
    Members.get?_insert_self "records" _ _
  rw [bodiesIn, hm]
  simp only [List.filterMap_map]
  exact List.filterMap_some

theorem Modified.mem_insertOrdered (p q : String) (ps : List String) :
    q ∈ insertOrdered p ps ↔ q = p ∨ q ∈ ps := by
  induction ps with
  | nil => exact List.mem_cons
  | cons p' ps ih =>
    rw [insertOrdered]
    split_ifs with hl he
    · exact List.mem_cons
    · subst he
      rw [List.mem_cons]
      tauto
    · rw [List.mem_cons, List.mem_cons, ih]
      tauto

theorem Modified.contains_mark (m : Modified) (p q : String) :
    (m.mark p).contains q ↔ q = p ∨ m.contains q := by
  simp only [contains, mark, List.contains_iff_mem]
  exact mem_insertOrdered p q m.properties

/-- A record behind a setter of a field, which may have stored a value or removed the one that was
there. -/
structure Edited (T : RecordType κ α) (f : Schema.Field κ) (before after : α) : Prop where
  id : T.id? after = T.id? before
  marked : T.modified after = (T.modified before).mark f.property
  kept : ∀ name ≠ f.apiName, T.value after name = T.value before name

end Record

/-- What an org keeps under names in its rows, which have ids. -/
abbrev Rows := String → String → Json

namespace Rows

/-- A body changes the row that its id names, in the fields that it has besides the id. -/
def apply (rows : Rows) (body : Members Json) : Rows := fun id name =>
  if (body.get? "Id").bind Json.text? = some id ∧ name ≠ "Id" then
    (body.get? name).getD (rows id name)
  else rows id name

def applyAll (rows : Rows) (bodies : List (Members Json)) : Rows :=
  bodies.foldl apply rows

/-- The bodies at the places of outcomes that say that a record is saved. -/
def confirmed (bodies : List (Members Json)) (results : List SaveResult) :
    List (Members Json) :=
  ((bodies.zip results).filter (·.2.success)).map (·.1)

/-- What an org makes of the bodies of an update: it applies those that it confirms. Of an update
that fails it may have applied any. -/
def Served (rows : Rows) (bodies : List (Members Json)) :
    Except Error (List SaveResult) → Rows → Prop
  | .ok results, rows' => rows' = rows.applyAll (confirmed bodies results)
  | .error _, rows' => ∃ applied ⊆ bodies, rows' = rows.applyAll applied

/-- The rows behind an update of which the org applies nothing if it fails. -/
def serve (rows : Rows) (bodies : List (Members Json)) :
    Except Error (List SaveResult) → Rows
  | .ok results => rows.applyAll (confirmed bodies results)
  | .error _ => rows

theorem served_serve (rows : Rows) (bodies : List (Members Json))
    (outcome : Except Error (List SaveResult)) :
    rows.Served bodies outcome (rows.serve bodies outcome) := by
  cases outcome with
  | error e => exact ⟨[], List.nil_subset bodies, rfl⟩
  | ok results => rfl

theorem mem_confirmed {bs : List (Members Json)} {results : List SaveResult} {k : Nat}
    (hb : bs[k]? = some b) (hr : results[k]? = some result) (hs : result.success) :
    b ∈ confirmed bs results := by
  have hz : (b, result) ∈ bs.zip results :=
    List.mem_of_getElem? (List.getElem?_zip_eq_some.mpr ⟨hb, hr⟩)
  exact List.mem_map.mpr ⟨(b, result), List.mem_filter.mpr ⟨hz, hs⟩, rfl⟩

end Rows

/-- A row has the values of a record in the fields that are not among some changes. The id is never
changed. -/
def Follows (T : RecordType κ α) (m : Modified) (row : String → Json) (r : α) : Prop :=
  ∀ f ∈ T.table.fields, f.isUpdated → ¬ m.contains f.property ∨ f.apiName = "Id" →
    row f.apiName = T.value r f.apiName

namespace Follows

variable {T : RecordType κ α} {rows : Rows} {id : String}

theorem mono (h : Follows T m row r) (hm : ∀ p, m.contains p → m'.contains p) :
    Follows T m' row r := by
  intro f hf hu hc
  apply h f hf hu
  rcases hc with hc | hc
  · exact .inl fun hp => hc (hm _ hp)
  · exact .inr hc

theorem of_empty (h : Follows T .empty row r) (m : Modified) : Follows T m row r :=
  h.mono fun _ hp => nomatch hp

theorem congr (h : Follows T m row r) (hv : T.value r' = T.value r) : Follows T m row r' := by
  intro f hf hu hc
  rw [hv]
  exact h f hf hu hc

/-- A setter of a field changes its value only, and marks it. -/
theorem edited (hn : (T.table.fields.map (·.apiName)).Nodup) (hf : f ∈ T.table.fields)
    (hid : f.apiName ≠ "Id") (he : Edited T f r r') (h : Follows T (T.modified r) row r) :
    Follows T (T.modified r') row r' := by
  intro g hg hu hc
  have hne : g.apiName ≠ f.apiName := by
    intro ha
    rcases hc with hc | hc
    · -- The field with the name of the edited one is that field, which is marked now.
      cases List.inj_on_of_nodup_map hn hg hf ha
      apply hc
      rw [he.marked, Modified.contains_mark]
      exact .inl rfl
    · exact hid (ha.symm.trans hc)
  rw [he.kept _ hne]
  apply h g hg hu
  rcases hc with hc | hc
  · left
    intro hp
    apply hc
    rw [he.marked, Modified.contains_mark]
    exact .inr hp
  · exact .inr hc

/-- The body of a record brings its row up to date. -/
theorem apply_own (hb : Updates T r body) (hid : T.id? r = some id)
    (h : Follows T (T.modified r) (rows id) r) : Follows T .empty (rows.apply body id) r := by
  intro f hf hu _
  by_cases hI : f.apiName = "Id"
  · rw [Rows.apply, if_neg (fun hc => hc.2 hI)]
    exact h f hf hu (.inr hI)
  · rw [Rows.apply, if_pos ⟨hb.rowId hid, hI⟩]
    by_cases hm : (T.modified r).contains f.property
    · rw [hb.changed f hf hu hm hI]
      rfl
    · rw [hb.unchanged f hf hm hI]
      exact h f hf hu (.inl hm)

end Follows

section Bodies

variable {T : RecordType κ α} {records : ι → α} {ids : ι → String} {rows : Rows}
  {bs : List (Members Json)}

/-- Bodies of other records leave a row alone, and the own one brings it up to date. -/
theorem Follows.apply (hi : Function.Injective ids) (hid : ∀ i, T.id? (records i) = some (ids i))
    (hb : Updates T (records j) body) (hm : ∀ p, m.contains p → (T.modified (records i)).contains p)
    (h : Follows T m (rows (ids i)) (records i)) :
    Follows T m (rows.apply body (ids i)) (records i) := by
  by_cases he : j = i
  · subst he
    exact (apply_own hb (hid j) (h.mono hm)).of_empty m
  · have hne : ids j ≠ ids i := fun hc => he (hi hc)
    have hrow : rows.apply body (ids i) = rows (ids i) := by
      funext name
      rw [Rows.apply, if_neg]
      rintro ⟨hc, -⟩
      rw [hb.rowId (hid j)] at hc
      exact hne (Option.some.inj hc)
    rw [hrow]
    exact h

theorem Follows.applyAll (hi : Function.Injective ids)
    (hid : ∀ i, T.id? (records i) = some (ids i)) (hb : ∀ b ∈ bs, ∃ j, Updates T (records j) b)
    (hm : ∀ p, m.contains p → (T.modified (records i)).contains p)
    (h : Follows T m (rows (ids i)) (records i)) :
    Follows T m (rows.applyAll bs (ids i)) (records i) := by
  induction bs generalizing rows with
  | nil => exact h
  | cons b bs ih =>
    obtain ⟨j, hj⟩ := hb b List.mem_cons_self
    exact ih (fun b' hb' => hb b' (List.mem_cons_of_mem b hb')) (h.apply hi hid hj hm)

/-- A row is up to date once the body of its record was applied, whatever was applied besides. -/
theorem Follows.applyAll_of_mem (hi : Function.Injective ids)
    (hid : ∀ i, T.id? (records i) = some (ids i)) (hb : ∀ b ∈ bs, ∃ j, Updates T (records j) b)
    (hmem : body ∈ bs) (hu : Updates T (records i) body)
    (h : Follows T (T.modified (records i)) (rows (ids i)) (records i)) :
    Follows T .empty (rows.applyAll bs (ids i)) (records i) := by
  -- The bodies before keep the row in step with the changes, those behind keep it up to date.
  obtain ⟨l, l', rfl⟩ := List.append_of_mem hmem
  have hl := h.applyAll hi hid (fun b hm => hb b (List.mem_append_left _ hm)) (fun _ hp => hp)
  have ha : rows.applyAll (l ++ body :: l') = ((rows.applyAll l).apply body).applyAll l' :=
    List.foldl_append
  rw [ha]
  apply Follows.applyAll hi hid
  · exact fun b hm => hb b (List.mem_append_right l (List.mem_cons_of_mem body hm))
  · exact fun _ hp => nomatch hp
  · exact apply_own hu (hid i) hl

end Bodies

namespace Record.Row

variable {schema : Schema κ} {key : κ} {f : Schema.Field κ}

/-- Removes the value under a name of an object. -/
def remove (name : String) (r : Row) : Row :=
  match r.data with
  | .obj ms => { r with data := .obj (Members.erase name ms) }
  | _ => r

theorem edited_of_member {r r' : Row} (hid : f.apiName ≠ "Id")
    (hd : ∀ name ≠ f.apiName, r'.data.member? name = r.data.member? name)
    (hm : r'.modified = r.modified) : Edited (type schema key) f r (r'.mark f.property) where
  id := congrArg (·.bind Json.text?) (hd "Id" hid.symm)
  marked := congrArg (·.mark f.property) hm
  kept name hne := congrArg (·.getD .null) (hd name hne)

theorem edited_put (hid : f.apiName ≠ "Id") (v : Json) (r : Row) :
    Edited (type schema key) f r ((r.put f.apiName v).mark f.property) := by
  obtain ⟨data, modified⟩ := r
  apply edited_of_member hid
  · intro name hne
    cases data with
    | obj ms => exact Members.get?_insert_of_ne hne v ms
    | null | bool | int | float | str | arr => rfl
  · cases data <;> rfl

theorem edited_remove (hid : f.apiName ≠ "Id") (r : Row) :
    Edited (type schema key) f r ((r.remove f.apiName).mark f.property) := by
  obtain ⟨data, modified⟩ := r
  apply edited_of_member hid
  · intro name hne
    cases data with
    | obj ms => exact Members.get?_erase_of_ne hne ms
    | null | bool | int | float | str | arr => rfl
  · cases data <;> rfl

end Record.Row

end OrgClient
