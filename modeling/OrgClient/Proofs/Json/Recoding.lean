import OrgClient.Json.Decode
import OrgClient.Proofs.Json.Members

namespace OrgClient.Json

set_option autoImplicit true

namespace Document

theorem memberValues?_memberDocuments (h : ∀ m ∈ ms, value? m.2.document = some m.2) :
    memberValues? (memberDocuments ms) = some ms := by
  induction ms with
  | nil => rfl
  | cons m ms ih =>
    obtain ⟨hm, hms⟩ := List.forall_mem_cons.mp h
    rw [memberDocuments, memberValues?, hm, ih hms]
    rfl

theorem value?_object (h : ∀ p ∈ ps, value? p.2.document = some p.2) :
    value? (Json.object ps).document = some (Json.object ps) := by
  have hm : memberValues? (memberDocuments (Members.ofList ps)) = some (Members.ofList ps) :=
    memberValues?_memberDocuments fun m hm => h m (Members.mem_of_mem_ofList hm)
  rw [Json.object, document, value?, hm, Option.map_some, Json.object,
    (Members.ordered_ofList ps).ofList_eq]

mutual

/-- The value of a document is the value of its own document. -/
theorem value?_document {d : Document} {j : Json} (h : value? d = some j) :
    value? j.document = some j := by
  match d with
  | .null | .bool _ | .int _ | .float _ | .str _ =>
    cases h
    rfl
  | .arr items =>
    obtain ⟨js, hjs, rfl⟩ := Option.map_eq_some_iff.mp h
    rw [document, value?, values?_documents hjs]
    rfl
  | .obj members =>
    obtain ⟨ps, hps, rfl⟩ := Option.map_eq_some_iff.mp h
    exact value?_object (forall_memberValues? hps)
  | .unreadable => cases h

theorem values?_documents {ds : List Document} {js : List Json} (h : values? ds = some js) :
    values? (documents js) = some js := by
  match ds with
  | [] =>
    cases h
    rfl
  | d :: ds =>
    obtain ⟨j, hj, h⟩ := Option.bind_eq_some_iff.mp h
    obtain ⟨js, hjs, h⟩ := Option.bind_eq_some_iff.mp h
    cases h
    rw [documents, values?, value?_document hj, values?_documents hjs]
    rfl

theorem forall_memberValues? {ms : List (Option String × Document)} {ps : List (String × Json)}
    (h : memberValues? ms = some ps) : ∀ p ∈ ps, value? p.2.document = some p.2 := by
  match ms with
  | [] =>
    cases h
    exact fun _ hp => nomatch hp
  | (key, d) :: ms =>
    obtain ⟨k, -, h⟩ := Option.bind_eq_some_iff.mp h
    obtain ⟨j, hj, h⟩ := Option.bind_eq_some_iff.mp h
    obtain ⟨ps, hps, h⟩ := Option.bind_eq_some_iff.mp h
    cases h
    exact List.forall_mem_cons.mpr ⟨value?_document hj, forall_memberValues? hps⟩

end

/-- Only null has the value null. -/
theorem eq_null_of_value? {d : Document} (h : value? d = some .null) : d = .null := by
  cases d with
  | null => rfl
  | arr items => obtain ⟨js, -, hj⟩ := Option.map_eq_some_iff.mp h; cases hj
  | obj members => obtain ⟨ps, -, hp⟩ := Option.map_eq_some_iff.mp h; cases hp
  | _ => cases h

end Document

/-- What is written of any value that was read from a document is read as that value. -/
def Survives (d : Decoder α) (e : α → Json) : Prop :=
  ∀ doc a, d doc = some a → decodeValue? d (e a) = some a

theorem Survives.of_total (h : ∀ a, decodeValue? d (e a) = some a) : Survives d e :=
  fun _ a _ => h a

theorem survives_value : Survives .value id :=
  fun _ _ h => Document.value?_document h

theorem survives_int64 : Survives .int64 .int := by
  intro doc n h
  unfold Decoder.int64 at h
  split at h
  · split at h
    · rename_i hn
      cases h
      exact if_pos hn
    · cases h
  · cases h

theorem survives_uint64 : Survives .uint64 fun n => .int n := by
  intro doc n h
  unfold Decoder.uint64 at h
  split at h
  · split at h
    · rename_i hn
      cases h
      exact if_pos hn
    · cases h
  · cases h

theorem decodeValue?_arr (h : ∀ a ∈ as, decodeValue? d (e a) = some a) :
    decodeValue? (.list d) (.arr (as.map e)) = some as := by
  change (documents (as.map e)).mapM d = some as
  induction as with
  | nil => rfl
  | cons a as ih =>
    obtain ⟨ha, has⟩ := List.forall_mem_cons.mp h
    have hd : d (e a).document = some a := ha
    rw [List.map_cons, documents, List.mapM_cons, hd, ih has]
    rfl

theorem exists_of_mapM {d : β → Option α} {items : List β} (h : items.mapM d = some as) :
    ∀ a ∈ as, ∃ item, d item = some a := by
  induction items generalizing as with
  | nil =>
    cases h
    exact fun _ ha => nomatch ha
  | cons item items ih =>
    rw [List.mapM_cons] at h
    obtain ⟨a, ha, h⟩ := Option.bind_eq_some_iff.mp h
    obtain ⟨as, has, h⟩ := Option.bind_eq_some_iff.mp h
    cases h
    exact List.forall_mem_cons.mpr ⟨⟨item, ha⟩, ih has⟩

theorem mapM_memberDocuments {d : Decoder α} {e : α → Json} {ms : List (String × α)}
    (h : ∀ m ∈ ms, d (e m.2).document = some m.2) :
    ((memberDocuments (ms.map fun m => (m.1, e m.2))).mapM fun m : Option String × Document => do
      return (← m.1, ← d m.2)) = some ms := by
  induction ms with
  | nil => rfl
  | cons m ms ih =>
    obtain ⟨hm, hms⟩ := List.forall_mem_cons.mp h
    rw [List.map_cons, memberDocuments, List.mapM_cons, ih hms]
    dsimp only
    rw [hm]
    rfl

theorem Survives.list (h : Survives d e) : Survives (.list d) fun as => .arr (as.map e) := by
  intro doc as hd
  refine decodeValue?_arr fun a ha => ?_
  unfold Decoder.list at hd
  split at hd
  · obtain ⟨item, hi⟩ := exists_of_mapM hd a ha
    exact h item a hi
  · cases hd

theorem survives_values : Survives (.list .value) .arr := by
  have h := survives_value.list
  simpa only [id_eq, List.map_id_fun] using h

theorem option_of_ne_null (d : Decoder α) (h : doc ≠ .null) :
    Decoder.option d doc = (d doc).map some := by
  unfold Decoder.option
  split
  · exact absurd rfl h
  · rfl

theorem document_ne_null (h : j ≠ .null) : document j ≠ .null := by
  cases j with
  | null => exact absurd rfl h
  | _ => exact nofun

theorem decodeValue?_option (h : decodeValue? d j = some a) (hj : j ≠ .null) :
    decodeValue? (.option d) j = some (some a) := by
  have hd : d j.document = some a := h
  rw [decodeValue?, option_of_ne_null d (document_ne_null hj), hd, Option.map_some]

/-- A value that may be null is none if it is. -/
theorem survives_nullable_value : Survives (.option .value) (·.getD .null) := by
  intro doc o h
  by_cases hdoc : doc = .null
  · subst hdoc
    cases h
    rfl
  · rw [option_of_ne_null _ hdoc] at h
    obtain ⟨j, hj, rfl⟩ := Option.map_eq_some_iff.mp h
    refine decodeValue?_option (survives_value doc j hj) ?_
    rintro rfl
    exact hdoc (Document.eq_null_of_value? hj)

/-- The members of an object are read in the order of their keys. -/
theorem Survives.members {d : Decoder α} {e : α → Json} (h : Survives d e) :
    Survives (.members d) fun ms : Members α => .obj (ms.map fun m => (m.1, e m.2)) := by
  intro doc ms hd
  unfold Decoder.members at hd
  split at hd
  · obtain ⟨ps, hps, rfl⟩ := Option.map_eq_some_iff.mp hd
    have hm : ∀ m ∈ Members.ofList ps, d (e m.2).document = some m.2 := by
      intro m hm
      obtain ⟨item, hi⟩ := exists_of_mapM hps m (Members.mem_of_mem_ofList hm)
      obtain ⟨key, -, hi⟩ := Option.bind_eq_some_iff.mp hi
      obtain ⟨a, ha, hi⟩ := Option.bind_eq_some_iff.mp hi
      cases hi
      exact h item.2 a ha
    have hr := mapM_memberDocuments hm
    rw [decodeValue?, document, Decoder.members, hr, Option.map_some,
      (Members.ordered_ofList ps).ofList_eq]
  · cases hd

@[simp]
theorem decodeValue?_bool (b : Bool) : decodeValue? .bool (.bool b) = some b :=
  rfl

@[simp]
theorem decodeValue?_string (s : String) : decodeValue? .string (.str s) = some s :=
  rfl

@[simp]
theorem decodeValue?_option_null (d : Decoder α) : decodeValue? (.option d) .null = some none :=
  rfl

@[simp]
theorem decodeValue?_option_bool (b : Bool) :
    decodeValue? (.option .bool) (.bool b) = some (some b) :=
  rfl

@[simp]
theorem decodeValue?_option_string (s : String) :
    decodeValue? (.option .string) (.str s) = some (some s) :=
  rfl

@[simp]
theorem decodeValue?_strings (ss : List String) :
    decodeValue? (.list .string) (strings ss) = some ss :=
  decodeValue?_arr fun _ _ => rfl

@[simp]
theorem decodeValue?_ofString? (s : Option String) :
    decodeValue? (.option .string) (ofString? s) = some s := by
  cases s <;> rfl

namespace Fields

theorem ofMembers_documents (hd : (ms.map Prod.fst).Nodup) (hm : ∀ m ∈ ms, m.1 ∈ names) :
    ofMembers names (memberDocuments ms) = some (ms.map fun m => (m.1, m.2.document)) := by
  induction ms with
  | nil => rfl
  | cons m ms ih =>
    obtain ⟨hk, hd⟩ := List.nodup_cons.mp hd
    obtain ⟨hm, hms⟩ := List.forall_mem_cons.mp hm
    have hl : (ms.map fun m => (m.1, m.2.document)).lookup m.1 = none := by
      rw [List.lookup_eq_none_iff]
      intro p hp
      obtain ⟨q, hq, rfl⟩ := List.mem_map.mp hp
      exact bne_iff_ne.mpr fun he => hk (List.mem_map.mpr ⟨q, hq, he.symm⟩)
    rw [memberDocuments, ofMembers]
    simp [ih hd hms, hl, hm]

theorem lookup_documents (ms : List (String × Json)) (name : String) :
    (ms.map fun m => (m.1, m.2.document)).lookup name = (ms.lookup name).map document := by
  induction ms with
  | nil => rfl
  | cons m ms ih =>
    rw [List.map_cons, List.lookup_cons, List.lookup_cons, ih]
    cases name == m.1 <;> rfl

/-- The fields of an object that was written with some members. -/
structure Of (f : Fields) (ps : List (String × Json)) : Prop where
  named : f.positional = false
  lookup : ∀ name, f.entries.lookup name = (ps.lookup name).map document

/-- An object of known members is read through what was written under their names. -/
theorem bind_object {k : Fields → Option α} (hn : names.Nodup)
    (hp : (ps.map Prod.fst).Sublist names) (h : ∀ f : Fields, f.Of ps → k f = some a) :
    (read? names (Json.object ps).document >>= k) = some a := by
  have hd : ((Members.ofList ps).map Prod.fst).Nodup :=
    List.pairwise_map.mpr ((Members.ordered_ofList ps).imp fun hlt => ne_of_lt hlt)
  have hm : ∀ m ∈ Members.ofList ps, m.1 ∈ names := fun m hm =>
    hp.subset (List.mem_map_of_mem (Members.mem_of_mem_ofList hm))
  have hr : read? names (Json.object ps).document =
      some ⟨false, (Members.ofList ps).map fun m => (m.1, m.2.document)⟩ := by
    rw [Json.object, document, read?, ofMembers_documents hd hm, Option.map_some]
  rw [hr, Option.bind_eq_bind, Option.bind_some]
  refine h _ ⟨rfl, fun name => ?_⟩
  rw [lookup_documents]
  exact congrArg (Option.map document) (Members.get?_ofList (hn.sublist hp) name)

namespace Of

theorem required_eq {f : Fields} (h : f.Of ps) (name : String) (d : Decoder α) :
    f.required name d = (ps.lookup name).bind (decodeValue? d) := by
  rw [required, h.lookup]
  cases ps.lookup name <;> rfl

theorem defaulted_eq {f : Fields} (h : f.Of ps) (name : String) (d : Decoder α) (absent : α) :
    f.defaulted name d absent = (ps.lookup name).elim (some absent) (decodeValue? d) := by
  rw [defaulted, h.lookup]
  cases ps.lookup name <;> rfl

theorem nullable_eq {f : Fields} (h : f.Of ps) (name : String) (d : Decoder α) :
    f.nullable name d = (ps.lookup name).elim (some none) (decodeValue? (.option d)) := by
  rw [nullable, h.lookup, h.named]
  cases ps.lookup name <;> rfl

end Of

end Fields

namespace Survives

variable {f : Fields}

theorem of_required (hd : Survives d e) (h : f.required name d = some a) :
    decodeValue? d (e a) = some a := by
  obtain ⟨doc, -, h⟩ := Option.bind_eq_some_iff.mp h
  exact hd doc a h

theorem of_defaulted (hd : Survives d e) (ha : decodeValue? d (e absent) = some absent)
    (h : f.defaulted name d absent = some a) : decodeValue? d (e a) = some a := by
  unfold Fields.defaulted at h
  split at h
  · cases h
    exact ha
  · exact hd _ a h

theorem of_nullable (hd : Survives (.option d) e)
    (hn : decodeValue? (.option d) (e none) = some none)
    (h : f.nullable name d = some a) : decodeValue? (.option d) (e a) = some a := by
  unfold Fields.nullable at h
  split at h
  · split at h
    · cases h
    · cases h
      exact hn
  · exact hd _ a h

end Survives

end OrgClient.Json
