import OrgClient.Proofs.Record.Upsert

namespace OrgClient

open Record
set_option autoImplicit true

namespace Record

/-- Why a batch is refused: it is too large, or else its first record that is refused is. -/
inductive BatchFault (refused : Nat → α → Error → Prop) (rs : List α) : Error → Prop
  | size (h : maxBatchSize < rs.length) :
    BatchFault refused rs (.of (.batchTooLarge rs.length maxBatchSize))
  | record {i : Nat} (hl : rs.length ≤ maxBatchSize) (hr : rs[i]? = some r) (he : refused i r e)
    (first : ∀ j < i, ∀ r', rs[j]? = some r' → ∀ e', ¬ refused j r' e') : BatchFault refused rs e

section Batch

variable {f : Nat → α → Except Error β} {rs : List α} {g : List β → γ}

theorem ensureBatchSize_of_le (h : n ≤ maxBatchSize) : ensureBatchSize n = .ok () :=
  if_neg (Nat.not_lt.mpr h)

theorem ensureBatchSize_of_lt (h : maxBatchSize < n) :
    ensureBatchSize n = .error (.of (.batchTooLarge n maxBatchSize)) :=
  if_pos h

/-- A request is made of a batch that is not too large, from what is made of its records. -/
theorem batch_eq_ok_iff :
    (do ensureBatchSize rs.length; return g (← mapIndexed f 0 rs)) = .ok q ↔
      rs.length ≤ maxBatchSize ∧ ∃ ys, mapIndexed f 0 rs = .ok ys ∧ q = g ys := by
  rcases Nat.lt_or_ge maxBatchSize rs.length with hl | hl
  · rw [ensureBatchSize_of_lt hl]
    exact ⟨nofun, fun h => absurd h.1 (Nat.not_le.mpr hl)⟩
  · rw [ensureBatchSize_of_le hl, ok_bind, bind_eq_ok_iff]
    constructor
    · rintro ⟨ys, hys, h⟩
      cases h
      exact ⟨hl, ys, hys, rfl⟩
    · rintro ⟨-, ys, hys, rfl⟩
      exact ⟨ys, hys, rfl⟩

theorem batch_ok_iff {ready : α → Prop} (hf : ∀ i r, (∃ y, f i r = .ok y) ↔ ready r) :
    (∃ q, (do ensureBatchSize rs.length; return g (← mapIndexed f 0 rs)) = .ok q) ↔
      rs.length ≤ maxBatchSize ∧ ∀ r ∈ rs, ready r := by
  simp only [batch_eq_ok_iff]
  constructor
  · rintro ⟨q, hl, ys, hys, -⟩
    refine ⟨hl, fun r hr => ?_⟩
    obtain ⟨i, hi⟩ := List.mem_iff_getElem?.mp hr
    obtain ⟨y, -, hy⟩ := getElem?_of_mapIndexed hys hi
    exact (hf _ r).mp ⟨y, hy⟩
  · rintro ⟨hl, hr⟩
    obtain ⟨ys, hys⟩ : ∃ ys, mapIndexed f 0 rs = .ok ys :=
      mapIndexed_ok fun i r hi => (hf _ r).mpr (hr r (List.mem_of_getElem? hi))
    exact ⟨g ys, hl, ys, hys, rfl⟩

theorem batch_eq_error_iff {refused : Nat → α → Error → Prop}
    (hf : ∀ i r e, f i r = .error e ↔ refused i r e) :
    (do ensureBatchSize rs.length; return g (← mapIndexed f 0 rs)) = .error e ↔
      BatchFault refused rs e := by
  rcases Nat.lt_or_ge maxBatchSize rs.length with hl | hl
  · rw [ensureBatchSize_of_lt hl]
    constructor
    · intro h
      cases h
      exact .size hl
    · intro h
      cases h with
      | size _ => rfl
      | record hl' => exact absurd hl' (Nat.not_le.mpr hl)
  · have hm : (do let ys ← mapIndexed f 0 rs; return g ys) = .error e ↔
        mapIndexed f 0 rs = .error e := by
      cases mapIndexed f 0 rs with
      | error e' => constructor <;> intro h <;> cases h <;> rfl
      | ok ys => exact ⟨nofun, nofun⟩
    rw [ensureBatchSize_of_le hl, ok_bind, hm, mapIndexed_eq_error_iff]
    simp only [Nat.zero_add]
    constructor
    · rintro ⟨i, r, hi, he, hok⟩
      refine .record hl hi ((hf i r e).mp he) fun j hj r' hr' e' he' => ?_
      obtain ⟨y, hy⟩ := hok j hj r' hr'
      cases hy.symm.trans ((hf j r' e').mpr he')
    · intro h
      cases h with
      | size hl' => exact absurd hl' (Nat.not_lt.mpr hl)
      | record _ hi he first =>
        refine ⟨_, _, hi, (hf _ _ e).mpr he, fun j hj r' hr' => ?_⟩
        cases hy : f j r' with
        | ok y => exact ⟨y, rfl⟩
        | error e' => exact absurd ((hf j r' e').mp hy) (first j hj r' hr' e')

end Batch

end Record

namespace RecordType

/-- A record has an id, which is made of 15 or 18 ASCII letters and digits. -/
def HasId (T : RecordType κ α) (r : α) (id : String) : Prop :=
  T.id? r = some id ∧ (id.length = 15 ∨ id.length = 18) ∧ ∀ c ∈ id.toList, Text.isAsciiAlnum c

/-- Why a record cannot be named at its place in a batch. -/
inductive Unnamed (T : RecordType κ α) (i : Nat) (r : α) : Error → Prop
  | missing (h : T.id? r = none) : Unnamed T i r (.of (.missingRecordId i))
  | invalid {id : String} (h : T.id? r = some id) (hid : ¬ T.HasId r id) :
    Unnamed T i r (.of (.invalidRecordId i id))

/-- Why a record cannot be updated at its place in a batch. -/
inductive Unsendable (T : RecordType κ α) (mode : WriteMode) (i : Nat) (r : α) : Error → Prop
  | unnamed (h : T.Unnamed i r e) : Unsendable T mode i r e
  | unserialized {id : String} (hid : T.HasId r id) (hs : ¬ IsObject T r)
    (he : T.body mode r = .error ⟨.serialization text, caused⟩) :
    Unsendable T mode i r ⟨.serialization text, caused⟩

/-- What an update sends of a record: its body, in which `Id` is the id of the record. -/
structure NamedBody (T : RecordType κ α) (mode : WriteMode) (r : α) (body : Members Json) :
    Prop where
  ordered : body.Ordered
  id : ∃ id, T.HasId r id ∧ Members.get? body "Id" = some (.str id)
  own : ∃ b, T.body mode r = .ok b ∧ ∀ name ≠ "Id", Members.get? body name = Members.get? b name

variable {T : RecordType κ α} {r : α} {rs : List α} {mode : WriteMode} {i : Nat}
  {id name : String} {body : Members Json}

theorem isRecordId_iff (id : String) :
    Text.isRecordId id ↔
      (id.length = 15 ∨ id.length = 18) ∧ ∀ c ∈ id.toList, Text.isAsciiAlnum c := by
  simp [Text.isRecordId]

theorem hasId_iff : T.HasId r id ↔ T.id? r = some id ∧ Text.isRecordId id := by
  rw [HasId, isRecordId_iff]

theorem recordId_eq_ok_iff : T.recordId i r = .ok id ↔ T.HasId r id := by
  rw [recordId, hasId_iff]
  cases T.id? r with
  | none => exact ⟨nofun, nofun⟩
  | some id' =>
    by_cases hid : Text.isRecordId id'
    · simp only [if_pos hid, Except.ok.injEq, Option.some.injEq]
      exact ⟨fun h => ⟨h, h ▸ hid⟩, And.left⟩
    · simp only [if_neg hid, Option.some.injEq]
      exact ⟨nofun, fun h => absurd (h.1 ▸ h.2) hid⟩

theorem recordId_eq_error_iff : T.recordId i r = .error e ↔ T.Unnamed i r e := by
  constructor
  · intro h
    rw [recordId] at h
    split at h
    · rename_i hn
      cases h
      exact .missing hn
    · rename_i id hid
      split at h
      · cases h
      · rename_i hv
        cases h
        exact .invalid hid fun hs => hv (hasId_iff.mp hs).2
  · intro h
    cases h with
    | missing hn => rw [recordId, hn]
    | invalid hid hv =>
      have hno := fun hs => hv (hasId_iff.mpr ⟨hid, hs⟩)
      rw [recordId, hid]
      exact if_neg hno

theorem isObject_iff (mode : WriteMode) : IsObject T r ↔ ∃ b, T.body mode r = .ok b := by
  constructor
  · rintro ⟨source, hs⟩
    exact ⟨_, body_of_object hs mode⟩
  · rintro ⟨b, hb⟩
    exact .of_body hb

theorem updateBody_eq_ok_iff :
    T.updateBody mode i r = .ok body ↔
      ∃ id b, T.HasId r id ∧ T.body mode r = .ok b ∧ body = Members.insert "Id" (.str id) b := by
  rw [updateBody]
  simp only [bind_eq_ok_iff, recordId_eq_ok_iff]
  constructor
  · rintro ⟨id, hid, b, hb, h⟩
    cases h
    exact ⟨id, b, hid, hb, rfl⟩
  · rintro ⟨id, b, hid, hb, rfl⟩
    exact ⟨id, hid, b, hb, rfl⟩

theorem updateBody_ok_iff :
    (∃ body, T.updateBody mode i r = .ok body) ↔ (∃ id, T.HasId r id) ∧ IsObject T r := by
  simp only [updateBody_eq_ok_iff, isObject_iff mode]
  constructor
  · rintro ⟨_, id, b, hid, hb, -⟩
    exact ⟨⟨id, hid⟩, b, hb⟩
  · rintro ⟨⟨id, hid⟩, b, hb⟩
    exact ⟨_, id, b, hid, hb, rfl⟩

theorem updateBody_eq_error_iff : T.updateBody mode i r = .error e ↔ T.Unsendable mode i r e := by
  rw [updateBody]
  simp only [bind_eq_error_iff, recordId_eq_error_iff, recordId_eq_ok_iff]
  constructor
  · rintro (h | ⟨id, hid, h | ⟨b, -, h⟩⟩)
    · exact .unnamed h
    · have hs : ¬ IsObject T r := by
        rw [isObject_iff mode, h]
        exact nofun
      obtain ⟨text, caused, rfl⟩ := serialization_of_body_error h
      exact .unserialized hid hs h
    · cases h
  · intro h
    cases h with
    | unnamed h => exact .inl h
    | unserialized hid _ he => exact .inr ⟨_, hid, .inl he⟩

theorem NamedBody.of_updateBody (h : T.updateBody mode i r = .ok body) :
    T.NamedBody mode r body := by
  obtain ⟨id, b, hid, hb, rfl⟩ := updateBody_eq_ok_iff.mp h
  exact ⟨(ordered_body hb).insert _ _, ⟨id, hid, Members.get?_insert_self ..⟩,
    b, hb, fun name hname => Members.get?_insert_of_ne hname _ b⟩

theorem forall₂_hasId (h : mapIndexed T.recordId i rs = .ok ids) :
    List.Forall₂ T.HasId rs ids :=
  (forall₂_of_mapIndexed h).imp fun _ _ ⟨_, hid⟩ => recordId_eq_ok_iff.mp hid

theorem comma_not_mem (h : List.Forall₂ T.HasId rs ids) : ∀ id ∈ ids, ',' ∉ id.toList := by
  induction h with
  | nil => exact fun _ hid => absurd hid List.not_mem_nil
  | cons hid _ ih =>
    refine List.forall_mem_cons.mpr ⟨fun hc => ?_, ih⟩
    exact absurd (hid.2.2 _ hc) (by decide)

/-- Ids have no commas, so that they are read back from the text of a delete. -/
theorem splitOn_ids (h : List.Forall₂ T.HasId rs ids) (hne : rs ≠ []) :
    ((",".intercalate ids).toList.splitOn ',').map String.ofList = ids := by
  have hc : ∀ cs ∈ ids.map String.toList, ',' ∉ cs := List.forall_mem_map.mpr (comma_not_mem h)
  have hids : ids.map String.toList ≠ [] := by
    intro hn
    rw [List.map_eq_nil_iff.mp hn] at h
    exact hne (List.forall₂_nil_right_iff.mp h)
  have hs : ",".toList = [','] := rfl
  rw [String.toList_intercalate, hs, List.splitOn_intercalate ',' hc hids, List.map_map]
  simp

/-- Updates and deletes name the records of a batch. -/
structure NamesRecords (T : RecordType κ α) (rs : List α) (o : UpdateOptions) : Prop where
  updates_iff : (∃ q, T.updateRequest rs o = .ok q) ↔
    rs.length ≤ maxBatchSize ∧ ∀ r ∈ rs, (∃ id, T.HasId r id) ∧ IsObject T r
  bodies : ∀ q, T.updateRequest rs o = .ok q →
    q.allOrNone = o.allOrNone ∧ List.Forall₂ (T.NamedBody o.mode) rs q.records
  update_error : ∀ e, T.updateRequest rs o = .error e ↔ BatchFault (T.Unsendable o.mode) rs e
  deletes_iff : (∃ text, T.deleteIds rs = .ok text) ↔
    rs.length ≤ maxBatchSize ∧ ∀ r ∈ rs, ∃ id, T.HasId r id
  ids : ∀ text, T.deleteIds rs = .ok text → rs ≠ [] →
    List.Forall₂ T.HasId rs ((text.toList.splitOn ',').map String.ofList)
  delete_error : ∀ e, T.deleteIds rs = .error e ↔ BatchFault T.Unnamed rs e

/-- Updates and deletes can be made exactly of batches that are not too large and of which all
records have ids, and have bodies where they are updated. They name the records of the batch in
order; else the error tells of the size, or of the first record that prevents them. -/
theorem names_records (T : RecordType κ α) (rs : List α) (o : UpdateOptions) :
    T.NamesRecords rs o where
  updates_iff := batch_ok_iff fun _ _ => updateBody_ok_iff
  bodies q h := by
    obtain ⟨-, ys, hys, rfl⟩ := batch_eq_ok_iff.mp h
    exact ⟨rfl, (forall₂_of_mapIndexed hys).imp fun _ _ ⟨_, hb⟩ => .of_updateBody hb⟩
  update_error e := batch_eq_error_iff fun _ _ _ => updateBody_eq_error_iff
  deletes_iff := batch_ok_iff fun _ _ => exists_congr fun _ => recordId_eq_ok_iff
  ids text h hne := by
    obtain ⟨-, ids, hids, rfl⟩ := batch_eq_ok_iff.mp h
    have hall := forall₂_hasId hids
    rwa [splitOn_ids hall hne]
  delete_error e := batch_eq_error_iff fun _ _ _ => recordId_eq_error_iff

/-- An upserted body is an updated body with a value under a name. A value that is there stays, and
else it is the one of the record, which is not `null`. -/
structure AddsKey (T : RecordType κ α) (r : α) (name : String) (updated upserted : Members Json) :
    Prop where
  others : ∀ n ≠ name, Members.get? upserted n = Members.get? updated n
  kept : ∀ v, Members.get? updated name = some v → Members.get? upserted name = some v
  added : Members.get? updated name = none →
    ∃ v, T.found? r name = some v ∧ v.isNull = false ∧ Members.get? upserted name = some v

theorem AddsKey.of_has (h : Members.has body name) : T.AddsKey r name body body := by
  refine ⟨fun _ _ => rfl, fun _ hv => hv, fun hn => ?_⟩
  rw [Members.has, hn] at h
  cases h

theorem AddsKey.insert {v : Json} (hb : Members.has body name = false)
    (hv : T.found? r name = some v) (hn : v.isNull = false) :
    T.AddsKey r name body (Members.insert name v body) := by
  refine ⟨fun n hne => Members.get?_insert_of_ne hne v body, fun w hw => ?_, fun _ => ?_⟩
  · rw [Members.has, hw] at hb
    cases hb
  · exact ⟨v, hv, hn, Members.get?_insert_self name v body⟩

/-- The bodies of a record in an update and in an upsert are the same up to the field that
identifies the record. -/
theorem AddsKey.of_upsertBody (hu : T.updateBody mode i r = .ok updated)
    (hv : T.upsertBody mode name j r = .ok upserted) : T.AddsKey r name updated upserted := by
  obtain ⟨id, b, hid, hb, rfl⟩ := updateBody_eq_ok_iff.mp hu
  have hided : T.ided r b = Members.insert "Id" (.str id) b := by
    rw [ided, hid.1]
  rw [upsertBody_of_body hb, hided] at hv
  split at hv
  · rename_i hhas
    cases hv
    exact .of_has hhas
  · rename_i hhas
    split at hv
    · rename_i v hfilter
      obtain ⟨hfound, hn⟩ := Option.filter_eq_some_iff.mp hfilter
      cases hv
      exact .insert (Bool.eq_false_iff.mpr hhas) hfound (by simpa using hn)
    · split at hv
      · rename_i hname
        -- The id of the record is in the body of its update.
        subst hname
        rw [Members.has, Members.get?_insert_self] at hhas
        exact absurd rfl hhas
      · cases hv

/-- An upsert of records that can be updated has the bodies of the update, each with the field that
identifies its record. -/
theorem upsert_adds_key {o : UpdateOptions} (hu : T.updateRequest rs o = .ok u)
    (hv : T.upsertRequest rs name o = .ok v) :
    v.allOrNone = u.allOrNone ∧ u.records.length = rs.length ∧ v.records.length = rs.length ∧
      ∀ (i : Nat) r, rs[i]? = some r → ∃ updated upserted, u.records[i]? = some updated ∧
        v.records[i]? = some upserted ∧ T.AddsKey r name updated upserted := by
  obtain ⟨-, us, hus, rfl⟩ := batch_eq_ok_iff.mp hu
  obtain ⟨-, vs, hvs, rfl⟩ := batch_eq_ok_iff.mp hv
  refine ⟨rfl, (forall₂_of_mapIndexed hus).length_eq.symm,
    (forall₂_of_mapIndexed hvs).length_eq.symm, fun i r hr => ?_⟩
  obtain ⟨updated, hi, hupdated⟩ := getElem?_of_mapIndexed hus hr
  obtain ⟨upserted, hi', hupserted⟩ := getElem?_of_mapIndexed hvs hr
  exact ⟨updated, upserted, hi, hi', .of_upsertBody hupdated hupserted⟩

/-- A numbered account that is in the org, and was not changed. -/
def storedAccount : Row :=
  ⟨.obj [("AccountNumber__c", .str "ACME-1"), ("Id", .str "001000000000001AAA")], .empty⟩

theorem storedAccount_adds_number :
    ∃ u v, numberedType.updateRequest [storedAccount] {} = .ok u ∧
      numberedType.upsertRequest [storedAccount] "AccountNumber__c" {} = .ok v ∧
      ∃ updated upserted, u.records[0]? = some updated ∧ v.records[0]? = some upserted ∧
        Members.get? updated "AccountNumber__c" = none ∧
        Members.get? upserted "AccountNumber__c" = some (.str "ACME-1") ∧
        Members.get? upserted "Id" = some (.str "001000000000001AAA") := by
  have hu : numberedType.updateRequest [storedAccount] {} = .ok _ := rfl
  have hv : numberedType.upsertRequest [storedAccount] "AccountNumber__c" {} = .ok _ := rfl
  obtain ⟨-, -, -, h⟩ := upsert_adds_key hu hv
  obtain ⟨updated, upserted, hi, hi', hkey⟩ := h 0 storedAccount rfl
  cases hi
  obtain ⟨w, hw, -, hadded⟩ := hkey.added rfl
  cases hw
  exact ⟨_, _, hu, hv, _, upserted, rfl, hi', rfl, hadded, hkey.others "Id" (by decide)⟩

end RecordType

end OrgClient
