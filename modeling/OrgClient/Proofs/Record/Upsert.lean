import OrgClient.Proofs.Record.Sent

namespace OrgClient

open Record
set_option autoImplicit true

namespace RecordType

/-- How the body of a record comes to have a name. -/
inductive Fills (T : RecordType κ α) (mode : WriteMode) (r : α) (name : String) : Prop
  | attributes (ha : name = "attributes")
  | field (hf : f ∈ T.table.fields) (he : f.apiName = name) (hs : T.Sends r f mode v)

/-- A record that an upsert can send: it has a value under the name of the field that identifies it,
or its body has that field in any case. -/
def Keyed (T : RecordType κ α) (mode : WriteMode) (r : α) (name : String) : Prop :=
  (T.value r name).isNull = false ∨ T.Fills mode r name

/-- A body has the field that identifies a record, with the value of the record. It may have `null`
instead if several fields are of that name, and the attributes if it is theirs. -/
def KeyIn (T : RecordType κ α) (r : α) (name : String) (body : Members Json) : Prop :=
  ∃ v, Members.get? body name = some v ∧ (name ≠ "attributes" →
    v = T.value r name ∨ v = .null ∧ 1 < (T.table.fields.map (·.apiName)).count name)

variable {T : RecordType κ α} {r : α} {mode : WriteMode} {name : String} {v : Json}
  {body : Members Json}

theorem has_body_iff (h : T.body mode r = .ok body) :
    Members.has body name ↔ T.Fills mode r name := by
  rw [Members.has, Option.isSome_iff_ne_none, get?_body h, ne_eq, Option.or_eq_none_iff,
    WriteMode.written_eq_none_iff]
  constructor
  · intro hb
    by_cases ha : name = "attributes"
    · exact .attributes ha
    · rw [if_neg ha, and_iff_left rfl, not_or] at hb
      obtain ⟨f, hf, hi, rfl⟩ := WriteMode.writers_pos_iff.mp (Nat.pos_of_ne_zero hb.1)
      obtain ⟨v, hv⟩ := Option.ne_none_iff_exists'.mp hb.2
      exact .field hf rfl (sends_of_sent hi hv)
  · rintro hfill ⟨hw, ha⟩
    cases hfill with
    | attributes hname => rw [if_pos hname] at ha; cases ha
    | field hf he hs =>
      subst he
      rcases hw with hw | hw
      · exact absurd (WriteMode.writers_pos_iff.mpr ⟨_, hf, hs.includes, rfl⟩) (by simp [hw])
      · rw [hs.sent] at hw
        cases hw

theorem value_of_body (h : T.body mode r = .ok body) (ha : name ≠ "attributes")
    (hv : Members.get? body name = some v) :
    v = T.value r name ∨ v = .null ∧ 1 < (T.table.fields.map (·.apiName)).count name := by
  rw [get?_body h, if_neg ha, Option.or_none] at hv
  rcases WriteMode.written_eq_some hv with hv | ⟨hv, hw⟩
  · exact .inl hv
  · exact .inr ⟨hv, hw.trans_le WriteMode.writers_le_count⟩

theorem wholeValue?_of_body (h : T.body mode r = .ok body) (name : String) :
    T.wholeValue? r name = .ok (T.found? r name) := by
  obtain ⟨source, hs, -⟩ := object_of_body h
  rw [wholeValue?, found?, hs]
  rfl

theorem found?_filter (T : RecordType κ α) (r : α) (name : String) :
    (T.found? r name).filter (fun v : Json => !v.isNull) =
      if (T.value r name).isNull then none else some (T.value r name) := by
  have hv : T.value r name = (T.found? r name).getD .null := rfl
  rw [hv]
  cases T.found? r name with
  | none => rfl
  | some w => cases w <;> rfl

/-- A body with the id of its record, if it has one. -/
def ided (T : RecordType κ α) (r : α) (body : Members Json) : Members Json :=
  match T.id? r with
  | some id => Members.insert "Id" (.str id) body
  | none => body

theorem get?_ided (hid : name ≠ "Id") (r : α) (body : Members Json) :
    Members.get? (T.ided r body) name = Members.get? body name := by
  rw [ided]
  split
  · exact Members.get?_insert_of_ne hid _ body
  · rfl

/-- What an upsert makes of a record with a body. The place of the record is seen in errors only. -/
theorem upsertBody_of_body (hb : T.body mode r = .ok body) (name : String) (i : Nat) :
    T.upsertBody mode name i r =
      if Members.has (T.ided r body) name then .ok (T.ided r body)
      else match (T.found? r name).filter fun v : Json => !v.isNull with
        | some v => .ok (Members.insert name v (T.ided r body))
        | none =>
          if name = "Id" then .ok (T.ided r body)
          else .error (.of (.missingExternalId i name)) := by
  rw [upsertBody, hb, ok_bind, wholeValue?_of_body hb]
  rfl

section Body

variable (h : T.serialize r = .ok (.obj source)) (hid : name ≠ "Id")

include hid

theorem upsertBody_eq (hb : T.body mode r = .ok body) (i : Nat) :
    T.upsertBody mode name i r =
      if Members.has body name then .ok (T.ided r body)
      else if (T.value r name).isNull then .error (.of (.missingExternalId i name))
      else .ok (Members.insert name (T.value r name) (T.ided r body)) := by
  rw [upsertBody_of_body hb, Members.has, get?_ided hid, ← Members.has, found?_filter, if_neg hid]
  cases (T.value r name).isNull <;> rfl

include h

theorem upsertBody_of_keyed (hk : T.Keyed mode r name) (i : Nat) :
    ∃ body, T.upsertBody mode name i r = .ok body ∧ T.KeyIn r name body := by
  have hb := body_of_object h mode
  rw [upsertBody_eq hid hb]
  split
  · rename_i hhas
    obtain ⟨v, hv⟩ := Option.isSome_iff_exists.mp hhas
    exact ⟨_, rfl, v, (get?_ided hid r _).trans hv, fun ha => value_of_body hb ha hv⟩
  · rename_i hhas
    have hv : (T.value r name).isNull = false :=
      hk.resolve_right fun hfill => hhas ((has_body_iff hb).mpr hfill)
    rw [hv]
    exact ⟨_, rfl, _, Members.get?_insert_self name _ _, fun _ => .inl rfl⟩

theorem upsertBody_of_not_keyed (hk : ¬ T.Keyed mode r name) (i : Nat) :
    T.upsertBody mode name i r = .error (.of (.missingExternalId i name)) := by
  have hb := body_of_object h mode
  obtain ⟨hv, hfill⟩ := not_or.mp hk
  rw [upsertBody_eq hid hb, if_neg fun hhas => hfill ((has_body_iff hb).mp hhas),
    if_pos (by simpa using hv)]

theorem keyed_of_upsertBody (hb : T.upsertBody mode name i r = .ok body) :
    T.Keyed mode r name := by
  by_contra hk
  rw [upsertBody_of_not_keyed h hid hk i] at hb
  cases hb

end Body

theorem upsertRequest_eq {rs : List α} (hl : rs.length ≤ maxBatchSize) (name : String)
    (o : UpdateOptions) :
    T.upsertRequest rs name o =
      (mapIndexed (T.upsertBody o.mode name) 0 rs).map fun bodies => ⟨o.allOrNone, bodies⟩ := by
  have hsize : ensureBatchSize rs.length = .ok () := if_neg (Nat.not_lt.mpr hl)
  rw [upsertRequest, hsize, ok_bind]
  cases mapIndexed (T.upsertBody o.mode name) 0 rs <;> rfl

section Request

variable {rs : List α} (hl : rs.length ≤ maxBatchSize)
  (hs : ∀ r ∈ rs, ∃ source, T.serialize r = .ok (.obj source)) (hid : name ≠ "Id")
  {o : UpdateOptions}

include hl hs hid

theorem bodies_of_upsertRequest (hq : T.upsertRequest rs name o = .ok q) {i : Nat}
    (hr : rs[i]? = some r) :
    T.Keyed o.mode r name ∧ ∃ body, q.records[i]? = some body ∧ T.KeyIn r name body := by
  rw [upsertRequest_eq hl] at hq
  obtain ⟨bodies, hb, rfl⟩ := map_eq_ok_iff.mp hq
  obtain ⟨source, hsource⟩ := hs r (List.mem_of_getElem? hr)
  obtain ⟨body, hi, hbody⟩ := getElem?_of_mapIndexed hb hr
  have hk := keyed_of_upsertBody hsource hid hbody
  obtain ⟨body', hbody', hkey⟩ := upsertBody_of_keyed hsource hid hk (0 + i)
  cases hbody.symm.trans hbody'
  exact ⟨hk, body, hi, hkey⟩

theorem first_of_upsertRequest_error (he : T.upsertRequest rs name o = .error e) :
    ∃ (i : Nat) (r : α), rs[i]? = some r ∧ ¬ T.Keyed o.mode r name ∧
      (∀ j < i, ∀ r, rs[j]? = some r → T.Keyed o.mode r name) ∧
        e = .of (.missingExternalId i name) := by
  rw [upsertRequest_eq hl, map_eq_error_iff] at he
  obtain ⟨i, r, hr, hfail, hok⟩ := first_of_mapIndexed_error he
  obtain ⟨source, hsource⟩ := hs r (List.mem_of_getElem? hr)
  have hk : ¬ T.Keyed o.mode r name := by
    intro hk
    obtain ⟨body, hbody, -⟩ := upsertBody_of_keyed hsource hid hk (0 + i)
    cases hfail.symm.trans hbody
  refine ⟨i, r, hr, hk, fun j hj r' hr' => ?_, ?_⟩
  · obtain ⟨source', hsource'⟩ := hs r' (List.mem_of_getElem? hr')
    obtain ⟨body, hbody⟩ := hok j hj r' hr'
    exact keyed_of_upsertBody hsource' hid hbody
  · have hmissing := upsertBody_of_not_keyed hsource hid hk (0 + i)
    rw [hfail, Nat.zero_add] at hmissing
    exact Except.error.inj hmissing

/-- An upsert can be built exactly if all its records are keyed, and then each body has the field
that identifies its record. Else the first record that is not keyed is named. -/
theorem upsert_keyed_iff (o : UpdateOptions) :
    ((∃ q, T.upsertRequest rs name o = .ok q) ↔ ∀ r ∈ rs, T.Keyed o.mode r name) ∧
      (∀ q, T.upsertRequest rs name o = .ok q → ∀ (i : Nat) r, rs[i]? = some r →
        ∃ body, q.records[i]? = some body ∧ T.KeyIn r name body) ∧
      ((∃ r ∈ rs, ¬ T.Keyed o.mode r name) → ∃ (i : Nat) (r : α), rs[i]? = some r ∧
        ¬ T.Keyed o.mode r name ∧ (∀ j < i, ∀ r, rs[j]? = some r → T.Keyed o.mode r name) ∧
          T.upsertRequest rs name o = .error (.of (.missingExternalId i name))) := by
  have hiff : (∃ q, T.upsertRequest rs name o = .ok q) ↔ ∀ r ∈ rs, T.Keyed o.mode r name := by
    constructor
    · rintro ⟨q, hq⟩ r hr
      obtain ⟨i, hi⟩ := List.mem_iff_getElem?.mp hr
      exact (bodies_of_upsertRequest hl hs hid hq hi).1
    · intro hk
      cases hq : T.upsertRequest rs name o with
      | ok q => exact ⟨q, rfl⟩
      | error e =>
        obtain ⟨i, r, hr, hno, -⟩ := first_of_upsertRequest_error hl hs hid hq
        exact absurd (hk r (List.mem_of_getElem? hr)) hno
  refine ⟨hiff, fun q hq i r hr => (bodies_of_upsertRequest hl hs hid hq hr).2, ?_⟩
  rintro ⟨r, hr, hno⟩
  cases hq : T.upsertRequest rs name o with
  | ok q => exact absurd (hiff.mp ⟨q, hq⟩ r hr) hno
  | error e =>
    obtain ⟨i, r', hi, hk, hbefore, rfl⟩ := first_of_upsertRequest_error hl hs hid hq
    exact ⟨i, r', hi, hk, hbefore, rfl⟩

end Request

def numberedType : RecordType Nat Row :=
  Row.type (Schema.ofList [⟨"Account", [⟨"account_number", "AccountNumber__c", .string, false, true,
    true, true, none⟩]⟩]) 0

def numberedAccount : Row :=
  ⟨.obj [("AccountNumber__c", .str "ACME-1")], .empty⟩

theorem numberedAccount_keyed :
    [numberedAccount].length ≤ maxBatchSize ∧
      (∀ r ∈ [numberedAccount], ∃ source, numberedType.serialize r = .ok (.obj source)) ∧
      "AccountNumber__c" ≠ "Id" ∧
      ∃ q body, numberedType.upsertRequest [numberedAccount] "AccountNumber__c" {} = .ok q ∧
        q.records[0]? = some body ∧
        Members.get? body "AccountNumber__c" = some (.str "ACME-1") := by
  have hl : [numberedAccount].length ≤ maxBatchSize := by decide
  have hs : ∀ r ∈ [numberedAccount], ∃ source, numberedType.serialize r = .ok (.obj source) := by
    intro r hr
    cases List.mem_singleton.mp hr
    exact ⟨_, rfl⟩
  have hid : "AccountNumber__c" ≠ "Id" := by decide
  refine ⟨hl, hs, hid, ?_⟩
  obtain ⟨hok, hbodies, -⟩ := upsert_keyed_iff hl hs hid {}
  obtain ⟨q, hq⟩ := hok.mpr fun r hr => by
    cases List.mem_singleton.mp hr
    exact .inl rfl
  obtain ⟨body, hbody, v, hv, hvalue⟩ := hbodies q hq 0 numberedAccount rfl
  rcases hvalue (by decide) with rfl | ⟨-, hc⟩
  · exact ⟨q, body, hq, hbody, hv⟩
  · exact absurd hc (by decide)

/-- Where all fields are sent, an account goes out with `null` for the number that is to find it. -/
theorem unnumberedAccount_sent :
    ∃ q body, numberedType.externalIdField "account_number" = .ok "AccountNumber__c" ∧
      numberedType.upsertRequest [⟨.obj [("AccountNumber__c", .null)], .empty⟩] "AccountNumber__c"
        { sendAllFields := true } = .ok q ∧
      q.records[0]? = some body ∧ Members.get? body "AccountNumber__c" = some .null :=
  ⟨_, _, rfl, rfl, rfl, rfl⟩

end RecordType

end OrgClient
