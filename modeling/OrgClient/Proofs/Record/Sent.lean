import OrgClient.Proofs.Record.Body

namespace OrgClient

open Record
set_option autoImplicit true

/-- A field that holds a value of its own. -/
def Schema.Field.IsPlain (f : Schema.Field κ) : Prop :=
  f.isRelationship = false ∧ f.type.isCompound = false

namespace RecordType

/-- The value under a name in the JSON form of a record. -/
def found? (T : RecordType κ α) (r : α) (name : String) : Option Json :=
  (T.serialize r).toOption.bind (Json.member? name)

/-- What is sent of a field of a record in a mode. -/
inductive Sends (T : RecordType κ α) (r : α) (f : Schema.Field κ) : WriteMode → Json → Prop
  | created (hp : f.IsPlain) (hc : f.createable) (hv : T.found? r f.apiName = some v)
    (hn : v.isNull = false) : Sends T r f .insert v
  | updated (hp : f.IsPlain) (hu : f.updateable) (hv : T.found? r f.apiName = some v) :
    Sends T r f .update v
  | changed (hp : f.IsPlain) (hu : f.updateable) (hm : (T.modified r).contains f.property)
    (hv : T.found? r f.apiName = some v) : Sends T r f .updateModified v
  | cleared (hp : f.IsPlain) (hu : f.updateable) (hm : (T.modified r).contains f.property)
    (hv : T.found? r f.apiName = none) : Sends T r f .updateModified .null

/-- How an entry of a body with the changed fields is lost where all fields are sent. -/
inductive Loses (T : RecordType κ α) (r : α) (name : String) (v : Json) : Prop
  /-- Its field was cleared, and the JSON form of the record leaves it out. -/
  | absent (hf : f ∈ T.table.fields) (he : f.apiName = name) (hp : f.IsPlain) (hu : f.updateable)
    (hm : (T.modified r).contains f.property) (hv : T.found? r f.apiName = none)
  /-- It has the attributes, and a field of their name that is not changed takes their place. -/
  | covered (hf : f ∈ T.table.fields) (he : f.apiName = name) (ha : name = "attributes")
    (hm : ¬ (T.modified r).contains f.property) (hs : T.Sends r f .update w) (hv : w ≠ v)

variable {T : RecordType κ α} {r : α} {f : Schema.Field κ} {mode : WriteMode} {name : String}
  {v : Json} {body : Members Json}

theorem Sends.includes (h : T.Sends r f mode v) : mode.includes (T.modified r) f := by
  cases h <;> simp_all [WriteMode.includes, Schema.Field.IsPlain]

theorem Sends.sent (h : T.Sends r f mode v) : mode.sent? (T.found? r f.apiName) = some v := by
  cases h <;> simp_all [WriteMode.sent?]

theorem sends_of_sent (hi : mode.includes (T.modified r) f)
    (hv : mode.sent? (T.found? r f.apiName) = some v) : T.Sends r f mode v := by
  simp only [WriteMode.includes, Bool.and_eq_true, Bool.not_eq_true'] at hi
  obtain ⟨hp, hi⟩ := hi
  cases mode with
  | insert =>
    cases hf : T.found? r f.apiName with
    | none => simp [hf, WriteMode.sent?] at hv
    | some w =>
      simp [hf, WriteMode.sent?] at hv
      obtain ⟨hn, rfl⟩ := hv
      exact .created hp hi hf hn
  | update =>
    cases hf : T.found? r f.apiName with
    | none => simp [hf, WriteMode.sent?] at hv
    | some w =>
      simp [hf, WriteMode.sent?] at hv
      exact .updated hp hi (hv ▸ hf)
  | updateModified =>
    obtain ⟨hu, hm⟩ := Bool.and_eq_true_iff.mp hi
    cases hf : T.found? r f.apiName with
    | none =>
      simp [hf, WriteMode.sent?] at hv
      exact hv ▸ .cleared hp hu hm hf
    | some w =>
      simp [hf, WriteMode.sent?] at hv
      exact .changed hp hu hm (hv ▸ hf)

theorem ordered_body (h : T.body mode r = .ok body) : Members.Ordered body := by
  obtain ⟨source, -, rfl⟩ := object_of_body h
  exact ordered_writeFields mode _ _ (.insert .nil _ _)

/-- The value under each name of a body, whatever the names of the fields. -/
theorem get?_body (h : T.body mode r = .ok body) (name : String) :
    Members.get? body name =
      (mode.written (T.found? r name) (mode.writers (T.modified r) T.table.fields name)).or
        (if name = "attributes" then some (T.attributes r).toJson else none) := by
  obtain ⟨source, hs, rfl⟩ := object_of_body h
  have hf : T.found? r name = Members.get? source name := by
    rw [found?, hs]
    rfl
  rw [get?_writeFields, hf]
  congr 1
  split
  · rename_i hn
    rw [hn]
    rfl
  · rename_i hn
    exact Members.get?_insert_of_ne hn _ []

section Distinct

variable (hn : (T.table.fields.map (·.apiName)).Nodup)

include hn

theorem get?_body_of_sends (h : T.body mode r = .ok body) (hf : f ∈ T.table.fields)
    (hs : T.Sends r f mode v) : Members.get? body f.apiName = some v := by
  have hp : 0 < mode.writers (T.modified r) T.table.fields f.apiName :=
    WriteMode.writers_pos_iff.mpr ⟨f, hf, hs.includes, rfl⟩
  rw [get?_body h, Nat.le_antisymm (WriteMode.writers_le_one hn) hp, WriteMode.written_one, hs.sent,
    Option.some_or]

theorem get?_body_of_unsent (h : T.body mode r = .ok body)
    (hs : ∀ f ∈ T.table.fields, f.apiName = name → ∀ v, ¬ T.Sends r f mode v) :
    Members.get? body name =
      if name = "attributes" then some (T.attributes r).toJson else none := by
  rw [get?_body h]
  rcases Nat.eq_zero_or_pos (mode.writers (T.modified r) T.table.fields name) with hw | hw
  · rw [hw, WriteMode.written, Option.none_or]
  · have hone := Nat.le_antisymm (WriteMode.writers_le_one hn) hw
    obtain ⟨f, hf, hi, rfl⟩ := WriteMode.writers_pos_iff.mp hw
    rw [hone, WriteMode.written_one]
    cases hv : mode.sent? (T.found? r f.apiName) with
    | none => rw [Option.none_or]
    | some v => exact absurd (sends_of_sent hi hv) (hs f hf rfl v)

/-- The entries of a body are those of the fields that are sent. The attributes are there too, if no
field takes their place. -/
theorem mem_body_iff (h : T.body mode r = .ok body) :
    (name, v) ∈ body ↔
      (∃ f ∈ T.table.fields, f.apiName = name ∧ T.Sends r f mode v) ∨
        name = "attributes" ∧ v = (T.attributes r).toJson ∧
          ∀ f ∈ T.table.fields, f.apiName = name → ∀ w, ¬ T.Sends r f mode w := by
  rw [(ordered_body h).mem_iff]
  constructor
  · intro hv
    by_cases hs : ∃ f ∈ T.table.fields, f.apiName = name ∧ ∃ w, T.Sends r f mode w
    · obtain ⟨f, hf, rfl, w, hw⟩ := hs
      rw [get?_body_of_sends hn h hf hw, Option.some.injEq] at hv
      exact .inl ⟨f, hf, rfl, hv ▸ hw⟩
    · have hno : ∀ f ∈ T.table.fields, f.apiName = name → ∀ w, ¬ T.Sends r f mode w :=
        fun f hf he w hw => hs ⟨f, hf, he, w, hw⟩
      rw [get?_body_of_unsent hn h hno] at hv
      split at hv
      · rename_i ha
        exact .inr ⟨ha, (Option.some.inj hv).symm, hno⟩
      · cases hv
  · rintro (⟨f, hf, rfl, hs⟩ | ⟨rfl, rfl, hno⟩)
    · exact get?_body_of_sends hn h hf hs
    · exact get?_body_of_unsent hn h hno

end Distinct

theorem body_of_not_object (h : ∀ source, T.serialize r ≠ .ok (.obj source)) (mode : WriteMode) :
    ∃ text caused, T.body mode r = .error ⟨.serialization text, caused⟩ := by
  unfold RecordType.body
  split
  · rename_i text _
    exact ⟨text, true, rfl⟩
  · rename_i source hs
    exact absurd hs (h source)
  · exact ⟨_, false, rfl⟩

theorem serialization_of_body_error (h : T.body mode r = .error e) :
    ∃ text caused, e = ⟨.serialization text, caused⟩ := by
  have hs : ∀ source, T.serialize r ≠ .ok (.obj source) := by
    intro source hs
    cases h.symm.trans (body_of_object hs mode)
  obtain ⟨text, caused, he⟩ := body_of_not_object hs mode
  exact ⟨text, caused, Except.error.inj (h.symm.trans he)⟩

/-- The body of a record has its attributes and the values of the fields that the mode sends, each
once and in order, and nothing else. -/
theorem sends_exactly (hn : (T.table.fields.map (·.apiName)).Nodup)
    (ha : "attributes" ∉ T.table.fields.map (·.apiName)) (mode : WriteMode) (r : α) :
    (∀ source, T.serialize r = .ok (.obj source) → ∃ body, T.body mode r = .ok body ∧
      body.Ordered ∧ ∀ name v, (name, v) ∈ body ↔
        name = "attributes" ∧ v = (T.attributes r).toJson ∨
          ∃ f ∈ T.table.fields, f.apiName = name ∧ T.Sends r f mode v) ∧
    ((∀ source, T.serialize r ≠ .ok (.obj source)) →
      ∃ text caused, T.body mode r = .error ⟨.serialization text, caused⟩) := by
  refine ⟨fun source hs => ?_, fun hs => body_of_not_object hs mode⟩
  have hb := body_of_object hs mode
  refine ⟨_, hb, ordered_body hb, fun name v => ?_⟩
  rw [mem_body_iff hn hb, or_comm]
  refine or_congr_left (and_congr_right fun hname => and_iff_left fun f hf he => ?_)
  exact absurd (List.mem_map.mpr ⟨f, hf, he.trans hname⟩) ha

/-- An account that was given a name and a rating, which its table does not have, and of which the
industry was cleared. -/
def clearedAccount : Row :=
  ⟨.obj [("Name", .str "Acme"), ("Rating", .str "Hot")], .ofList ["industry", "name", "rating"]⟩

def accountType : RecordType Nat Row :=
  Row.type (Schema.ofList [⟨"Account", [⟨"name", "Name", .string, false, true, true, false, none⟩,
    ⟨"industry", "Industry", .picklist, false, true, true, false, none⟩]⟩]) 0

theorem clearedAccount_sends_exactly :
    (accountType.table.fields.map (·.apiName)).Nodup ∧
      "attributes" ∉ accountType.table.fields.map (·.apiName) ∧
      ∃ body, accountType.body .updateModified clearedAccount = .ok body ∧
        ("Industry", .null) ∈ body ∧ ∀ v, ("Rating", v) ∉ body := by
  have hn : (accountType.table.fields.map (·.apiName)).Nodup := by decide
  have ha : "attributes" ∉ accountType.table.fields.map (·.apiName) := by decide
  obtain ⟨body, hb, -, hm⟩ :=
    (sends_exactly hn ha .updateModified clearedAccount).1 _ rfl
  refine ⟨hn, ha, body, hb, (hm _ _).mpr (.inr ?_), fun v hv => ?_⟩
  · exact ⟨_, .tail _ (.head _), rfl, .cleared ⟨rfl, rfl⟩ rfl (by decide) rfl⟩
  · rcases (hm _ _).mp hv with ⟨he, -⟩ | ⟨f, hf, he, -⟩
    · exact absurd he (by decide)
    · have hr : "Rating" ∉ accountType.table.fields.map (·.apiName) := by decide
      exact hr (List.mem_map.mpr ⟨f, hf, he⟩)

theorem attributes_ne_null (a : Attributes) : a.toJson ≠ .null :=
  nofun

theorem sends_changed (hp : f.IsPlain) (hu : f.updateable)
    (hm : (T.modified r).contains f.property) : ∃ v, T.Sends r f .updateModified v := by
  cases hv : T.found? r f.apiName with
  | none => exact ⟨_, .cleared hp hu hm hv⟩
  | some v => exact ⟨v, .changed hp hu hm hv⟩

theorem Sends.sends_changed (h : T.Sends r f .update v) (hm : (T.modified r).contains f.property) :
    ∃ w, T.Sends r f .updateModified w := by
  cases h with
  | updated hp hu _ => exact RecordType.sends_changed hp hu hm

section AllFields

variable (hn : (T.table.fields.map (·.apiName)).Nodup) (ha : T.body .update r = .ok all)

include hn ha

theorem changed_mem_all_iff (hf : f ∈ T.table.fields) (hs : T.Sends r f .updateModified v) :
    (f.apiName, v) ∈ all ↔ ¬ T.Loses r f.apiName v := by
  rw [mem_body_iff hn ha]
  cases hs with
  | changed hp hu hm hv =>
    refine iff_of_true (.inl ⟨f, hf, rfl, .updated hp hu hv⟩) fun hl => ?_
    cases hl with
    | absent hg he _ _ _ hv' =>
      rw [he, hv] at hv'
      cases hv'
    | covered hg he _ hm' _ _ =>
      cases List.inj_on_of_nodup_map hn hg hf he
      exact hm' hm
  | cleared hp hu hm hv =>
    refine iff_of_false ?_ (not_not.mpr (.absent hf rfl hp hu hm hv))
    rintro (⟨g, hg, he, hs⟩ | ⟨-, hnull, -⟩)
    · cases hs with
      | updated _ _ hv' =>
        rw [he, hv] at hv'
        cases hv'
    · exact attributes_ne_null _ hnull.symm

theorem attributes_mem_all_iff (hno : ∀ f ∈ T.table.fields, f.apiName = "attributes" →
      ∀ w, ¬ T.Sends r f .updateModified w) :
    ("attributes", (T.attributes r).toJson) ∈ all ↔
      ¬ T.Loses r "attributes" (T.attributes r).toJson := by
  rw [mem_body_iff hn ha]
  constructor
  · intro hall hl
    cases hl with
    | absent hg he hp hu hm _ =>
      obtain ⟨w, hw⟩ := sends_changed hp hu hm
      exact hno _ hg he w hw
    | covered hg he _ _ hs hv =>
      rcases hall with ⟨f, hf, he', hs'⟩ | ⟨-, -, hnone⟩
      · cases List.inj_on_of_nodup_map hn hg hf (he.trans he'.symm)
        exact hv (Option.some.inj (hs.sent.symm.trans hs'.sent))
      · exact hnone _ hg he _ hs
  · intro hl
    by_cases hs : ∃ f ∈ T.table.fields, f.apiName = "attributes" ∧ ∃ w, T.Sends r f .update w
    · obtain ⟨f, hf, he, w, hw⟩ := hs
      have hm : ¬ (T.modified r).contains f.property := by
        intro hm
        obtain ⟨w', hw'⟩ := hw.sends_changed hm
        exact hno f hf he w' hw'
      by_contra hall
      apply hl
      apply Loses.covered hf he rfl hm hw
      intro hv
      exact hall (.inl ⟨f, hf, he, hv ▸ hw⟩)
    · exact .inr ⟨rfl, rfl, fun f hf he w hw => hs ⟨f, hf, he, w, hw⟩⟩

end AllFields

/-- An entry of the body with the changed fields is in the body with all fields too, unless its
field was cleared by leaving it out of the JSON form of the record, or it has the attributes and a
field takes their place. -/
theorem all_fields_keep_iff (hn : (T.table.fields.map (·.apiName)).Nodup)
    (hs : T.serialize r = .ok (.obj source)) :
    ∃ all changed, T.body .update r = .ok all ∧ T.body .updateModified r = .ok changed ∧
      ∀ name v, (name, v) ∈ changed → ((name, v) ∈ all ↔ ¬ T.Loses r name v) := by
  have ha := body_of_object hs .update
  have hc := body_of_object hs .updateModified
  refine ⟨_, _, ha, hc, fun name v hmem => ?_⟩
  rcases (mem_body_iff hn hc).mp hmem with ⟨f, hf, rfl, hsent⟩ | ⟨rfl, rfl, hno⟩
  · exact changed_mem_all_iff hn ha hf hsent
  · exact attributes_mem_all_iff hn ha hno

theorem clearedAccount_keeps_name :
    (accountType.table.fields.map (·.apiName)).Nodup ∧
      ∃ source, accountType.serialize clearedAccount = .ok (.obj source) ∧
        ∃ all, accountType.body .update clearedAccount = .ok all ∧
          ("Name", .str "Acme") ∈ all ∧ ("Industry", .null) ∉ all := by
  have hn : (accountType.table.fields.map (·.apiName)).Nodup := by decide
  obtain ⟨all, changed, ha, hc, hkeep⟩ := all_fields_keep_iff (r := clearedAccount) hn rfl
  refine ⟨hn, _, rfl, all, ha, (hkeep _ _ ?_).mpr fun hl => ?_, fun hall => ?_⟩
  · cases hc
    exact .tail _ (.head _)
  · cases hl with
    | absent _ he _ _ _ hv =>
      rw [he] at hv
      cases hv
    | covered _ _ hname _ _ _ => exact absurd hname (by decide)
  · refine (hkeep _ _ ?_).mp hall (.absent (.tail _ (.head _)) rfl ⟨rfl, rfl⟩ rfl (by decide) rfl)
    cases hc
    exact .head _

theorem clearedAccount_loses_industry :
    ∃ all changed, accountType.body .update clearedAccount = .ok all ∧
      accountType.body .updateModified clearedAccount = .ok changed ∧
        ("Industry", .null) ∈ changed ∧ ∀ v, ("Industry", v) ∉ all := by
  have ha : accountType.body .update clearedAccount =
      .ok [("Name", .str "Acme"), ("attributes", .obj [("type", .str "Account")])] := rfl
  exact ⟨_, _, ha, rfl, .head _, by simp⟩

end RecordType

end OrgClient
