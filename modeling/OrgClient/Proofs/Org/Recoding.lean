import OrgClient.Org.Action
import OrgClient.Org.Describe
import OrgClient.Org.Limit
import OrgClient.Org.Query
import OrgClient.Proofs.Json.Recoding

namespace OrgClient

open Json (Decoder Fields Survives decodeValue?)
set_option autoImplicit true

namespace Record

theorem Refusal.decode_toJson (r : Refusal) : decodeValue? decode r.toJson = some r := by
  dsimp only [decodeValue?, decode, toJson]
  refine Fields.bind_object (by decide) (.refl _) fun f h => ?_
  simp [h.required_eq, h.defaulted_eq, List.lookup_cons]

theorem Attributes.decode_toJson (a : Attributes) : decodeValue? decode a.toJson = some a := by
  obtain ⟨type, url⟩ := a
  cases url with
  | none =>
    dsimp only [decodeValue?, decode, toJson]
    refine Fields.bind_object (by decide) (List.sublist_append_left ["type"] ["url"]) fun f h => ?_
    simp [h.required_eq, h.defaulted_eq, List.lookup_cons]
  | some url =>
    dsimp only [decodeValue?, decode, toJson]
    refine Fields.bind_object (by decide) (.refl _) fun f h => ?_
    simp [h.required_eq, h.defaulted_eq, List.lookup_cons]

@[simp]
theorem Refusal.decode_list_toJson (rs : List Refusal) :
    decodeValue? (.list decode) (.arr (rs.map toJson)) = some rs :=
  Json.decodeValue?_arr fun r _ => decode_toJson r

theorem SaveResult.survives : Survives decode toJson := by
  intro doc r h
  dsimp only [decode] at h
  obtain ⟨f, -, h⟩ := Option.bind_eq_some_iff.mp h
  obtain ⟨id, -, h⟩ := Option.bind_eq_some_iff.mp h
  obtain ⟨success, -, h⟩ := Option.bind_eq_some_iff.mp h
  obtain ⟨errors, -, h⟩ := Option.bind_eq_some_iff.mp h
  obtain ⟨warnings, hw, h⟩ := Option.bind_eq_some_iff.mp h
  obtain ⟨created, -, h⟩ := Option.bind_eq_some_iff.mp h
  cases h
  -- Warnings are JSON of any kind, of which only what was read is sure to be read again.
  have hw := Json.survives_values.of_defaulted rfl hw
  cases created with
  | none =>
    dsimp only [decodeValue?, decode, toJson]
    refine Fields.bind_object (by decide)
      (List.sublist_append_left ["id", "success", "errors", "warnings"] ["created"]) fun f h => ?_
    simp [h.required_eq, h.defaulted_eq, List.lookup_cons, hw]
  | some b =>
    dsimp only [decodeValue?, decode, toJson]
    refine Fields.bind_object (by decide) (.refl _) fun f h => ?_
    simp [h.required_eq, h.defaulted_eq, List.lookup_cons, hw]

theorem DeleteResult.decode_toJson (r : DeleteResult) : decodeValue? decode r.toJson = some r := by
  dsimp only [decodeValue?, decode, toJson]
  refine Fields.bind_object (by decide) (.refl _) fun f h => ?_
  simp [h.required_eq, h.defaulted_eq, List.lookup_cons]

end Record

namespace Org

theorem ActionResult.survives : Survives decode toJson := by
  intro doc r h
  dsimp only [decode] at h
  obtain ⟨f, -, h⟩ := Option.bind_eq_some_iff.mp h
  obtain ⟨actionName, -, h⟩ := Option.bind_eq_some_iff.mp h
  obtain ⟨errors, -, h⟩ := Option.bind_eq_some_iff.mp h
  obtain ⟨isSuccess, -, h⟩ := Option.bind_eq_some_iff.mp h
  obtain ⟨outputValues, ho, h⟩ := Option.bind_eq_some_iff.mp h
  cases h
  have ho := Json.survives_nullable_value.of_nullable rfl ho
  cases errors with
  | none =>
    dsimp only [decodeValue?, decode, toJson]
    refine Fields.bind_object (by decide) (.refl _) fun f h => ?_
    simp [h.required_eq, h.defaulted_eq, h.nullable_eq, List.lookup_cons, ho]
  | some es =>
    have he := Json.decodeValue?_option (Record.Refusal.decode_list_toJson es) nofun
    dsimp only [decodeValue?, decode, toJson]
    refine Fields.bind_object (by decide) (.refl _) fun f h => ?_
    simp [h.required_eq, h.defaulted_eq, h.nullable_eq, List.lookup_cons, ho, he]

theorem FieldDescription.decode_toJson (f : FieldDescription) :
    decodeValue? decode f.toJson = some f := by
  dsimp only [decodeValue?, decode, toJson]
  refine Fields.bind_object (by simp) (.refl _) fun f h => ?_
  simp [h.required_eq, h.defaulted_eq, h.nullable_eq, List.lookup_cons]

@[simp]
theorem FieldDescription.decode_list_toJson (fs : List FieldDescription) :
    decodeValue? (.list decode) (.arr (fs.map toJson)) = some fs :=
  Json.decodeValue?_arr fun f _ => decode_toJson f

theorem ChildDescription.decode_toJson (c : ChildDescription) :
    decodeValue? decode c.toJson = some c := by
  dsimp only [decodeValue?, decode, toJson]
  refine Fields.bind_object (by decide) (.refl _) fun f h => ?_
  simp [h.required_eq, h.defaulted_eq, h.nullable_eq, List.lookup_cons]

@[simp]
theorem ChildDescription.decode_list_toJson (cs : List ChildDescription) :
    decodeValue? (.list decode) (.arr (cs.map toJson)) = some cs :=
  Json.decodeValue?_arr fun c _ => decode_toJson c

theorem Description.decode_toJson (t : Description) : decodeValue? decode t.toJson = some t := by
  dsimp only [decodeValue?, decode, toJson]
  refine Fields.bind_object (by simp) (.refl _) fun f h => ?_
  simp [h.required_eq, h.defaulted_eq, h.nullable_eq, List.lookup_cons]

theorem Limit.survives : Survives decode toJson := by
  intro doc l h
  dsimp only [decode] at h
  obtain ⟨f, -, h⟩ := Option.bind_eq_some_iff.mp h
  obtain ⟨max, hm, h⟩ := Option.bind_eq_some_iff.mp h
  obtain ⟨remaining, hr, h⟩ := Option.bind_eq_some_iff.mp h
  cases h
  have hm := Json.survives_int64.of_required hm
  have hr := Json.survives_int64.of_required hr
  dsimp only [decodeValue?, decode, toJson]
  refine Fields.bind_object (by decide) (.refl _) fun f h => ?_
  simp [h.required_eq, List.lookup_cons, hm, hr]

theorem Page.survives {row : Decoder α} {write : α → Json} (hrow : Survives row write) :
    Survives (decode row) (toJson write) := by
  intro doc p h
  dsimp only [decode] at h
  obtain ⟨f, -, h⟩ := Option.bind_eq_some_iff.mp h
  obtain ⟨totalSize, ht, h⟩ := Option.bind_eq_some_iff.mp h
  obtain ⟨done, -, h⟩ := Option.bind_eq_some_iff.mp h
  obtain ⟨nextUrl, -, h⟩ := Option.bind_eq_some_iff.mp h
  obtain ⟨records, hr, h⟩ := Option.bind_eq_some_iff.mp h
  cases h
  have ht := Json.survives_uint64.of_required ht
  have hr := hrow.list.of_required hr
  dsimp only [decodeValue?, decode, toJson]
  refine Fields.bind_object (by decide) (.refl _) fun f h => ?_
  simp [h.required_eq, h.defaulted_eq, List.lookup_cons, ht, hr]

theorem SearchResult.survives {row : Decoder α} {write : α → Json} (hrow : Survives row write) :
    Survives (decode row) (toJson write) := by
  intro doc r h
  dsimp only [decode] at h
  obtain ⟨f, -, h⟩ := Option.bind_eq_some_iff.mp h
  obtain ⟨records, hr, h⟩ := Option.bind_eq_some_iff.mp h
  cases h
  have hr := hrow.list.of_required hr
  dsimp only [decodeValue?, decode, toJson]
  refine Fields.bind_object (by decide) (.refl _) fun f h => ?_
  simp [h.required_eq, hr]

open Record (SaveResult DeleteResult Refusal Attributes)

/-- Whatever an org answers, by name or by position, what is written of the answer that was read
is read as the same answer. -/
theorem answers_survive_recoding :
    Survives (.list SaveResult.decode) (fun rs => .arr (rs.map SaveResult.toJson)) ∧
      Survives (.list DeleteResult.decode) (fun rs => .arr (rs.map DeleteResult.toJson)) ∧
      Survives (.list ActionResult.decode) (fun rs => .arr (rs.map ActionResult.toJson)) ∧
      Survives Attributes.decode Attributes.toJson ∧
      Survives Refusal.decode Refusal.toJson ∧
      Survives (Page.decode .value) (Page.toJson id) ∧
      Survives (SearchResult.decode .value) (SearchResult.toJson id) ∧
      Survives Limits.decode Limits.toJson ∧
      Survives Description.decode Description.toJson :=
  ⟨SaveResult.survives.list, .list (.of_total DeleteResult.decode_toJson),
    ActionResult.survives.list, .of_total Attributes.decode_toJson,
    .of_total Refusal.decode_toJson, Page.survives Json.survives_value,
    SearchResult.survives Json.survives_value, Limit.survives.members,
    .of_total Description.decode_toJson⟩

/-- A document is read as a value, and so is what is written of that value. -/
def ReadAgain (d : Decoder α) (e : α → Json) (doc : Json.Document) (a : α) : Prop :=
  d doc = some a ∧ decodeValue? d (e a) = some a

theorem ReadAgain.of_survives (h : Survives d e) (hd : d doc = some a) : ReadAgain d e doc a :=
  ⟨hd, h doc a hd⟩

/-- What is answered by name, with members that are not known, or by position is read again. -/
theorem survives_position_and_unknown :
    ReadAgain (.list SaveResult.decode) (fun rs => .arr (rs.map SaveResult.toJson))
        (.arr [.arr [.str "001", .bool true], .obj [(some "success", .bool false),
          (some "hint", .null), (some "warnings", .arr [.int 1]), (some "created", .null)]])
        [⟨some "001", true, [], [], none⟩, ⟨none, false, [], [.int 1], none⟩] ∧
      ReadAgain (.list DeleteResult.decode) (fun rs => .arr (rs.map DeleteResult.toJson))
        (.arr [.obj [(some "success", .bool true), (some "hint", .null)],
          .arr [.null, .bool false, .arr [.arr [.str "NOT_FOUND", .str "gone"]]]])
        [⟨none, true, []⟩, ⟨none, false, [⟨"NOT_FOUND", "gone", []⟩]⟩] ∧
      ReadAgain (.list ActionResult.decode) (fun rs => .arr (rs.map ActionResult.toJson))
        (.arr [.obj [(some "actionName", .str "notify"), (some "isSuccess", .bool true),
          (some "version", .int 1)], .arr [.str "notify", .arr [], .bool false, .int 2]])
        [⟨"notify", none, true, none⟩, ⟨"notify", some [], false, some (.int 2)⟩] ∧
      ReadAgain Attributes.decode Attributes.toJson
        (.obj [(some "hint", .null), (some "type", .str "Account")]) ⟨"Account", none⟩ ∧
      ReadAgain Refusal.decode Refusal.toJson
        (.arr [.str "NOT_FOUND", .str "gone", .arr [.str "Id"]]) ⟨"NOT_FOUND", "gone", ["Id"]⟩ ∧
      ReadAgain (Page.decode .value) (Page.toJson id)
        (.obj [(some "totalSize", .int 1), (some "done", .bool true),
          (some "records", .arr [.obj [(some "Id", .str "001")]]), (some "hint", .null)])
        ⟨1, true, none, [.obj [("Id", .str "001")]]⟩ ∧
      ReadAgain (SearchResult.decode .value) (SearchResult.toJson id)
        (.obj [(some "metadata", .null), (some "searchRecords", .arr [.int 1, .null])])
        ⟨[.int 1, .null]⟩ ∧
      ReadAgain Limits.decode Limits.toJson
        (.obj [(some "DailyApiRequests", .obj [(some "Max", .int 15000),
          (some "Remaining", .int 14998), (some "Tool", .obj [])])])
        [("DailyApiRequests", ⟨15000, 14998⟩)] ∧
      ReadAgain Description.decode Description.toJson
        (.obj [(some "name", .str "Account"), (some "label", .str "Account"),
          (some "fields", .arr [.arr [.str "Id", .str "Account ID", .str "id", .bool false,
            .bool false, .bool false, .bool true, .bool false, .arr [], .null]]),
          (some "childRelationships", .arr [.obj [(some "childSObject", .str "Contact"),
            (some "field", .str "AccountId")]]), (some "urls", .obj [])])
        ⟨"Account", "Account", none, none, false, false, false, false, false,
          [⟨"Id", "Account ID", "id", false, false, false, true, false, [], none⟩],
          [⟨"Contact", "AccountId", none, false⟩]⟩ := by
  obtain ⟨hs, hd, ha, ht, hr, hp, hf, hl, ho⟩ := answers_survive_recoding
  exact ⟨.of_survives hs rfl, .of_survives hd rfl, .of_survives ha rfl, .of_survives ht rfl,
    .of_survives hr rfl, .of_survives hp rfl, .of_survives hf rfl, .of_survives hl rfl,
    .of_survives ho rfl⟩

end Org

end OrgClient
