import Mathlib.Data.List.GetD
import Mathlib.Logic.Relation
import OrgClient.Proofs.Client.Batch
import OrgClient.Proofs.Record.Rows

namespace OrgClient

open Http (Message Network Session)
open Record
set_option autoImplicit true

/-- A type of records in which the changes are set without the rest of the record. -/
structure RecordType.MarksApart (T : RecordType κ α) : Prop where
  id_setModified : T.id? (T.setModified m r) = T.id? r
  serialize_setModified : T.serialize (T.setModified m r) = T.serialize r
  modified_setModified : T.modified (T.setModified m r) = m

theorem RecordType.MarksApart.value_setModified {T : RecordType κ α} (hT : T.MarksApart)
    (m : Modified) (r : α) : T.value (T.setModified m r) = T.value r := by
  funext name
  rw [value, hT.serialize_setModified]
  rfl

theorem Record.Row.marksApart (schema : Schema κ) (key : κ) : (type schema key).MarksApart :=
  ⟨rfl, rfl, rfl⟩

/-- The bodies for rows of the org in a message, which has to be a PATCH. -/
def Http.Message.bodies (m : Message) : List (Members Json) :=
  if m.method = .patch then m.content.elim [] bodiesIn else []

/-- The bodies in the message that was sent first behind another network. -/
def Http.Network.bodiesBehind (n before : Network) : List (Members Json) :=
  n.sent[before.sent.length]?.elim [] Message.bodies

namespace Http.Network

theorem bodiesBehind_self (n : Network) : n.bodiesBehind n = [] := by
  rw [bodiesBehind, List.getElem?_eq_none (Nat.le_refl _)]
  rfl

theorem sent_hand (n : Network) (r : Http.Request) : (n.hand r).sent = n.sent := by
  rw [sent, hand, List.filterMap_append]
  exact List.append_nil _

theorem bodiesBehind_of_unprepared (h : r.prepared c = .error e) (n : Network) :
    (n.exchange c r).2.bodiesBehind n = [] := by
  rw [exchange_of_unprepared h, bodiesBehind, sent_hand]
  exact n.bodiesBehind_self

/-- The message for a batch has its bodies. -/
theorem bodiesBehind_of_prepared {c : Connection}
    (h : (c.batchRequest .patch path q).prepared c.config = .ok m) (n : Network) :
    (n.exchange c.config (c.batchRequest .patch path q)).2.bodiesBehind n = q.records := by
  obtain ⟨rest, hs⟩ := sent_exchange h n
  obtain ⟨u, -, rfl⟩ := Http.Request.message_of_prepared h
  rw [bodiesBehind, hs, List.getElem?_append_right (Nat.le_refl _), Nat.sub_self]
  exact bodiesIn_toJson q

end Http.Network

/-- Records at places, and the rows of the org. -/
structure World (ι α : Type) where
  records : ι → α
  rows : Rows

namespace World

/-- What becomes of an update at some places. -/
def ended (w : World ι α) (T : RecordType κ α) (c : Connection) (o : UpdateOptions)
    (session : Session) (places : List ι) : Except Error (List SaveResult) × List α × Session :=
  (c.update T o).run (places.map w.records, session)

/-- The bodies that the org is sent by an update at some places. -/
def bodies (w : World ι α) (T : RecordType κ α) (c : Connection) (o : UpdateOptions)
    (session : Session) (places : List ι) : List (Members Json) :=
  (w.ended T c o session places).2.2.network.bodiesBehind session.network

/-- A setter at one place, or an update of changed fields at some places over any connection, in any
session, of which the org serves what it was sent. -/
inductive Step (T : RecordType κ α) : World ι α → World ι α → Prop
  | edit (i : ι) (hf : f ∈ T.table.fields) (hid : f.apiName ≠ "Id")
      (hr : Edited T f (w.records i) (records' i)) (ho : ∀ j ≠ i, records' j = w.records j) :
      Step T w ⟨records', w.rows⟩
  | update (c : Connection) (session : Session) (places : List ι) (hm : o.sendAllFields = false)
      (hr : places.map records' = (w.ended T c o session places).2.1)
      (ho : ∀ i ∉ places, records' i = w.records i)
      (hs : w.rows.Served (w.bodies T c o session places) (w.ended T c o session places).1 rows') :
      Step T w ⟨records', rows'⟩

/-- A world behind an update in which the org applies nothing if the update fails. -/
def updated [DecidableEq ι] (w : World ι α) (T : RecordType κ α) (c : Connection)
    (o : UpdateOptions) (session : Session) (places : List ι) : World ι α :=
  ⟨fun i => (w.ended T c o session places).2.1.getD (places.idxOf i) (w.records i),
    w.rows.serve (w.bodies T c o session places) (w.ended T c o session places).1⟩

/-- Records at distinct places can be updated at any time. -/
theorem step_updated [DecidableEq ι] (w : World ι α) (T : RecordType κ α) (c : Connection)
    (session : Session) (hp : places.Nodup) (hm : o.sendAllFields = false) :
    Step T w (w.updated T c o session places) := by
  have hl := (Saving.update o).length_records c T (places.map w.records) session
  rw [List.length_map] at hl
  apply Step.update c session places hm
  · apply List.ext_getElem
    · rw [List.length_map]
      exact hl.symm
    · intro k hk hk'
      have hk'' : k < places.length := by
        rw [List.length_map] at hk
        exact hk
      rw [List.getElem_map, List.Nodup.idxOf_getElem hp k hk'']
      exact List.getD_eq_getElem _ _ hk'
  · intro i hi
    apply List.getD_eq_default
    rw [List.idxOf_eq_length_iff.mpr hi]
    exact Nat.le_of_eq hl
  · exact Rows.served_serve w.rows _ _

/-- What holds of all records and rows at all times. -/
structure Synced (T : RecordType κ α) (ids : ι → String) (w : World ι α) : Prop where
  id : ∀ i, T.id? (w.records i) = some (ids i)
  follows : ∀ i, Follows T (T.modified (w.records i)) (w.rows (ids i)) (w.records i)

/-- Each record has a row of its own with the same values, whatever is marked as changed. -/
structure Fresh (T : RecordType κ α) (ids : ι → String) (w : World ι α) : Prop where
  distinct : Function.Injective ids
  id : ∀ i, T.id? (w.records i) = some (ids i)
  same : ∀ i, ∀ f ∈ T.table.fields, f.updateable →
    w.rows (ids i) f.apiName = T.value (w.records i) f.apiName

variable {T : RecordType κ α} {ids : ι → String} {w w' : World ι α}

theorem Fresh.synced (h : Fresh T ids w) : Synced T ids w := by
  refine ⟨h.id, fun i f hf hu _ => h.same i f hf ?_⟩
  rw [Schema.Field.isUpdated, Bool.and_assoc, Bool.and_eq_true] at hu
  exact hu.1

theorem Synced.edit (hn : (T.table.fields.map (·.apiName)).Nodup) (hf : f ∈ T.table.fields)
    (hid : f.apiName ≠ "Id") (hr : Edited T f (w.records i) (records' i))
    (ho : ∀ j ≠ i, records' j = w.records j) (h : Synced T ids w) :
    Synced T ids ⟨records', w.rows⟩ := by
  constructor
  · intro j
    by_cases hj : j = i
    · subst hj
      exact hr.id.trans (h.id j)
    · exact (congrArg T.id? (ho j hj)).trans (h.id j)
  · intro j
    by_cases hj : j = i
    · subst hj
      exact (h.follows j).edited hn hf hid hr
    · change Follows T (T.modified (records' j)) _ (records' j)
      rw [ho j hj]
      exact h.follows j

/-- A record behind an update is the same, or it has lost its changes and its body is confirmed. -/
theorem same_or_confirmed {places : List ι} {bs : List (Members Json)}
    (hr : T.reconcile false (places.map w.records) results = .ok (places.map records'))
    (ho : ∀ i ∉ places, records' i = w.records i)
    (hb : ∀ (k : Nat) r, (places.map w.records)[k]? = some r → ∃ b, bs[k]? = some b ∧ Updates T r b)
    (i : ι) :
    records' i = w.records i ∨ records' i = T.setModified .empty (w.records i) ∧
      ∃ b ∈ Rows.confirmed bs results, Updates T (w.records i) b := by
  by_cases hi : i ∈ places
  · obtain ⟨hl, hz⟩ := reconcile_eq_ok_iff.mp hr
    obtain ⟨k, hk⟩ := List.mem_iff_getElem?.mp hi
    have hrk : (places.map w.records)[k]? = some (w.records i) := by
      rw [List.getElem?_map, hk]
      rfl
    obtain ⟨result, hres⟩ : ∃ result, results[k]? = some result := by
      obtain ⟨hlt, -⟩ := List.getElem?_eq_some_iff.mp hrk
      exact ⟨_, List.getElem?_eq_getElem (hl ▸ hlt)⟩
    have hone : records' i = T.reconcileOne false (w.records i) result := by
      have he := congrArg (·[k]?) hz
      simp only [List.getElem?_map, hk, List.getElem?_zipWith, hres, Option.map_some] at he
      exact Option.some.inj he
    cases hs : result.success with
    | false =>
      rw [reconcileOne_refused T false _ hs] at hone
      exact .inl hone
    | true =>
      rw [reconcileOne_saved T false _ hs] at hone
      obtain ⟨b, hbk, hu⟩ := hb k _ hrk
      exact .inr ⟨hone, b, Rows.mem_confirmed hbk hres hs, hu⟩
  · exact .inl (ho i hi)

theorem Synced.of_failed {bs : List (Members Json)} (hi : Function.Injective ids)
    (hb : ∀ b ∈ bs, ∃ j, Updates T (w.records j) b) (h : Synced T ids w) :
    Synced T ids ⟨w.records, w.rows.applyAll bs⟩ :=
  ⟨h.id, fun i => (h.follows i).applyAll hi h.id hb fun _ hp => hp⟩

theorem Synced.of_confirmed {bs : List (Members Json)} (hT : T.MarksApart)
    (hi : Function.Injective ids) (hb : ∀ b ∈ bs, ∃ j, Updates T (w.records j) b)
    (hr : ∀ i, records' i = w.records i ∨ records' i = T.setModified .empty (w.records i) ∧
      ∃ b ∈ bs, Updates T (w.records i) b) (h : Synced T ids w) :
    Synced T ids ⟨records', w.rows.applyAll bs⟩ := by
  constructor
  · intro i
    change T.id? (records' i) = _
    rcases hr i with he | ⟨he, -⟩
    · exact (congrArg T.id? he).trans (h.id i)
    · rw [he, hT.id_setModified]
      exact h.id i
  · intro i
    change Follows T (T.modified (records' i)) _ (records' i)
    rcases hr i with he | ⟨he, b, hm, hu⟩
    · rw [he]
      exact (h.of_failed hi hb).follows i
    · rw [he, hT.modified_setModified]
      have hf := (h.follows i).applyAll_of_mem hi h.id hb hm hu
      exact hf.congr (hT.value_setModified .empty (w.records i))

theorem bodies_of_network (h : (w.ended T c o session places).2.2.network = session.network) :
    w.bodies T c o session places = [] := by
  rw [bodies, h]
  exact session.network.bodiesBehind_self

/-- The bodies of an update are sent if there is a message for them. If not, there are no results
either. -/
theorem bodies_of_request (session : Session) {places : List ι}
    (hne : places.map w.records ≠ [])
    (hr : (Saving.update o).request c T (places.map w.records) = .ok r) :
    (w.bodies T c o session places = [] ∧
        ∀ results, (w.ended T c o session places).1 ≠ .ok results) ∨
      ∃ q, (Saving.update o).bodies T (places.map w.records) = .ok q ∧
        w.bodies T c o session places = q.records := by
  have he := Saving.ends_of_ok session hne hr
  have hn := congrArg (·.bodiesBehind session.network) he.network
  obtain ⟨path, hp, hr⟩ := bind_eq_ok_iff.mp hr
  obtain ⟨q, hq, hr⟩ := bind_eq_ok_iff.mp hr
  cases hp
  cases hr
  cases hm : (c.batchRequest .patch Connection.batchPath q).prepared c.config with
  | error e =>
    left
    refine ⟨hn.trans (Network.bodiesBehind_of_unprepared hm session.network), ?_⟩
    intro results hok
    have ho := he.eq_of_ok hok
    rw [Saving.outcome, Saving.method, Connection.asked_of_unprepared hm] at ho
    cases ho
  | ok m =>
    right
    exact ⟨q, hq, hn.trans (Network.bodiesBehind_of_prepared hm session.network)⟩

/-- An update sends the bodies of its records, or nothing. It gives no results for records of which
it has sent nothing. -/
theorem bodies_of_ended (w : World ι α) (T : RecordType κ α) (c : Connection) (o : UpdateOptions)
    (session : Session) (places : List ι) :
    (w.bodies T c o session places = [] ∧
        ∀ results, (w.ended T c o session places).1 = .ok results → places = []) ∨
      ∃ q, (Saving.update o).bodies T (places.map w.records) = .ok q ∧
        w.bodies T c o session places = q.records := by
  by_cases hne : places.map w.records = []
  · left
    have he := (Saving.update o).ends_nil c T session
    rw [← hne] at he
    exact ⟨bodies_of_network he.network, fun _ _ => List.map_eq_nil_iff.mp hne⟩
  · cases hr : (Saving.update o).request c T (places.map w.records) with
    | error e =>
      left
      have he := Saving.ends_of_error session hne hr
      exact ⟨bodies_of_network he.network, fun results hok => nomatch he.eq_of_ok hok⟩
    | ok r =>
      rcases bodies_of_request session hne hr with ⟨hnil, hno⟩ | hq
      · exact .inl ⟨hnil, fun results hok => absurd hok (hno results)⟩
      · exact .inr hq

section Updates

variable (hn : (T.table.fields.map (·.apiName)).Nodup)
  (ha : "attributes" ∉ T.table.fields.map (·.apiName))

include hn ha

/-- The bodies of an update, each with the record at its place. -/
theorem updates_of_request (hm : o.sendAllFields = false) {rs : List α}
    (h : (Saving.update o).bodies T rs = .ok q) :
    (∀ b ∈ q.records, ∃ r ∈ rs, Updates T r b) ∧
      ∀ (k : Nat) r, rs[k]? = some r → ∃ b, q.records[k]? = some b ∧ Updates T r b := by
  obtain ⟨_, -, h⟩ := bind_eq_ok_iff.mp h
  obtain ⟨bs, hbs, h⟩ := bind_eq_ok_iff.mp h
  cases h
  have hmode : o.mode = .updateModified := by
    rw [UpdateOptions.mode, hm]
    rfl
  rw [hmode] at hbs
  constructor
  · intro b hb
    obtain ⟨r, hr, i, hi⟩ := mem_of_mapIndexed hbs hb
    exact ⟨r, hr, .of_updateBody hn ha hi⟩
  · intro k r hr
    obtain ⟨b, hb, hi⟩ := getElem?_of_mapIndexed hbs hr
    exact ⟨b, hb, .of_updateBody hn ha hi⟩

theorem updates_of_mem_bodies (hm : o.sendAllFields = false)
    (hb : b ∈ w.bodies T c o session places) : ∃ i, Updates T (w.records i) b := by
  rcases w.bodies_of_ended T c o session places with ⟨hnil, -⟩ | ⟨q, hq, hbs⟩
  · rw [hnil] at hb
    cases hb
  · rw [hbs] at hb
    obtain ⟨r, hr, hu⟩ := (updates_of_request hn ha hm hq).1 b hb
    obtain ⟨i, -, rfl⟩ := List.mem_map.mp hr
    exact ⟨i, hu⟩

theorem getElem?_bodies (hm : o.sendAllFields = false)
    (hok : (w.ended T c o session places).1 = .ok results) (k : Nat) (r : α)
    (hr : (places.map w.records)[k]? = some r) :
    ∃ b, (w.bodies T c o session places)[k]? = some b ∧ Updates T r b := by
  rcases w.bodies_of_ended T c o session places with ⟨-, hnil⟩ | ⟨q, hq, hbs⟩
  · rw [hnil results hok] at hr
    cases hr
  · rw [hbs]
    exact (updates_of_request hn ha hm hq).2 k r hr

variable (hT : T.MarksApart) (hi : Function.Injective ids)

include hT hi

theorem Synced.update (hm : o.sendAllFields = false) {places : List ι}
    (hr : places.map records' = (w.ended T c o session places).2.1)
    (ho : ∀ i ∉ places, records' i = w.records i)
    (hs : w.rows.Served (w.bodies T c o session places) (w.ended T c o session places).1 rows')
    (h : Synced T ids w) : Synced T ids ⟨records', rows'⟩ := by
  have hb : ∀ b ∈ w.bodies T c o session places, ∃ i, Updates T (w.records i) b :=
    fun b hb => updates_of_mem_bodies hn ha hm hb
  cases he : (w.ended T c o session places).1 with
  | error e =>
    -- The records are what they were, and the bodies that were applied have their values.
    rw [he] at hs
    obtain ⟨applied, hsub, rfl⟩ := hs
    have hr := hr.trans (Saving.records_of_error (s := .update o) he)
    have hsame : records' = w.records := by
      funext i
      by_cases hp : i ∈ places
      · exact List.map_inj_left.mp hr i hp
      · exact ho i hp
    subst hsame
    exact h.of_failed hi fun b hbm => hb b (hsub hbm)
  | ok results =>
    rw [he] at hs
    cases hs
    have hrec := (Saving.reconcile_of_ok (s := .update o) he).1
    apply h.of_confirmed hT hi
    · intro b hbm
      obtain ⟨p, hp, rfl⟩ := List.mem_map.mp hbm
      exact hb _ (List.of_mem_zip (List.mem_of_mem_filter hp)).1
    · exact same_or_confirmed (hr ▸ hrec) ho (getElem?_bodies hn ha hm he)

theorem Synced.step (hs : Step T w w') (h : Synced T ids w) : Synced T ids w' := by
  cases hs with
  | edit i hf hid hr ho => exact h.edit hn hf hid hr ho
  | update c session places hm hr ho hs => exact h.update hn ha hT hi hm hr ho hs

theorem Synced.run (hs : Relation.ReflTransGen (Step T) w w') (h : Synced T ids w) :
    Synced T ids w' := by
  induction hs with
  | refl => exact h
  | tail _ hs ih => exact ih.step hn ha hT hi hs

end Updates

/-- Setters and updates of changed fields lose nothing: if records and rows were the same before,
then after any steps every row has the value of its record in each field that can be updated and is
not marked as changed. -/
theorem unmarked_fields_agree (hT : T.MarksApart) (hn : (T.table.fields.map (·.apiName)).Nodup)
    (ha : "attributes" ∉ T.table.fields.map (·.apiName)) (h : Fresh T ids w)
    (hs : Relation.ReflTransGen (Step T) w w') (i : ι) (f : Schema.Field κ)
    (hf : f ∈ T.table.fields) (hu : f.isUpdated)
    (hm : ¬ (T.modified (w'.records i)).contains f.property) :
    T.id? (w'.records i) = some (ids i) ∧
      w'.rows (ids i) f.apiName = T.value (w'.records i) f.apiName := by
  have h' := h.synced.run hn ha hT h.distinct hs
  exact ⟨h'.id i, h'.follows i f hf hu (.inl hm)⟩

def nameField : Schema.Field Nat :=
  ⟨"name", "Name", .string, false, true, true, false, none⟩

def phoneField : Schema.Field Nat :=
  ⟨"phone", "Phone", .string, false, true, true, false, none⟩

def accounts : RecordType Nat Row :=
  Row.type (Schema.ofList [⟨"Account", [nameField, phoneField]⟩]) 0

def accountId (second : Bool) : String :=
  if second then "001000000000002AAA" else "001000000000001AAA"

/-- Two accounts that are the same on both sides. -/
def loaded : World Bool Row where
  records second := ⟨.obj [("Id", .str (accountId second)), ("Name", .str "Acme"),
    ("Phone", .str "1")], .empty⟩
  rows _ name := if name = "Name" then .str "Acme" else .str "1"

/-- The first account has got another name. -/
def renamed : World Bool Row where
  records second :=
    if second then loaded.records true
    else ((loaded.records false).put "Name" (.str "Globex")).mark "name"
  rows := loaded.rows

/-- The second account has lost its phone besides. -/
def edited : World Bool Row where
  records second :=
    if second then ((renamed.records true).remove "Phone").mark "phone"
    else renamed.records false
  rows := renamed.rows

def org : Connection :=
  ⟨"http://org", "token", "62.0", {}⟩

/-- A session in which the org confirms the first record of an update and refuses the second. -/
def refusing : Session :=
  let answer := "[\x7b\"success\":true\x7d,\x7b\"success\":false\x7d]"
  ⟨⟨fun _ => true, [.answer ⟨200, [], Text.utf8Bytes answer.toList⟩], []⟩, [], none⟩

/-- The org has refused an update of the second account. -/
def refused : World Bool Row :=
  edited.updated accounts org {} refusing [false, true]

theorem accountId_injective : Function.Injective accountId := by
  intro a b h
  cases a <;> cases b
  · rfl
  · exact absurd h (by decide)
  · exact absurd h (by decide)
  · rfl

theorem loaded_fresh : Fresh accounts accountId loaded where
  distinct := accountId_injective
  id _ := rfl
  same _ f hf _ := by
    rcases List.mem_cons.mp hf with rfl | hf
    · rfl
    · cases List.mem_singleton.mp hf
      rfl

theorem renamed_step : Step accounts loaded renamed :=
  .edit (f := nameField) false List.mem_cons_self (by decide)
    (Row.edited_put (by decide) (.str "Globex") _) fun second h =>
      match second, h with
      | true, _ => rfl

theorem edited_step : Step accounts renamed edited :=
  .edit (f := phoneField) true
    (List.mem_cons_of_mem nameField List.mem_cons_self) (by decide)
    (Row.edited_remove (by decide) _) fun second h =>
      match second, h with
      | false, _ => rfl

theorem refused_modified : accounts.modified (refused.records false) = .empty ∧
    accounts.modified (refused.records true) = .mark .empty "phone" ∧
    (refused.rows (accountId false) nameField.apiName).text? = some "Globex" := by
  decide +kernel

theorem refused_agrees :
    accounts.modified (refused.records false) = .empty ∧
      accounts.modified (refused.records true) = .mark .empty "phone" ∧
      (refused.rows (accountId false) nameField.apiName).text? = some "Globex" ∧
      refused.rows (accountId false) nameField.apiName =
        accounts.value (refused.records false) nameField.apiName := by
  obtain ⟨hf, hs, hrow⟩ := refused_modified
  have hu : Step accounts edited refused :=
    step_updated edited accounts org refusing (by decide) rfl
  have hsteps := ((Relation.ReflTransGen.single renamed_step).tail edited_step).tail hu
  have hm : ¬ (accounts.modified (refused.records false)).contains nameField.property := by
    rw [hf]
    decide
  have hT : accounts.MarksApart := Row.marksApart _ _
  have h := unmarked_fields_agree hT (by decide) (by decide) loaded_fresh hsteps false nameField
    List.mem_cons_self (by decide) hm
  exact ⟨hf, hs, hrow, h.2⟩

end World

end OrgClient
