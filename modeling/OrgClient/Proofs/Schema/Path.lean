import OrgClient.Proofs.Soql.Naming

namespace OrgClient.Schema

open Soql (FieldRef)
set_option autoImplicit true

namespace Table

/-- A field is the first of its table with a property. -/
def IsFirst (t : Table κ) (p : String) (f : Field κ) : Prop :=
  ∃ before after, t.fields = before ++ f :: after ∧ f.property = p ∧ ∀ g ∈ before, g.property ≠ p

def Lacks (t : Table κ) (p : String) : Prop :=
  ∀ f ∈ t.fields, f.property ≠ p

/-- A property stands for a parent relationship, which leads to a table. -/
def IsParent (t : Table κ) (p : String) (f : Field κ) (target : κ) : Prop :=
  t.IsFirst p f ∧ f.relation = some (.parent target)

/-- A property stands for a field that is no relationship. -/
def IsValue (t : Table κ) (p : String) (f : Field κ) : Prop :=
  t.IsFirst p f ∧ f.relation = none

/-- Why a property leads to no parent. -/
inductive NoParent (t : Table κ) (p : String) : String → Prop
  | unknown (h : t.Lacks p) : NoParent t p "unknown field"
  | child (h : t.IsFirst p f) (hr : f.relation = some (.child target)) :
    NoParent t p "is a child relationship; use subquery()"
  | value (h : t.IsValue p f) : NoParent t p "is not a reference field"

/-- Why a property stands for no field that can be written. -/
inductive NoValue (t : Table κ) (p : String) : String → Prop
  | unknown (h : t.Lacks p) : NoValue t p "unknown field"
  | relationship (h : t.IsFirst p f) (hr : f.relation = some relation) :
    NoValue t p "is a relationship; use parent() or subquery()"

theorem field?_eq_some_iff {t : Table κ} : t.field? p = some f ↔ t.IsFirst p f := by
  simp only [field?, List.find?_eq_some_iff_append, IsFirst, beq_iff_eq, Bool.not_eq_true',
    beq_eq_false_iff_ne]
  constructor
  · rintro ⟨hp, before, after, hf, hb⟩
    exact ⟨before, after, hf, hp, hb⟩
  · rintro ⟨before, after, hf, hp, hb⟩
    exact ⟨hp, before, after, hf, hb⟩

theorem field?_eq_none_iff {t : Table κ} : t.field? p = none ↔ t.Lacks p := by
  simp only [field?, List.find?_eq_none, Lacks, beq_iff_eq, ne_eq]

theorem IsFirst.mem {t : Table κ} (h : t.IsFirst p f) : f ∈ t.fields := by
  obtain ⟨before, after, hf, -, -⟩ := h
  rw [hf]
  exact List.mem_append_right before List.mem_cons_self

/-- With properties that are all different, each field is the first with its own. -/
theorem isFirst_of_mem {t : Table κ} (hd : (t.fields.map Field.property).Nodup)
    (hf : f ∈ t.fields) : t.IsFirst f.property f := by
  obtain ⟨before, after, ht⟩ := List.append_of_mem hf
  rw [ht, List.map_append, List.map_cons, List.nodup_append] at hd
  exact ⟨before, after, ht, rfl, fun g hg =>
    hd.2.2 _ (List.mem_map_of_mem hg) _ List.mem_cons_self⟩

end Table

/-- Parent relationships with some properties and names lead from a table to another. -/
inductive Leads (schema : Schema κ) : κ → List String → List String → κ → Prop
  | here (key : κ) : Leads schema key [] [] key
  | parent (h : (schema key).IsParent p f target) (hl : Leads schema target ps names last) :
    Leads schema key (p :: ps) (f.apiName :: names) last

/-- The first step of a path that fails, and why. All properties but the last have to lead to
parents, and the last has to stand for a value. -/
inductive Misstep (schema : Schema κ) : κ → List String → String → κ → String → String → Prop
  | value (h : (schema key).NoValue q reason) : Misstep schema key [] q key q reason
  | parent (h : (schema key).NoParent p reason) : Misstep schema key (p :: ps) q key p reason
  | behind (h : (schema key).IsParent p f target)
    (hm : Misstep schema target ps q place p' reason) :
    Misstep schema key (p :: ps) q place p' reason

namespace Resolver

/-- The resolver behind parent relationships. -/
def follow (r : Resolver κ) : List String → Except Soql.Error (Resolver κ)
  | [] => .ok r
  | p :: ps => do (← r.parent p).follow ps

/-- The reference to a field behind parent relationships. -/
def fieldBehind (r : Resolver κ) (ps : List String) (q : String) : Except Soql.Error FieldRef := do
  (← r.follow ps).field q

theorem lookup_eq_ok_iff {r : Resolver κ} : r.lookup p = .ok f ↔ r.table.IsFirst p f := by
  rw [← Table.field?_eq_some_iff, lookup]
  cases r.table.field? p with
  | none => exact ⟨nofun, nofun⟩
  | some g => rw [Except.ok.injEq, Option.some.injEq]

theorem lookup_eq_error_iff {r : Resolver κ} :
    r.lookup p = .error e ↔ r.table.Lacks p ∧ e = r.invalid p "unknown field" := by
  rw [← Table.field?_eq_none_iff, lookup]
  cases r.table.field? p with
  | none => simp only [Except.error.injEq, true_and, eq_comm]
  | some g => exact ⟨nofun, nofun⟩

theorem field_eq_ok_iff {r : Resolver κ} :
    r.field p = .ok ref ↔ ∃ f, r.table.IsValue p f ∧ ref = r.reference f := by
  rw [field, bind_eq_ok_iff]
  constructor
  · rintro ⟨f, hf, h⟩
    split at h
    · cases h
    · rename_i hr
      cases h
      exact ⟨f, ⟨lookup_eq_ok_iff.mp hf, Option.not_isSome_iff_eq_none.mp hr⟩, rfl⟩
  · rintro ⟨f, ⟨hf, hr⟩, rfl⟩
    refine ⟨f, lookup_eq_ok_iff.mpr hf, if_neg ?_⟩
    simp only [Field.isRelationship, hr, Option.isSome_none, Bool.false_eq_true, not_false_eq_true]

theorem field_eq_error_iff {r : Resolver κ} :
    r.field p = .error e ↔ ∃ reason, r.table.NoValue p reason ∧ e = r.invalid p reason := by
  rw [field, bind_eq_error_iff, lookup_eq_error_iff]
  constructor
  · rintro (⟨hl, rfl⟩ | ⟨f, hf, h⟩)
    · exact ⟨_, .unknown hl, rfl⟩
    · split at h
      · rename_i hr
        cases h
        obtain ⟨relation, hr⟩ := Option.isSome_iff_exists.mp hr
        exact ⟨_, .relationship (lookup_eq_ok_iff.mp hf) hr, rfl⟩
      · cases h
  · rintro ⟨reason, h, rfl⟩
    cases h with
    | unknown hl => exact .inl ⟨hl, rfl⟩
    | relationship hf hr =>
      exact .inr ⟨_, lookup_eq_ok_iff.mpr hf, if_pos (Option.isSome_of_eq_some hr)⟩

theorem parent_eq_ok_iff {r : Resolver κ} :
    r.parent p = .ok r' ↔ ∃ f target, r.table.IsParent p f target ∧
      r' = ⟨r.schema, target, r.path ++ [f.apiName], r.inSubquery⟩ := by
  rw [parent, bind_eq_ok_iff]
  constructor
  · rintro ⟨f, hf, h⟩
    split at h
    · rename_i target hr
      cases h
      exact ⟨f, target, ⟨lookup_eq_ok_iff.mp hf, hr⟩, rfl⟩
    · cases h
    · cases h
  · rintro ⟨f, target, ⟨hf, hr⟩, rfl⟩
    refine ⟨f, lookup_eq_ok_iff.mpr hf, ?_⟩
    rw [hr]

theorem parent_eq_error_iff {r : Resolver κ} :
    r.parent p = .error e ↔ ∃ reason, r.table.NoParent p reason ∧ e = r.invalid p reason := by
  rw [parent, bind_eq_error_iff, lookup_eq_error_iff]
  constructor
  · rintro (⟨hl, rfl⟩ | ⟨f, hf, h⟩)
    · exact ⟨_, .unknown hl, rfl⟩
    · have hf := lookup_eq_ok_iff.mp hf
      split at h
      · cases h
      · rename_i hr
        cases h
        exact ⟨_, .child hf hr, rfl⟩
      · rename_i hr
        cases h
        exact ⟨_, .value ⟨hf, hr⟩, rfl⟩
  · rintro ⟨reason, h, rfl⟩
    cases h with
    | unknown hl => exact .inl ⟨hl, rfl⟩
    | child hf hr =>
      refine .inr ⟨_, lookup_eq_ok_iff.mpr hf, ?_⟩
      rw [hr]
    | value hv =>
      refine .inr ⟨_, lookup_eq_ok_iff.mpr hv.1, ?_⟩
      rw [hv.2]

/-- A resolver can be followed along the paths of parents, and keeps their names. -/
theorem follow_eq_ok_iff {r : Resolver κ} :
    r.follow ps = .ok r' ↔ ∃ names last, Leads r.schema r.key ps names last ∧
      r' = ⟨r.schema, last, r.path ++ names, r.inSubquery⟩ := by
  induction ps generalizing r with
  | nil =>
    rw [follow]
    constructor
    · intro h
      cases h
      exact ⟨[], r'.key, .here r'.key, by rw [List.append_nil]⟩
    · rintro ⟨names, last, hl, rfl⟩
      cases hl
      rw [List.append_nil]
  | cons p ps ih =>
    -- The names on the way so far are a prefix of the path, which each step makes longer.
    rw [follow, bind_eq_ok_iff]
    simp only [parent_eq_ok_iff]
    constructor
    · rintro ⟨_, ⟨f, target, hp, rfl⟩, h⟩
      obtain ⟨names, last, hl, rfl⟩ := ih.mp h
      exact ⟨f.apiName :: names, last, .parent hp hl, by rw [List.append_assoc]; rfl⟩
    · rintro ⟨names, last, hl, rfl⟩
      cases hl with
      | parent hp hl =>
        refine ⟨_, ⟨_, _, hp, rfl⟩, ih.mpr ⟨_, last, hl, ?_⟩⟩
        rw [List.append_assoc]
        rfl

theorem fieldBehind_eq_ok_iff {r : Resolver κ} :
    r.fieldBehind ps q = .ok ref ↔ ∃ names last f, Leads r.schema r.key ps names last ∧
      (r.schema last).IsValue q f ∧
      ref = reference ⟨r.schema, last, r.path ++ names, r.inSubquery⟩ f := by
  rw [fieldBehind, bind_eq_ok_iff]
  simp only [follow_eq_ok_iff, field_eq_ok_iff]
  constructor
  · rintro ⟨_, ⟨names, last, hl, rfl⟩, f, hf, rfl⟩
    exact ⟨names, last, f, hl, hf, rfl⟩
  · rintro ⟨names, last, f, hl, hf, rfl⟩
    exact ⟨_, ⟨names, last, hl, rfl⟩, f, hf, rfl⟩

theorem fieldBehind_cons (r : Resolver κ) (p : String) (ps : List String) (q : String) :
    r.fieldBehind (p :: ps) q = r.parent p >>= fun place => place.fieldBehind ps q := by
  rw [fieldBehind, follow]
  cases r.parent p <;> rfl

/-- A path is refused at its first misstep. -/
theorem fieldBehind_eq_error_iff {r : Resolver κ} :
    r.fieldBehind ps q = .error e ↔ ∃ place p reason, Misstep r.schema r.key ps q place p reason ∧
      e = .invalidFieldReference (r.schema place).apiName p reason := by
  induction ps generalizing r with
  | nil =>
    change r.field q = .error e ↔ _
    rw [field_eq_error_iff]
    constructor
    · rintro ⟨reason, h, rfl⟩
      exact ⟨r.key, q, reason, .value h, rfl⟩
    · rintro ⟨place, p, reason, hm, rfl⟩
      cases hm with
      | value h => exact ⟨reason, h, rfl⟩
  | cons p ps ih =>
    rw [fieldBehind_cons, bind_eq_error_iff]
    simp only [parent_eq_ok_iff, parent_eq_error_iff]
    constructor
    · rintro (⟨reason, h, rfl⟩ | ⟨_, ⟨f, target, hp, rfl⟩, h⟩)
      · exact ⟨r.key, p, reason, .parent h, rfl⟩
      · obtain ⟨place, p', reason, hm, rfl⟩ := ih.mp h
        exact ⟨place, p', reason, .behind hp hm, rfl⟩
    · rintro ⟨place, p', reason, hm, rfl⟩
      cases hm with
      | parent h => exact .inl ⟨reason, h, rfl⟩
      | behind hp hm => exact .inr ⟨_, ⟨_, _, hp, rfl⟩, ih.mpr ⟨place, p', reason, hm, rfl⟩⟩

/-- References are written as the names on the way to their fields, between dots. -/
theorem render_reference (r : Resolver κ) (f : Field κ) :
    (r.reference f).render = ".".intercalate (r.path ++ [f.apiName]) := by
  rw [reference]
  cases r.path with
  | nil => exact String.intercalate_singleton.symm
  | cons name names =>
    rw [String.intercalate_append_of_ne_nil (List.cons_ne_nil _ _) (List.cons_ne_nil _ _),
      String.intercalate_singleton]
    rfl

/-- With properties that are all different, the list of all fields is what their properties give. -/
theorem map_field_eq (r : Resolver κ) (hd : (r.table.fields.map Field.property).Nodup) :
    ((r.table.fields.filter (!·.isRelationship)).map fun f => r.field f.property) =
      r.all.map .ok := by
  rw [all, List.map_map]
  refine List.map_congr_left fun f hf => ?_
  obtain ⟨hf, hr⟩ := List.mem_filter.mp hf
  refine field_eq_ok_iff.mpr ⟨f, ⟨Table.isFirst_of_mem hd hf, ?_⟩, rfl⟩
  simpa [Field.isRelationship] using hr

end Resolver

/-- Tables of which all names of fields can stand in a query. -/
def Named (schema : Schema κ) : Prop :=
  ∀ key, ∀ f ∈ (schema key).fields, Text.isName f.apiName

theorem isPath_intercalate (hne : names ≠ []) (h : ∀ s ∈ names, Text.isName s) :
    Text.isPath (".".intercalate names) := by
  rw [Text.isPath, Soql.splitOn_dots hne h, List.all_map]
  exact List.all_eq_true.mpr h

theorem Leads.isName {schema : Schema κ} (hn : Named schema)
    (hl : Leads schema key ps names last) : ∀ s ∈ names, Text.isName s := by
  induction hl with
  | here key => exact fun s hs => absurd hs List.not_mem_nil
  | parent h hl ih => exact List.forall_mem_cons.mpr ⟨hn _ _ h.1.mem, ih⟩

namespace Resolver

theorem isPath_reference {schema : Schema κ} {key : κ} (hn : Named schema)
    (hr : (root schema key).follow ps = .ok r) (hf : f ∈ r.table.fields) :
    Text.isPath (r.reference f).render := by
  obtain ⟨names, last, hl, rfl⟩ := follow_eq_ok_iff.mp hr
  rw [render_reference]
  refine isPath_intercalate (List.append_ne_nil_of_right_ne_nil _ (List.cons_ne_nil _ _)) ?_
  exact List.forall_mem_append.mpr
    ⟨hl.isName hn, List.forall_mem_singleton.mpr (hn last f hf)⟩

/-- How a resolver for a table answers to a path of properties. -/
structure AnswersPath (schema : Schema κ) (key : κ) (ps : List String) : Prop where
  found : ∀ q text, ((root schema key).fieldBehind ps q).map FieldRef.render = .ok text ↔
    ∃ names last f, Leads schema key ps names last ∧ (schema last).IsValue q f ∧
      text = ".".intercalate (names ++ [f.apiName])
  refused : ∀ q e, (root schema key).fieldBehind ps q = .error e ↔
    ∃ place p reason, Misstep schema key ps q place p reason ∧
      e = .invalidFieldReference (schema place).apiName p reason
  listed : ∀ r, (root schema key).follow ps = .ok r →
    (r.table.fields.map Field.property).Nodup →
    ((r.table.fields.filter (!·.isRelationship)).map fun f => r.field f.property) = r.all.map .ok
  safe : Named schema →
    (∀ q ref, (root schema key).fieldBehind ps q = .ok ref → Text.isPath ref.render) ∧
    ∀ r, (root schema key).follow ps = .ok r → ∀ ref ∈ r.all, Text.isPath ref.render

/-- In every system of tables, the fields that can be written are those that parent relationships
lead to, with the names on the way; any other path is refused at its first misstep. -/
theorem answers_path (schema : Schema κ) (key : κ) (ps : List String) :
    AnswersPath schema key ps where
  found q text := by
    rw [map_eq_ok_iff]
    simp only [fieldBehind_eq_ok_iff]
    constructor
    · rintro ⟨_, ⟨names, last, f, hl, hf, rfl⟩, rfl⟩
      exact ⟨names, last, f, hl, hf, render_reference _ f⟩
    · rintro ⟨names, last, f, hl, hf, rfl⟩
      exact ⟨_, ⟨names, last, f, hl, hf, rfl⟩, render_reference _ f⟩
  refused q e := fieldBehind_eq_error_iff
  listed r _ hd := r.map_field_eq hd
  safe hn := by
    refine ⟨fun q ref h => ?_, fun r hr ref h => ?_⟩
    · obtain ⟨r, hr, h⟩ := bind_eq_ok_iff.mp h
      obtain ⟨f, hf, rfl⟩ := field_eq_ok_iff.mp h
      exact isPath_reference hn hr hf.1.mem
    · obtain ⟨f, hf, rfl⟩ := List.mem_map.mp h
      exact isPath_reference hn hr (List.mem_filter.mp hf).1

/-- Users, whose managers are users. -/
def users : Schema Nat :=
  Schema.ofList [⟨"User",
    [⟨"manager", "Manager", .reference, false, false, false, false, some (.parent 0)⟩,
      ⟨"name", "Name", .string, false, false, false, false, none⟩]⟩]

example : ((root users 0).fieldBehind ["manager", "manager"] "name").map FieldRef.render =
    .ok "Manager.Manager.Name" := by
  rfl

example : (root users 0).fieldBehind ["manager", "name", "manager"] "name" =
    .error (.invalidFieldReference "User" "name" "is not a reference field") := by
  rfl

end Resolver

end OrgClient.Schema
