import OrgClient.Proofs.Soql.Composing

namespace OrgClient.Soql

open Number Text
set_option autoImplicit true

/-- What has to be shown for a property of all conditions and one of all queries. -/
structure DepthStep (P : Condition → Prop) (Q : Query → Prop) : Prop where
  compare : ∀ field op value, P (.compare field op value)
  oneOf : ∀ field op values, P (.oneOf field op values)
  within : ∀ field op query, Q query → P (.within field op query)
  group : ∀ op children negated, (∀ c ∈ children, P c) → P (.group op children negated)
  query : ∀ q : Query, (∀ c ∈ q.clauses.filter, P c) →
    (∀ g ∈ q.clauses.grouping, ∀ c ∈ g.having, P c) → Q q

mutual

theorem Condition.depth_induction (step : DepthStep P Q) : ∀ c, P c
  | .compare field op value => step.compare field op value
  | .oneOf field op values => step.oneOf field op values
  | .within field op q => step.within field op q (q.depth_induction step)
  | .group op children negated =>
    step.group op children negated (depth_induction_all step children)

theorem depth_induction_all (step : DepthStep P Q) : ∀ cs : List Condition, ∀ c ∈ cs, P c
  | [] => nofun
  | c :: cs => List.forall_mem_cons.mpr ⟨c.depth_induction step, depth_induction_all step cs⟩

theorem depth_induction_option (step : DepthStep P Q) : ∀ o : Option Condition, ∀ c ∈ o, P c
  | none => nofun
  | some c => fun _ h => Option.some.inj h ▸ c.depth_induction step

theorem Grouping.depth_induction (step : DepthStep P Q) :
    ∀ o : Option Grouping, ∀ g ∈ o, ∀ c ∈ g.having, P c
  | none => nofun
  | some ⟨_, _, having⟩ => fun _ h => Option.some.inj h ▸ depth_induction_option step having

/-- Induction over queries, with the conditions in them and the queries in those. -/
theorem Query.depth_induction (step : DepthStep P Q) : ∀ q, Q q
  | ⟨_, ⟨_, filter, grouping, _, _, _, _, _⟩⟩ =>
    step.query _ (depth_induction_option step filter) (Grouping.depth_induction step grouping)

end

/-- A literal that has a text: a number is finite. -/
def Literal.Writable : Literal → Prop
  | .number x => x.isFinite
  | _ => True

mutual

/-- Conditions without defects: patterns are strings, all numbers are finite, and no list of values
and no group is empty. -/
inductive Condition.WellFormed : Condition → Prop
  | compare (hp : op = .like → value.isString) (hv : value.Writable) :
    Condition.WellFormed (.compare field op value)
  | oneOf (hne : values ≠ []) (hv : ∀ v ∈ values, Literal.Writable v) :
    Condition.WellFormed (.oneOf field op values)
  | within (hq : Query.WellFormed query) : Condition.WellFormed (.within field op query)
  | group (hne : children ≠ []) (hc : ∀ c ∈ children, Condition.WellFormed c) :
    Condition.WellFormed (.group op children negated)

/-- Queries without defects: there is a column, the table has a name, what is grouped is grouped by
some field, and the conditions are without defects. -/
inductive Query.WellFormed : Query → Prop
  | mk {q : Query} (select : q.clauses.select ≠ []) (target : ∃ c ∈ q.target.toList, !isBlank c)
    (filter : ∀ c ∈ q.clauses.filter, Condition.WellFormed c)
    (grouped : ∀ g ∈ q.clauses.grouping, g.fields ≠ [])
    (having : ∀ g ∈ q.clauses.grouping, ∀ c ∈ g.having, Condition.WellFormed c) :
    Query.WellFormed q

end

/-- A defect, if it is there. -/
def defectIf (present : Bool) (e : Error) : List Error :=
  if present then [e] else []

def Literal.defects : Literal → List Error
  | .number x =>
    defectIf (!x.isFinite) (.literalType ("non-finite number " ++ Layout.plain.text x))
  | _ => []

mutual

/-- All defects of a condition, from left to right. -/
def Condition.defects : Condition → List Error
  | .compare field op value =>
    defectIf (op = .like && !value.isString)
      (.literalType ("LIKE on " ++ field.render ++ " needs a string pattern")) ++ value.defects
  | .oneOf field _ values =>
    defectIf values.isEmpty (.emptyListOperand field.render) ++ values.flatMap Literal.defects
  | .within _ _ query => query.defects
  | .group _ children _ =>
    defectIf children.isEmpty .emptyConditionGroup ++ Condition.defectsAll children

def Condition.defectsAll : List Condition → List Error
  | [] => []
  | c :: cs => c.defects ++ Condition.defectsAll cs

def Condition.defectsOption : Option Condition → List Error
  | none => []
  | some c => c.defects

def Grouping.defectsOption : Option Grouping → List Error
  | none => []
  | some ⟨fields, _, having⟩ =>
    defectIf fields.isEmpty .emptyGroupBy ++ Condition.defectsOption having

/-- All defects of a query, in the order of its clauses. -/
def Query.defects : Query → List Error
  | ⟨target, ⟨select, filter, grouping, _, _, _, _, _⟩⟩ =>
    defectIf select.isEmpty .missingSelectFields ++
      (defectIf (isBlankText target) .missingFromTarget ++
        (Condition.defectsOption filter ++ Grouping.defectsOption grouping))

end

theorem Query.defects_eq (q : Query) :
    q.defects = defectIf q.clauses.select.isEmpty .missingSelectFields ++
      (defectIf (isBlankText q.target) .missingFromTarget ++
        (Condition.defectsOption q.clauses.filter ++
          Grouping.defectsOption q.clauses.grouping)) := by
  obtain ⟨target, select, filter, grouping, order, limit, offset, purposes, statistics⟩ := q
  rw [defects]

/-- An outcome that is the first of some errors, or a result if there are none. -/
inductive Reports : Except ε α → List ε → Prop
  | ok (a : α) : Reports (.ok a) []
  | error (e : ε) (es : List ε) : Reports (.error e) (e :: es)

namespace Reports

theorem bind (hx : Reports x es) (hf : ∀ a, Reports (f a) fs) : Reports (x >>= f) (es ++ fs) := by
  cases hx with
  | ok a => exact hf a
  | error e es => exact .error e (es ++ fs)

theorem bind_ok {x : Except ε α} (hx : Reports x es) (f : α → β) :
    Reports (x >>= fun a => .ok (f a)) es := by
  have h : Reports (x >>= fun a => .ok (f a)) (es ++ []) := hx.bind fun a => .ok (f a)
  rwa [List.append_nil] at h

theorem check {present : Bool} (h : Reports x es) :
    Reports (if present then .error e else x) (defectIf present e ++ es) := by
  cases present with
  | false => exact h
  | true => exact .error e es

theorem exists_ok_iff (h : Reports x es) : (∃ a, x = .ok a) ↔ es = [] := by
  cases h with
  | ok a => exact ⟨fun _ => rfl, fun _ => ⟨a, rfl⟩⟩
  | error e es => exact ⟨nofun, nofun⟩

theorem eq_error_iff (h : Reports x es) : x = .error e ↔ es.head? = some e := by
  cases h with
  | ok a => exact ⟨nofun, nofun⟩
  | error e' es =>
    rw [List.head?_cons, Option.some.injEq]
    exact ⟨Except.error.inj, congrArg Except.error⟩

end Reports

theorem Literal.reports (v : Literal) : Reports v.render v.defects := by
  cases v with
  | number x =>
    rw [render, defects]
    cases x.isFinite with
    | true => exact .ok _
    | false => exact .error _ []
  | boolean b => cases b <;> exact .ok _
  | _ => exact .ok _

theorem Literal.reports_all (vs : List Literal) : Reports (renderAll vs) (vs.flatMap defects) := by
  induction vs with
  | nil => exact .ok []
  | cons v vs ih =>
    rw [renderAll, List.flatMap_cons]
    exact v.reports.bind fun s => ih.bind_ok (s :: ·)

theorem Condition.reports_parts (h : ∀ c ∈ cs, Reports (render c) c.defects) :
    Reports (renderParts cs) (defectsAll cs) := by
  induction cs with
  | nil =>
    rw [renderParts, defectsAll]
    exact .ok []
  | cons c cs ih =>
    rw [renderParts, defectsAll]
    exact (h c List.mem_cons_self).bind fun s =>
      (ih fun d hd => h d (List.mem_cons_of_mem _ hd)).bind_ok _

theorem Grouping.reports (g : Grouping) (h : ∀ c ∈ g.having, Reports c.render c.defects) :
    Reports g.render (defectsOption (some g)) := by
  obtain ⟨fields, subtotals, having⟩ := g
  rw [render_eq, defectsOption]
  apply Reports.check
  cases having with
  | none =>
    rw [Condition.defectsOption]
    exact .ok _
  | some c =>
    rw [Condition.defectsOption]
    exact (h c rfl).bind_ok _

theorem Clauses.reports_filter (c : Clauses) (h : ∀ d ∈ c.filter, Reports d.render d.defects) :
    Reports c.filterText (Condition.defectsOption c.filter) := by
  rw [filterText]
  cases hf : c.filter with
  | none =>
    rw [Condition.defectsOption]
    exact .ok ""
  | some d =>
    rw [Condition.defectsOption]
    exact (h d hf).bind_ok _

theorem Clauses.reports_grouping (c : Clauses)
    (h : ∀ g ∈ c.grouping, ∀ d ∈ g.having, Reports d.render d.defects) :
    Reports c.groupingText (Grouping.defectsOption c.grouping) := by
  rw [groupingText]
  cases hg : c.grouping with
  | none =>
    rw [Grouping.defectsOption]
    exact .ok ""
  | some g => exact (g.reports (h g hg)).bind_ok _

/-- Composing stops at the first defect, in conditions and in queries. -/
theorem depthStep_reports :
    DepthStep (fun c => Reports c.render c.defects) (fun q => Reports q.compose q.defects) where
  compare field op value := by
    rw [Condition.render, renderComparison, Condition.defects]
    exact (value.reports.bind_ok _).check
  oneOf field op values := by
    rw [Condition.render, Condition.defects]
    exact ((Literal.reports_all values).bind_ok _).check
  within field op query h := by
    rw [Condition.render, Condition.defects]
    exact h.bind_ok _
  group op children negated h := by
    rw [Condition.render, Condition.defects]
    exact ((Condition.reports_parts h).bind_ok _).check
  query q hf hh := by
    rw [Query.compose_eq, Query.defects_eq]
    refine .check (.check (.bind (q.clauses.reports_filter hf) fun s => ?_))
    exact (q.clauses.reports_grouping hh).bind_ok _

theorem defectIf_eq_nil_iff : defectIf present e = [] ↔ present = false := by
  cases present with
  | false => exact ⟨fun _ => rfl, fun _ => rfl⟩
  | true => exact ⟨nofun, nofun⟩

theorem isBlankText_eq_false_iff : isBlankText s = false ↔ ∃ c ∈ s.toList, !isBlank c := by
  rw [isBlankText, List.all_eq_false]
  simp only [Bool.not_eq_true, Bool.not_eq_true']

theorem Literal.defects_eq_nil_iff (v : Literal) : v.defects = [] ↔ v.Writable := by
  cases v with
  | number x =>
    rw [defects, defectIf_eq_nil_iff, Bool.not_eq_false']
    rfl
  | _ => exact ⟨fun _ => trivial, fun _ => rfl⟩

theorem Condition.defectsAll_eq_flatMap (cs : List Condition) :
    defectsAll cs = cs.flatMap defects := by
  induction cs with
  | nil => rw [defectsAll, List.flatMap_nil]
  | cons c cs ih => rw [defectsAll, List.flatMap_cons, ih]

theorem Condition.defectsOption_eq_nil_iff {o : Option Condition} :
    defectsOption o = [] ↔ ∀ c ∈ o, c.defects = [] := by
  cases o with
  | none =>
    rw [defectsOption]
    exact ⟨fun _ => nofun, fun _ => rfl⟩
  | some c =>
    rw [defectsOption]
    simp

theorem Grouping.defectsOption_eq_nil_iff {o : Option Grouping} :
    defectsOption o = [] ↔ ∀ g ∈ o, g.fields ≠ [] ∧ ∀ c ∈ g.having, c.defects = [] := by
  cases o with
  | none =>
    rw [defectsOption]
    exact ⟨fun _ => nofun, fun _ => rfl⟩
  | some g =>
    obtain ⟨fields, subtotals, having⟩ := g
    rw [defectsOption, List.append_eq_nil_iff, defectIf_eq_nil_iff,
      Condition.defectsOption_eq_nil_iff]
    simp

/-- What has no defects is well formed, and the other way round. -/
theorem depthStep_defects :
    DepthStep (fun c => c.defects = [] ↔ c.WellFormed)
      (fun q => q.defects = [] ↔ q.WellFormed) where
  compare field op value := by
    rw [Condition.defects, List.append_eq_nil_iff, defectIf_eq_nil_iff, value.defects_eq_nil_iff]
    constructor
    · rintro ⟨hp, hv⟩
      exact .compare (by simpa using hp) hv
    · intro h
      cases h with
      | compare hp hv => exact ⟨by simpa using hp, hv⟩
  oneOf field op values := by
    simp only [Condition.defects, List.append_eq_nil_iff, defectIf_eq_nil_iff,
      List.isEmpty_eq_false_iff, List.flatMap_eq_nil_iff, Literal.defects_eq_nil_iff]
    constructor
    · rintro ⟨hne, hv⟩
      exact .oneOf hne hv
    · intro h
      cases h with
      | oneOf hne hv => exact ⟨hne, hv⟩
  within field op query h := by
    rw [Condition.defects, h]
    exact ⟨.within, fun | .within hq => hq⟩
  group op children negated h := by
    simp only [Condition.defects, List.append_eq_nil_iff, defectIf_eq_nil_iff,
      List.isEmpty_eq_false_iff, Condition.defectsAll_eq_flatMap, List.flatMap_eq_nil_iff]
    constructor
    · rintro ⟨hne, hc⟩
      exact .group hne fun c hm => (h c hm).mp (hc c hm)
    · intro hw
      cases hw with
      | group hne hc => exact ⟨hne, fun c hm => (h c hm).mpr (hc c hm)⟩
  query q hf hh := by
    simp only [Query.defects_eq, List.append_eq_nil_iff, defectIf_eq_nil_iff,
      List.isEmpty_eq_false_iff, isBlankText_eq_false_iff, Condition.defectsOption_eq_nil_iff,
      Grouping.defectsOption_eq_nil_iff]
    constructor
    · rintro ⟨hs, ht, hc, hg⟩
      exact .mk hs ht (fun c hm => (hf c hm).mp (hc c hm)) (fun g hm => (hg g hm).1)
        fun g hm c hm' => (hh g hm c hm').mp ((hg g hm).2 c hm')
    · intro hw
      cases hw with
      | mk hs ht hc hg hd =>
        exact ⟨hs, ht, fun c hm => (hf c hm).mpr (hc c hm), fun g hm =>
          ⟨hg g hm, fun c hm' => (hh g hm c hm').mpr (hd g hm c hm')⟩⟩

/-- A query is composed exactly if it is well formed, and else its first defect is reported. -/
theorem Query.compose_reports_first_defect (q : Query) :
    ((∃ text, q.compose = .ok text) ↔ q.WellFormed) ∧
      ∀ e, q.compose = .error e ↔ q.defects.head? = some e := by
  have hr := q.depth_induction depthStep_reports
  refine ⟨hr.exists_ok_iff.trans (q.depth_induction depthStep_defects), fun e => hr.eq_error_iff⟩

example : (Condition.all [.compare (.plain "Name") .like .null, .any []]).defects =
    [.literalType "LIKE on Name needs a string pattern", .emptyConditionGroup] := by
  decide +kernel

end OrgClient.Soql
