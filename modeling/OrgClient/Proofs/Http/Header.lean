import Mathlib.Data.List.Induction
import OrgClient.Http.Request

namespace OrgClient.Http

open Text
set_option autoImplicit true

namespace Headers

/-- Whether a header has a name, in any case. -/
def isNamed (name : String) (p : String × String) : Bool :=
  equalsIgnoringCase p.1 name

theorem isNamed_iff : isNamed name p = true ↔ lowerAscii p.1 = lowerAscii name :=
  beq_iff_eq

theorem isNamed_self (p : String × String) : isNamed p.1 p = true :=
  isNamed_iff.mpr rfl

theorem isNamed_comm (p q : String × String) : isNamed p.1 q = isNamed q.1 p :=
  Bool.beq_comm

/-- Who has the name of a header has its names in any case. -/
theorem isNamed_congr (h : isNamed name p = true) : isNamed p.1 = isNamed name := by
  funext q
  rw [isNamed, isNamed, equalsIgnoringCase, equalsIgnoringCase, isNamed_iff.mp h]

/-- The settings that no later one of the same name replaces, in order. -/
def lastSettings : List (String × String) → Headers
  | [] => []
  | p :: ps => if ps.any (isNamed p.1) then lastSettings ps else p :: lastSettings ps

theorem lastSettings_of_any (h : ps.any (isNamed p.1) = true) :
    lastSettings (p :: ps) = lastSettings ps := by
  rw [lastSettings, if_pos h]

theorem lastSettings_of_not_any (h : ps.any (isNamed p.1) = false) :
    lastSettings (p :: ps) = p :: lastSettings ps := by
  rw [lastSettings, h, if_neg Bool.false_ne_true]

theorem lastSettings_sublist (ps : List (String × String)) : (lastSettings ps).Sublist ps := by
  induction ps with
  | nil => exact .slnil
  | cons p ps ih =>
    cases h : ps.any (isNamed p.1) with
    | true =>
      rw [lastSettings_of_any h]
      exact ih.cons p
    | false =>
      rw [lastSettings_of_not_any h]
      exact ih.cons_cons p

theorem set_cons_of_named (h : isNamed name p = true) (hs : Headers) (value : String) :
    set (p :: hs) name value = set hs name value := by
  have hp : (!equalsIgnoringCase p.1 name) = false := congrArg not h
  rw [set, set, List.filter_cons, hp, if_neg Bool.false_ne_true]

theorem set_cons_of_not_named (h : isNamed name p = false) (hs : Headers) (value : String) :
    set (p :: hs) name value = p :: set hs name value := by
  have hp : (!equalsIgnoringCase p.1 name) = true := congrArg not h
  rw [set, set, List.filter_cons, if_pos hp, List.cons_append]

/-- To set a name takes what is left of its settings away. -/
theorem lastSettings_concat (ps : List (String × String)) (p : String × String) :
    lastSettings (ps ++ [p]) = set (lastSettings ps) p.1 p.2 := by
  induction ps with
  | nil => rfl
  | cons q ps ih =>
    have ha : (ps ++ [p]).any (isNamed q.1) = (ps.any (isNamed q.1) || isNamed q.1 p) := by simp
    rw [List.cons_append]
    -- A setting of the same name is left out on both sides; another one is kept by both or by none.
    cases hp : isNamed q.1 p with
    | true =>
      have hq : isNamed p.1 q = true := (isNamed_comm p q).trans hp
      rw [lastSettings_of_any (by rw [ha, hp, Bool.or_true]), ih]
      cases h : ps.any (isNamed q.1) with
      | true => rw [lastSettings_of_any h]
      | false => rw [lastSettings_of_not_any h, set_cons_of_named hq]
    | false =>
      have hq : isNamed p.1 q = false := (isNamed_comm p q).trans hp
      rw [hp, Bool.or_false] at ha
      cases h : ps.any (isNamed q.1) with
      | true => rw [lastSettings_of_any (ha.trans h), lastSettings_of_any h, ih]
      | false =>
        rw [lastSettings_of_not_any (ha.trans h), lastSettings_of_not_any h,
          set_cons_of_not_named hq, ih]

/-- Headers that are set one by one are the settings that were not replaced. -/
theorem foldl_set (ps : List (String × String)) :
    ps.foldl (fun hs p => set hs p.1 p.2) [] = lastSettings ps := by
  induction ps using List.reverseRecOn with
  | nil => rfl
  | append_singleton ps p ih =>
    rw [List.foldl_append, ih, lastSettings_concat, List.foldl_cons, List.foldl_nil]

theorem lastSettings_pairwise (ps : List (String × String)) :
    (lastSettings ps).Pairwise fun p q => isNamed p.1 q = false := by
  induction ps with
  | nil => exact .nil
  | cons p ps ih =>
    cases h : ps.any (isNamed p.1) with
    | true =>
      rw [lastSettings_of_any h]
      exact ih
    | false =>
      rw [lastSettings_of_not_any h]
      refine List.pairwise_cons.mpr ⟨fun q hq => ?_, ih⟩
      have hn := List.any_eq_false.mp h q ((lastSettings_sublist ps).subset hq)
      exact Bool.eq_false_iff.mpr hn

/-- What is left of the settings of a name is the last of them. -/
theorem filter_lastSettings (ps : List (String × String)) (name : String) :
    (lastSettings ps).filter (isNamed name) = (ps.filter (isNamed name)).getLast?.toList := by
  induction ps with
  | nil => rfl
  | cons p ps ih =>
    by_cases hp : isNamed name p
    · have hc : ps.any (isNamed p.1) = ps.any (isNamed name) := by rw [isNamed_congr hp]
      rw [List.filter_cons_of_pos hp]
      cases h : ps.any (isNamed name) with
      | true =>
        have hne : ps.filter (isNamed name) ≠ [] := by
          obtain ⟨q, hq, hn⟩ := List.any_eq_true.mp h
          exact List.ne_nil_of_mem (List.mem_filter.mpr ⟨hq, hn⟩)
        rw [lastSettings_of_any (hc.trans h), ih, List.getLast?_cons_of_ne_nil hne]
      | false =>
        have hn : ps.filter (isNamed name) = [] :=
          List.filter_eq_nil_iff.mpr (List.any_eq_false.mp h)
        rw [lastSettings_of_not_any (hc.trans h), List.filter_cons_of_pos hp, ih, hn]
        rfl
    · rw [List.filter_cons_of_neg hp, ← ih]
      cases h : ps.any (isNamed p.1) with
      | true => rw [lastSettings_of_any h]
      | false => rw [lastSettings_of_not_any h, List.filter_cons_of_neg hp]

end Headers

namespace Request

open Headers (isNamed lastSettings)

/-- A call that builds on a request. A body is a JSON value, or what one is made of. -/
inductive Step where
  | header (name value : String)
  | json (body : Json)
  | batchSize (size : Nat)
  | query (name value : String)
  | bearer (token : String)

namespace Step

def apply (r : Request) : Step → Request
  | header name value => r.header name value
  | json body => r.json body
  | batchSize size => r.batchSize size
  | query name value => r.query name value
  | bearer token => r.bearer token

/-- The header that a call sets. -/
def setting? : Step → Option (String × String)
  | header name value => some (name, value)
  | json _ => some ("Content-Type", "application/json")
  | batchSize size => some ("Sforce-Query-Options", "batchSize=" ++ Number.natText size)
  | query _ _ => none
  | bearer _ => none

theorem headers_apply (r : Request) (step : Step) :
    (step.apply r).headers =
      step.setting?.elim r.headers fun p => r.headers.set p.1 p.2 := by
  cases step <;> rfl

end Step

def built (method : Method) (url : String) (steps : List Step) : Request :=
  steps.foldl Step.apply { method, url }

def settings (steps : List Step) : List (String × String) :=
  steps.filterMap Step.setting?

theorem headers_foldl (r : Request) (steps : List Step) :
    (steps.foldl Step.apply r).headers =
      (settings steps).foldl (fun hs p => hs.set p.1 p.2) r.headers := by
  induction steps generalizing r with
  | nil => rfl
  | cons step steps ih =>
    rw [List.foldl_cons, ih, step.headers_apply, settings, settings, List.filterMap_cons]
    cases step.setting? <;> rfl

theorem headers_built (method : Method) (url : String) (steps : List Step) :
    (built method url steps).headers = lastSettings (settings steps) := by
  rw [built, headers_foldl, Headers.foldl_set]

/-- The header that every body sets. -/
def jsonType : String × String :=
  ("Content-Type", "application/json")

/-- Calls that set no header by the name of the type. -/
def KeepsType (steps : List Step) : Prop :=
  ∀ name value, .header name value ∈ steps → equalsIgnoringCase name "Content-Type" = false

theorem KeepsType.eq_jsonType (h : KeepsType steps) (hp : p ∈ settings steps)
    (hn : isNamed "Content-Type" p = true) : p = jsonType := by
  obtain ⟨step, hs, hstep⟩ := List.mem_filterMap.mp hp
  cases step with
  | header name value =>
    cases hstep
    rw [isNamed, h name value hs] at hn
    cases hn
  | json body =>
    cases hstep
    rfl
  | batchSize size =>
    cases hstep
    have hne : lowerAscii "Sforce-Query-Options" ≠ lowerAscii "Content-Type" := by decide
    exact absurd (Headers.isNamed_iff.mp hn) hne
  | query name value => cases hstep
  | bearer token => cases hstep

theorem KeepsType.getLast?_types (h : KeepsType after) (before : List Step) (body : Json) :
    ((settings (before ++ .json body :: after)).filter (isNamed "Content-Type")).getLast? =
      some jsonType := by
  have hs : settings (before ++ .json body :: after) =
      settings before ++ jsonType :: settings after := by
    rw [settings, List.filterMap_append]
    rfl
  have hl : ∀ p ∈ jsonType :: (settings after).filter (isNamed "Content-Type"), p = jsonType := by
    intro p hp
    rcases List.mem_cons.mp hp with hp | hp
    · exact hp
    · obtain ⟨hp, hn⟩ := List.mem_filter.mp hp
      exact h.eq_jsonType hp hn
  have hne : jsonType :: (settings after).filter (isNamed "Content-Type") ≠ [] :=
    List.cons_ne_nil _ _
  have hj : isNamed "Content-Type" jsonType = true := Headers.isNamed_self jsonType
  rw [hs, List.filter_append, List.filter_cons_of_pos hj, List.getLast?_append,
    List.getLast?_eq_some_getLast hne, Option.some_or, hl _ (List.getLast_mem hne)]

/-- The headers of a built request are the last settings of their names, in the order of the calls
that made them. No two have the same name, and for each name there is its last setting, if it was
set. Behind a body the type is that of JSON, as long as no header with its name is set. -/
theorem headers_are_last_settings (method : Method) (url : String) (steps : List Step) :
    (built method url steps).headers = lastSettings (settings steps) ∧
      (built method url steps).headers.Pairwise (fun p q => isNamed p.1 q = false) ∧
      (∀ name, (built method url steps).headers.filter (isNamed name) =
        ((settings steps).filter (isNamed name)).getLast?.toList) ∧
      ∀ before body after, steps = before ++ .json body :: after → KeepsType after →
        (built method url steps).headers.filter (isNamed "Content-Type") =
          [("Content-Type", "application/json")] := by
  have hb := headers_built method url steps
  refine ⟨hb, hb ▸ Headers.lastSettings_pairwise _, fun name => ?_, ?_⟩
  · rw [hb, Headers.filter_lastSettings]
  · rintro before body after rfl ha
    rw [hb, Headers.filter_lastSettings, ha.getLast?_types]
    rfl

/-- A request whose type is set in small letters before its first body. -/
def retypedSteps : List Step :=
  [.header "content-type" "text/plain", .json .null, .bearer "token", .batchSize 200,
    .header "X-Trace" "1", .json (.arr []), .query "q" "1", .header "x-trace" "2"]

theorem retypedSteps_leave_one_type :
    retypedSteps = retypedSteps.take 5 ++ .json (.arr []) :: retypedSteps.drop 6 ∧
      KeepsType (retypedSteps.drop 6) ∧
      (built .post "http://org.test" retypedSteps).headers.filter (isNamed "Content-Type") =
        [("Content-Type", "application/json")] := by
  have hs : retypedSteps = retypedSteps.take 5 ++ .json (.arr []) :: retypedSteps.drop 6 := rfl
  have ha : KeepsType (retypedSteps.drop 6) := by
    intro name value hm
    have hn : name = "x-trace" ∧ value = "2" := by simpa [retypedSteps] using hm
    rw [hn.1]
    decide
  obtain ⟨-, -, -, htype⟩ := headers_are_last_settings .post "http://org.test" retypedSteps
  exact ⟨hs, ha, htype _ _ _ hs ha⟩

end Request

end OrgClient.Http
