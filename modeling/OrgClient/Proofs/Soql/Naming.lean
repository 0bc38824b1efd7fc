import Mathlib.Data.List.TakeDrop
import OrgClient.Proofs.Outcome
import OrgClient.Schema.Resolver
import OrgClient.Soql.Compose
import OrgClient.Text.Name

namespace OrgClient.Soql

set_option autoImplicit true

/-- Words that open a clause of a query. -/
def clauseWords : List String :=
  ["SELECT", "FROM", "WHERE", "GROUP", "HAVING", "ORDER", "LIMIT", "OFFSET", "FOR", "UPDATE"]

def logicWords : List String :=
  ["AND", "OR", "NOT"]

/-- Whether a word is one of some words, in any case. -/
def isAmong (words : List String) (cs : List Char) : Bool :=
  words.contains (String.ofList (cs.map Char.toUpper))

/-- Whether a word is kept for the structure of queries and conditions. -/
def isReserved (cs : List Char) : Bool :=
  isAmong clauseWords cs || isAmong logicWords cs

/-- A name that cannot be taken for a part of the structure. -/
structure FreeName (s : String) : Prop where
  name : Text.isName s
  free : isReserved s.toList = false

def Quoteless (s : String) : Prop :=
  ∀ c ∈ s.toList, c ≠ '\''

instance : DecidablePred Quoteless :=
  fun s => List.decidableBAll (· ≠ '\'') s.toList

def FieldRef.isSubquery : FieldRef → Bool
  | .subquery _ => true
  | _ => false

/-- A literal as it is built: a relative date is one that is known. -/
def Literal.Known : Literal → Prop
  | .relativeDate text => isRelativeDate text
  | _ => True

theorem isNameChar_of_isName (h : Text.isName s) : ∀ c ∈ s.toList, Text.isNameChar c := by
  rw [Text.isName] at h
  cases hs : s.toList with
  | nil =>
    intro c hc
    cases hc
  | cons c cs =>
    rw [hs, Text.isNameChars, Bool.and_eq_true, List.all_eq_true] at h
    refine List.forall_mem_cons.mpr ⟨?_, h.2⟩
    simp [Text.isNameChar, Text.isAsciiAlnum, h.1]

theorem ne_nil_of_isName (h : Text.isName s) : s.toList ≠ [] := by
  intro hs
  rw [Text.isName, hs] at h
  cases h

/-- Names with dots between them are told apart by the dots. -/
theorem splitOn_dots (hne : names ≠ []) (h : ∀ s ∈ names, Text.isName s) :
    (".".intercalate names).toList.splitOn '.' = names.map String.toList := by
  have hd : ∀ l ∈ names.map String.toList, '.' ∉ l := by
    intro l hl hdot
    obtain ⟨s, hs, rfl⟩ := List.mem_map.mp hl
    exact absurd (isNameChar_of_isName (h s hs) _ hdot) (by decide)
  rw [String.toList_intercalate]
  exact List.splitOn_intercalate '.' hd (mt List.map_eq_nil_iff.mp hne)

theorem Quoteless.of_isName (h : Text.isName s) : Quoteless s := by
  rintro c hc rfl
  exact absurd (isNameChar_of_isName h _ hc) (by decide)

theorem Function.isName_name (f : Function) : Text.isName f.name := by
  cases f <;> rfl

theorem isName_relativeDates : ∀ s ∈ relativeDates ++ countedDates, Text.isName s := by
  decide

theorem isRelativeDate_cases (h : isRelativeDate s) :
    s ∈ relativeDates ∨
      ∃ name ∈ countedDates, ∃ n : List Char, s.toList = name.toList ++ ':' :: n ∧
        ∀ c ∈ n, c.isDigit := by
  unfold isRelativeDate at h
  split at h
  · exact .inl (List.contains_iff_mem.mp h)
  · rename_i name c n hs
    rw [List.span_eq_takeWhile_dropWhile, Prod.mk.injEq] at hs
    have hc : c = ':' := by
      have hh := List.head?_dropWhile_not (fun c => decide (c ≠ ':')) s.toList
      rw [hs.2] at hh
      simpa using hh
    simp only [Bool.and_eq_true, List.contains_iff_mem, List.all_eq_true] at h
    refine .inr ⟨_, h.1.1, n, ?_, h.2⟩
    rw [String.toList_ofList, ← hc, ← hs.1, ← hs.2, List.takeWhile_append_dropWhile]

section
variable (N : String → Prop)

mutual

/-- References with names of a kind; the text of a query comes from composing one with names of that
kind. -/
inductive FieldRef.Over : FieldRef → Prop
  | plain (h : N name) : FieldRef.Over (.plain name)
  | related (hp : ∀ s ∈ path, N s) (h : N field) : FieldRef.Over (.related path field)
  | call (ha : ∀ f ∈ fs, FieldRef.Over f) (hl : ∀ s ∈ label, N s) :
    FieldRef.Over (.call function fs label)
  | subquery (hq : Query.Over q) (h : q.compose = .ok text) :
    FieldRef.Over (.subquery ("(" ++ text ++ ")"))

/-- Conditions with names of a kind, at every depth. -/
inductive Condition.Over : Condition → Prop
  | compare (hf : FieldRef.Over f) (hv : value.Known) : Condition.Over (.compare f op value)
  | oneOf (hf : FieldRef.Over f) (hv : ∀ v ∈ values, Literal.Known v) :
    Condition.Over (.oneOf f op values)
  | within (hf : FieldRef.Over f) (hq : Query.Over q) : Condition.Over (.within f op q)
  | group (h : ∀ c ∈ children, Condition.Over c) : Condition.Over (.group op children negated)

/-- Queries with names of a kind in all clauses; blanks around the name of the table are left
out. -/
inductive Query.Over : Query → Prop
  | mk {q : Query} (target : N (Text.trimBlank q.target))
    (select : ∀ f ∈ q.clauses.select, FieldRef.Over f)
    (filter : ∀ c ∈ q.clauses.filter, Condition.Over c)
    (grouped : ∀ g ∈ q.clauses.grouping, ∀ f ∈ g.fields, FieldRef.Over f)
    (having : ∀ g ∈ q.clauses.grouping, ∀ c ∈ g.having, Condition.Over c)
    (ordered : ∀ o ∈ q.clauses.order, FieldRef.Over o.field) : Query.Over q

end

end

/-- Induction over the groups of a condition; queries within its tests are left alone. -/
theorem Condition.Over.group_induction {motive : ∀ c, Condition.Over N c → Prop}
    (test : ∀ {c} (h : Condition.Over N c), c.isGroup = false → motive c h)
    (group : ∀ {op cs negated} (hc : ∀ c ∈ cs, Condition.Over N c),
      (∀ c hm, motive c (hc c hm)) → motive (.group op cs negated) (.group hc)) :
    ∀ {c} (h : Condition.Over N c), motive c h
  | _, .compare hf hv => test (.compare hf hv) rfl
  | _, .oneOf hf hv => test (.oneOf hf hv) rfl
  | _, .within hf hq => test (.within hf hq) rfl
  | _, .group hc => group hc fun c hm => (hc c hm).group_induction test group

/-- What a resolver gives for child records is the text of a query on them. -/
theorem FieldRef.eq_of_subquery {r : Schema.Resolver κ}
    {build : Schema.Resolver κ → ExceptT Error Id Clauses}
    (h : Id.run (r.subquery property build).run = .ok f) :
    ∃ name place clauses text, r.child property = .ok (name, place) ∧
      Id.run (build place).run = .ok clauses ∧ Query.compose ⟨name, clauses⟩ = .ok text ∧
      f = .subquery ("(" ++ text ++ ")") := by
  rw [Schema.Resolver.subquery, run_bind_eq_ok_iff] at h
  obtain ⟨⟨name, place⟩, hc, h⟩ := h
  obtain ⟨clauses, hcl, h⟩ := run_bind_eq_ok_iff.mp h
  obtain ⟨text, ht, h⟩ := run_bind_eq_ok_iff.mp h
  cases h
  exact ⟨name, place, clauses, text, hc, hcl, ht, rfl⟩

/-- A resolver makes references with the names of the queries that it is given. -/
theorem FieldRef.Over.of_subquery {r : Schema.Resolver κ}
    {build : Schema.Resolver κ → ExceptT Error Id Clauses}
    (hb : ∀ name place clauses, r.child property = .ok (name, place) →
      Id.run (build place).run = .ok clauses → Query.Over N ⟨name, clauses⟩)
    (h : Id.run (r.subquery property build).run = .ok f) : FieldRef.Over N f := by
  obtain ⟨name, place, clauses, text, hc, hcl, ht, rfl⟩ := eq_of_subquery h
  exact .subquery (hb name place clauses hc hcl) ht

end OrgClient.Soql
