import OrgClient.Proofs.Soql.Formula

namespace OrgClient.Soql

open Text Number
set_option autoImplicit true

def Connective.holdsAll : Connective → List Bool → Bool
  | .and, vs => vs.all id
  | .or, vs => vs.any id

namespace Condition

mutual

/-- The tests of a condition from left to right. -/
def leaves : Condition → List Condition
  | .compare f op v => [.compare f op v]
  | .oneOf f op vs => [.oneOf f op vs]
  | .within f op q => [.within f op q]
  | .group _ cs _ => leavesAll cs

def leavesAll : List Condition → List Condition
  | [] => []
  | c :: cs => c.leaves ++ leavesAll cs

end

mutual

/-- The truth value of a condition whose first test is the `n`-th that a truth value is known for.
-/
def eval (σ : Nat → Bool) : Nat → Condition → Bool
  | n, .compare .. => σ n
  | n, .oneOf .. => σ n
  | n, .within .. => σ n
  | n, .group op cs negated => negated ^^ op.holdsAll (evalAll σ n cs)

def evalAll (σ : Nat → Bool) : Nat → List Condition → List Bool
  | _, [] => []
  | n, c :: cs => c.eval σ n :: evalAll σ (n + c.leaves.length) cs

end

/-- Whether a condition tests the text of a query. -/
def testsQuery : Condition → Bool
  | .compare f _ _ => f.isSubquery
  | .oneOf f _ _ => f.isSubquery
  | .within f _ _ => f.isSubquery
  | .group .. => false

end Condition

/-- Trees that the text of a test is read as. -/
def IsTestOf (ts : List Tree) (c : Condition) : Prop :=
  ∃ text, c.render = .ok text ∧ readDense text = some ts

/-- A text that is read as one formula, with the tests and the truth value of a condition. -/
structure ReadAs (text : String) (c : Condition) (f : Formula) : Prop where
  reads : Reads text f
  unique : ∀ g, Reads text g → g = f
  tests : List.Forall₂ IsTestOf f.tests c.leaves
  eval : ∀ σ, f.eval σ 0 = c.eval σ 0

/-- A formula with the tests of a condition and its truth value. -/
structure Means (f : Formula) (c : Condition) : Prop where
  tests : f.tests = c.leaves.map fun l => denseAll l.trees
  eval : ∀ σ n, f.eval σ n = c.eval σ n

theorem Literal.Known.isValue {v : Literal} (hv : v.Known) : IsValue v.tree := by
  have hq := hv.quiet v.tree List.mem_cons_self
  have hw {cs : List Char} (h : (Tree.word cs).isQuiet) : IsValue (.word cs) := by
    rw [Tree.isQuiet, Bool.not_eq_true'] at h
    exact .word h
  cases v with
  | string s => exact .quoted
  | integer n => exact hw hq
  | number x => exact hw hq
  | boolean b => cases b <;> exact hw hq
  | date d => exact hw hq
  | instant t => exact hw hq
  | relativeDate s => exact hw hq
  | null => exact hw hq

theorem IsValue.dense (h : IsValue t) : t.dense = [t] := by
  cases h <;> rfl

theorem FieldRef.Over.isReference (h : FieldRef.Over FreeName f) (hf : f.isSubquery = false) :
    IsReference (denseAll f.trees) := by
  have hq := h.quiet
  have hw {cs : List Char} {ts : List Tree} (h : Quiet (.word cs :: ts)) :
      isReserved cs = false := by
    have hc := h _ List.mem_cons_self
    rwa [Tree.isQuiet, Bool.not_eq_true'] at hc
  cases h with
  | plain h => exact .field (hw hq)
  | related hp h => exact .field (hw hq)
  | call ha hl => exact .call (hw hq)
  | subquery hq' h => cases hf

theorem IsTest.membership (h : IsReference (denseAll (FieldRef.trees f))) (op : Membership)
    (ts : List Tree) : IsTest (denseAll (membershipTrees f op ts)) := by
  have hm := IsTest.member h op (denseAll ts)
  rw [membershipTrees]
  simp only [denseAll_append, denseAll, Tree.dense, List.nil_append, List.append_nil,
    List.append_assoc, List.cons_append] at hm ⊢
  exact hm

theorem Condition.Over.isTest (h : Condition.Over FreeName c) (hg : c.isGroup = false)
    (hf : c.testsQuery = false) : IsTest (denseAll c.trees) := by
  cases h with
  | @compare f op v hr hv =>
    have ht := IsTest.compare (hr.isReference hf) op hv.isValue
    rw [Condition.trees]
    simp only [denseAll_append, denseAll, Tree.dense, hv.isValue.dense, List.nil_append,
      List.append_nil, List.append_assoc, List.cons_append]
    exact ht
  | oneOf hr hv =>
    rw [Condition.trees]
    exact .membership (hr.isReference hf) _ _
  | within hr hq =>
    rw [Condition.trees]
    exact .membership (hr.isReference hf) _ _
  | group hc => cases hg

theorem Condition.leaves_of_test (h : Condition.isGroup c = false) : c.leaves = [c] := by
  cases c with
  | group op cs negated => cases h
  | compare f op v => rw [leaves]
  | oneOf f op vs => rw [leaves]
  | within f op q => rw [leaves]

theorem Condition.eval_of_test (h : Condition.isGroup c = false) : c.eval σ n = σ n := by
  cases c with
  | group op cs negated => cases h
  | compare f op v => rw [eval]
  | oneOf f op vs => rw [eval]
  | within f op q => rw [eval]

theorem Means.test (h : Condition.isGroup c = false) : Means (.test (denseAll c.trees)) c := by
  refine ⟨?_, fun σ n => ?_⟩
  · rw [Condition.leaves_of_test h]
    rfl
  · rw [Condition.eval_of_test h]
    rfl

/-- A formula with the tests of some conditions and their joined truth value. -/
structure MeansAll (op : Connective) (f : Formula) (cs : List Condition) : Prop where
  tests : f.tests = (Condition.leavesAll cs).map fun l => denseAll l.trees
  eval : ∀ σ n, f.eval σ n = op.holdsAll (Condition.evalAll σ n cs)

theorem Connective.holdsAll_singleton (op : Connective) (b : Bool) : op.holdsAll [b] = b := by
  cases op <;> cases b <;> rfl

theorem Connective.holdsAll_cons (op : Connective) (b : Bool) (bs : List Bool) :
    op.holdsAll (b :: bs) = op.holds b (op.holdsAll bs) := by
  cases op <;> rfl

theorem MeansAll.one (h : Means f c) (op : Connective) : MeansAll op f [c] := by
  refine ⟨?_, fun σ n => ?_⟩
  · rw [Condition.leavesAll, Condition.leavesAll, List.append_nil]
    exact h.tests
  · rw [Condition.evalAll, Condition.evalAll, op.holdsAll_singleton]
    exact h.eval σ n

theorem MeansAll.more (h : Means f c) (hs : MeansAll op g cs) :
    MeansAll op (.join op f g) (c :: cs) := by
  refine ⟨?_, fun σ n => ?_⟩
  · rw [Condition.leavesAll, List.map_append, ← h.tests, ← hs.tests]
    rfl
  · rw [Condition.evalAll, op.holdsAll_cons, ← h.eval, Formula.eval, hs.eval, h.tests,
      List.length_map]

/-- Conditions of which each is a unary formula are a chain when they are joined. -/
theorem chain_of_parts (hn : cs ≠ [])
    (h : ∀ c ∈ cs, ∃ f,
      IsUnary (denseAll (if Condition.isGroup c then [.group c.trees] else c.trees)) f ∧
        Means f c) :
    ∃ f, IsChain op (denseAll (op.trees.intercalate (Condition.partTrees cs))) f ∧
      MeansAll op f cs := by
  induction cs with
  | nil => exact absurd rfl hn
  | cons c cs ih =>
    obtain ⟨f, hf, hm⟩ := h c List.mem_cons_self
    cases cs with
    | nil =>
      rw [Condition.partTrees, Condition.partTrees, List.intercalate_singleton]
      exact ⟨f, .one hf, .one hm op⟩
    | cons d cs =>
      obtain ⟨g, hg, hs⟩ := ih (List.cons_ne_nil _ _) fun e he => h e (List.mem_cons_of_mem _ he)
      have hw : isAmong [String.ofList op.word] op.word := by
        cases op <;> decide
      have hd : denseAll op.trees = [.word op.word] := rfl
      refine ⟨.join op f g, ?_, .more hm hs⟩
      rw [Condition.partTrees] at hg
      rw [Condition.partTrees, Condition.partTrees, List.intercalate_cons_cons, denseAll_append,
        denseAll_append, hd, List.append_assoc]
      exact .more hf hw hg

theorem renderParts_ok (h : Condition.renderParts cs = .ok texts) :
    ∀ c ∈ cs, ∃ text, c.render = .ok text := by
  induction cs generalizing texts with
  | nil => exact fun c hc => absurd hc List.not_mem_nil
  | cons c cs ih =>
    rw [Condition.renderParts, bind_eq_ok_iff] at h
    obtain ⟨text, ht, h⟩ := h
    obtain ⟨texts', hts, -⟩ := bind_eq_ok_iff.mp h
    exact List.forall_mem_cons.mpr ⟨⟨text, ht⟩, ih hts⟩

theorem Condition.group_ok (h : Condition.render (.group op cs negated) = .ok text) :
    cs ≠ [] ∧ ∀ c ∈ cs, ∃ text, c.render = .ok text := by
  rw [render] at h
  split at h
  · cases h
  · rename_i hn
    obtain ⟨texts, hs, -⟩ := bind_eq_ok_iff.mp h
    exact ⟨fun he => hn (List.isEmpty_iff.mpr he), renderParts_ok hs⟩

theorem mem_leavesAll : l ∈ Condition.leavesAll cs ↔ ∃ c ∈ cs, l ∈ c.leaves := by
  induction cs with
  | nil =>
    rw [Condition.leavesAll]
    exact ⟨fun h => absurd h List.not_mem_nil, fun ⟨c, hc, _⟩ => absurd hc List.not_mem_nil⟩
  | cons c cs ih => rw [Condition.leavesAll, List.mem_append, ih, List.exists_mem_cons_iff]

/-- A negated group is its formula behind `NOT`. -/
theorem MeansAll.group (h : MeansAll op f cs) (negated : Bool) :
    Means (if negated then .not f else f) (.group op cs negated) := by
  refine ⟨?_, fun σ n => ?_⟩
  · rw [Condition.leaves, ← h.tests]
    cases negated <;> rfl
  · rw [Condition.eval, ← h.eval]
    cases negated <;> simp [Formula.eval]

theorem Condition.Over.unary (h : Condition.Over FreeName c) (hg : c.isGroup = false)
    (hl : ∀ l ∈ c.leaves, l.testsQuery = false) :
    IsUnary (denseAll c.trees) (.test (denseAll c.trees)) := by
  rw [leaves_of_test hg] at hl
  exact .test (h.isTest hg (hl c List.mem_cons_self))

/-- Conditions over free names that have a text are chains of their tests. -/
theorem Condition.Over.chain (h : Condition.Over FreeName c)
    (hl : ∀ l ∈ c.leaves, l.testsQuery = false) (hr : c.render = .ok text) :
    ∃ op f, IsChain op (denseAll c.trees) f ∧ Means f c := by
  induction h using Condition.Over.group_induction generalizing text with
  | test h hg => exact ⟨.and, _, .one (h.unary hg hl), .test hg⟩
  | @group op cs negated hc ih =>
    obtain ⟨hn, hcs⟩ := group_ok hr
    rw [leaves] at hl
    have hp : ∀ c ∈ cs, ∃ f,
        IsUnary (denseAll (if c.isGroup then [.group c.trees] else c.trees)) f ∧ Means f c := by
      intro c hm
      obtain ⟨s, hs⟩ := hcs c hm
      have hlc : ∀ l ∈ c.leaves, l.testsQuery = false :=
        fun l h => hl l (mem_leavesAll.mpr ⟨c, hm, h⟩)
      obtain ⟨op', f, hf, hmf⟩ := ih c hm hlc hs
      -- A group in parentheses is unary, whatever joins it inside.
      cases hg : c.isGroup with
      | true => exact ⟨f, .group hf, hmf⟩
      | false => exact ⟨_, (hc c hm).unary hg hlc, .test hg⟩
    obtain ⟨f, hf, hm⟩ : ∃ f, IsChain op (denseAll (op.trees.intercalate (partTrees cs))) f ∧
      MeansAll op f cs := chain_of_parts hn hp
    rw [trees]
    cases negated with
    | true => exact ⟨.and, .not f, .one (.not (by decide) (.group hf)), hm.group true⟩
    | false => exact ⟨op, f, hf, hm.group false⟩

theorem Condition.Over.leaf (h : Condition.Over FreeName c) (hr : c.render = .ok text) :
    ∀ l ∈ c.leaves, Condition.Over FreeName l ∧ ∃ s, l.render = .ok s := by
  induction h using Condition.Over.group_induction generalizing text with
  | test h hg =>
    rw [leaves_of_test hg]
    exact List.forall_mem_singleton.mpr ⟨h, text, hr⟩
  | group hc ih =>
    obtain ⟨-, hcs⟩ := group_ok hr
    rw [leaves]
    intro l hl
    obtain ⟨c, hm, hl⟩ := mem_leavesAll.mp hl
    obtain ⟨s, hs⟩ := hcs c hm
    exact ih c hm hs l hl

theorem Condition.Over.readAs (h : Condition.Over FreeName c)
    (hl : ∀ l ∈ c.leaves, l.testsQuery = false) (hr : c.render = .ok text) :
    ∃ f, ReadAs text c f ∧ Means f c := by
  obtain ⟨op, f, hf, hm⟩ := h.chain hl hr
  have hreads : Reads text f := ⟨op, _, (h.spells hr).readDense, hf⟩
  refine ⟨f, ⟨hreads, fun g hg => hg.unique hreads, ?_, fun σ => hm.eval σ 0⟩, hm⟩
  rw [hm.tests]
  refine List.forall₂_map_left_iff.mpr (List.forall₂_same.mpr ?_)
  intro l hlm
  obtain ⟨ho, s, hs⟩ := h.leaf hr l hlm
  exact ⟨s, hs, (ho.spells hs).readDense⟩

namespace Condition

/-- A condition is a group or a test. -/
theorem group_or_test {motive : Condition → Prop}
    (group : ∀ op cs negated, motive (.group op cs negated))
    (test : ∀ c, Condition.isGroup c = false → motive c) (c : Condition) : motive c := by
  cases c with
  | group op cs negated => exact group op cs negated
  | compare f op v => exact test _ rfl
  | oneOf f op vs => exact test _ rfl
  | within f op q => exact test _ rfl

theorem negate_of_test (h : Condition.isGroup c = false) : c.negate = .group .and [c] true := by
  cases c with
  | group op cs negated => cases h
  | compare f op v => rfl
  | oneOf f op vs => rfl
  | within f op q => rfl

theorem Over.negate (h : Condition.Over FreeName c) : Condition.Over FreeName c.negate := by
  cases c using group_or_test with
  | group op cs negated =>
    cases h with
    | group hc => exact .group hc
  | test c hg =>
    rw [negate_of_test hg]
    exact .group (List.forall_mem_singleton.mpr h)

theorem leaves_negate (c : Condition) : c.negate.leaves = c.leaves := by
  cases c using group_or_test with
  | group op cs negated => rw [Condition.negate, leaves, leaves]
  | test c hg => rw [negate_of_test hg, leaves, leavesAll, leavesAll, List.append_nil]

theorem eval_negate (σ : Nat → Bool) (n : Nat) (c : Condition) :
    c.negate.eval σ n = !c.eval σ n := by
  cases c using group_or_test with
  | group op cs negated => rw [Condition.negate, eval, eval, Bool.not_xor]
  | test c hg =>
    rw [negate_of_test hg, eval, evalAll, evalAll, Connective.holdsAll_singleton, Bool.true_xor]

theorem render_single (h : isGroup c = false) (op : Connective) (negated : Bool) :
    render (.group op [c] negated) = do return renderGroup op negated [← c.render] := by
  rw [render, renderParts, renderParts, h]
  cases c.render <;> rfl

theorem render_negate (h : render c = .ok text) : ∃ s, c.negate.render = .ok s := by
  cases c using group_or_test with
  | group op cs negated =>
    rw [render] at h
    rw [Condition.negate, render]
    split at h
    · cases h
    · rename_i hn
      obtain ⟨texts, hs, -⟩ := bind_eq_ok_iff.mp h
      rw [if_neg hn, hs]
      exact ⟨_, rfl⟩
  | test c hg =>
    rw [negate_of_test hg, render_single hg, h]
    exact ⟨_, rfl⟩

theorem render_negate_negate (c : Condition) : c.negate.negate.render = c.render := by
  cases c using group_or_test with
  | group op cs negated => rw [Condition.negate, Condition.negate, Bool.not_not]
  | test c hg =>
    rw [negate_of_test hg, Condition.negate, Bool.not_true, render_single hg]
    cases c.render with
    | error e => rfl
    | ok text =>
      have ht : " AND ".intercalate [text] = text := String.intercalate_singleton
      exact congrArg Except.ok ht

end Condition

/-- The text of a condition over free names, of fields and functions, is read as one formula. It has
the tests of the condition from left to right and its truth value, the text of the opposite
condition has the same tests and the opposite truth value, and the opposite of that has the text of
the condition. -/
theorem Condition.text_keeps_meaning (h : Condition.Over FreeName c)
    (hl : ∀ l ∈ c.leaves, l.testsQuery = false) (hr : c.render = .ok text) :
    ∃ f, ReadAs text c f ∧
      (∃ s g, c.negate.render = .ok s ∧ ReadAs s c.negate g ∧ g.tests = f.tests ∧
        ∀ σ, g.eval σ 0 = !f.eval σ 0) ∧
      c.negate.negate.render = .ok text := by
  obtain ⟨f, hf, hm⟩ := h.readAs hl hr
  obtain ⟨s, hs⟩ := render_negate hr
  have hln : ∀ l ∈ c.negate.leaves, l.testsQuery = false := by
    rwa [leaves_negate]
  obtain ⟨g, hg, hmg⟩ := h.negate.readAs hln hs
  refine ⟨f, hf, ⟨s, g, hs, hg, ?_, fun σ => ?_⟩, ?_⟩
  · rw [hmg.tests, hm.tests, leaves_negate]
  · rw [hg.eval, hf.eval, eval_negate]
  · rw [render_negate_negate, hr]

/-- Contacts by name, account and year, with a value that looks like structure. -/
def chosenContacts : Condition :=
  .group .and
    [.compare (.plain "Name") .eq (.string ") OR ("),
      .group .or
        [.within (.plain "AccountId") .isIn ⟨"Account", Clauses.empty.addFields [.plain "Id"]⟩,
          .compare (.call .calendarYear [.plain "CreatedDate"] none) .gt (.integer 2020)]
        true]
    false

theorem chosenContacts_over : Condition.Over FreeName chosenContacts := by
  have hn (s : String) (h : Text.isName s) (hr : isReserved s.toList = false) :
      FieldRef.Over FreeName (.plain s) := .plain ⟨h, hr⟩
  have hq : Query.Over FreeName ⟨"Account", Clauses.empty.addFields [.plain "Id"]⟩ := by
    refine .mk ⟨by decide, by decide⟩ ?_ ?_ ?_ ?_ ?_
    · exact List.forall_mem_singleton.mpr (hn _ (by decide) (by decide))
    · exact fun c hc => nomatch hc
    · exact fun g hg => nomatch hg
    · exact fun g hg => nomatch hg
    · exact fun o ho => nomatch ho
  have hy : FieldRef.Over FreeName (.call .calendarYear [.plain "CreatedDate"] none) :=
    .call (List.forall_mem_singleton.mpr (hn _ (by decide) (by decide))) fun s hs => nomatch hs
  refine .group (List.forall_mem_cons.mpr ⟨?_, List.forall_mem_singleton.mpr ?_⟩)
  · exact .compare (hn _ (by decide) (by decide)) trivial
  · refine .group (List.forall_mem_cons.mpr ⟨?_, List.forall_mem_singleton.mpr ?_⟩)
    · exact .within (hn _ (by decide) (by decide)) hq
    · exact .compare hy trivial

theorem chosenContacts_keeps_meaning :
    ∃ f, ReadAs ("Name = ') OR (' AND (NOT (AccountId IN (SELECT Id FROM Account)"
      ++ " OR CALENDAR_YEAR(CreatedDate) > 2020))") chosenContacts f := by
  obtain ⟨f, hf, -, -⟩ := Condition.text_keeps_meaning chosenContacts_over (by decide) rfl
  exact ⟨f, hf⟩

end OrgClient.Soql
