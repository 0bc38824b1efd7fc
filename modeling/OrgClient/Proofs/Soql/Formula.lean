import OrgClient.Proofs.Soql.Reserved

namespace OrgClient.Soql

set_option autoImplicit true

mutual

/-- A tree without the blanks in its parentheses, or nothing if it is a blank. -/
def Tree.dense : Tree → List Tree
  | .word cs => [.word cs]
  | .quoted body => [.quoted body]
  | .blank _ => []
  | .comma => [.comma]
  | .group ts => [.group (denseAll ts)]

def denseAll : List Tree → List Tree
  | [] => []
  | t :: ts => t.dense ++ denseAll ts

end

/-- The trees of a text when blanks are left out. -/
def readDense (text : String) : Option (List Tree) :=
  (lex text.toList).bind fun ts => nest (ts.filter fun t => !t.isBlank)

/-- Tests joined and negated. A test is known by its trees. -/
inductive Formula where
  | test (ts : List Tree)
  | not (f : Formula)
  | join (op : Connective) (f g : Formula)

def Connective.holds : Connective → Bool → Bool → Bool
  | .and, a, b => a && b
  | .or, a, b => a || b

namespace Formula

def tests : Formula → List (List Tree)
  | .test ts => [ts]
  | .not f => f.tests
  | .join _ f g => f.tests ++ g.tests

/-- The truth value of a formula whose first test is the `n`-th that a truth value is known for. -/
def eval (σ : Nat → Bool) (n : Nat) : Formula → Bool
  | .test _ => σ n
  | .not f => !f.eval σ n
  | .join op f g => op.holds (f.eval σ n) (g.eval σ (n + f.tests.length))

end Formula

/-- A field or a call of a function. -/
inductive IsReference : List Tree → Prop
  | field (h : isReserved cs = false) : IsReference [.word cs]
  | call (h : isReserved cs = false) : IsReference [.word cs, .group ts]

inductive IsValue : Tree → Prop
  | word (h : isReserved cs = false) : IsValue (.word cs)
  | quoted : IsValue (.quoted body)

/-- A comparison with one value, or with a list or a query in parentheses. -/
inductive IsTest : List Tree → Prop
  | compare (hr : IsReference ts) (op : Comparison) (hv : IsValue v) :
    IsTest (ts ++ [.word op.text.toList, v])
  | member (hr : IsReference ts) (op : Membership) (us : List Tree) :
    IsTest (ts ++ (denseAll op.trees ++ [.group us]))

mutual

/-- A test, a formula in parentheses, or one of these behind `NOT`. -/
inductive IsUnary : List Tree → Formula → Prop
  | not (hw : isAmong ["NOT"] w) (h : IsUnary ts f) : IsUnary (.word w :: ts) (.not f)
  | group (h : IsChain op ts f) : IsUnary [.group ts] f
  | test (h : IsTest ts) : IsUnary ts (.test ts)

/-- Unary formulas with the same word between them. -/
inductive IsChain : Connective → List Tree → Formula → Prop
  | one (h : IsUnary ts f) : IsChain op ts f
  | more (h : IsUnary ts f) (hw : isAmong [String.ofList op.word] w) (hr : IsChain op us g) :
    IsChain op (ts ++ .word w :: us) (.join op f g)

end

/-- A text that is a formula. -/
def Reads (text : String) (f : Formula) : Prop :=
  ∃ op ts, readDense text = some ts ∧ IsChain op ts f

@[simp] theorem denseAll_append (ts us : List Tree) :
    denseAll (ts ++ us) = denseAll ts ++ denseAll us := by
  induction ts with
  | nil => rfl
  | cons t ts ih => rw [List.cons_append, denseAll, denseAll, ih, List.append_assoc]

mutual

theorem Tree.flatten_dense (t : Tree) :
    flatten t.dense = t.tokens.filter fun t => !t.isBlank := by
  cases t with
  | word cs => rfl
  | quoted body => rfl
  | blank c => rfl
  | comma => rfl
  | group ts =>
    simp only [Tree.dense, Tree.tokens, flatten_cons, flatten_nil, List.append_nil,
      flatten_denseAll ts, List.cons_append, List.filter_cons, List.filter_append]
    rfl

/-- Blanks can be left out before or after parentheses are matched. -/
theorem flatten_denseAll (ts : List Tree) :
    flatten (denseAll ts) = (flatten ts).filter fun t => !t.isBlank := by
  cases ts with
  | nil => rfl
  | cons t ts =>
    rw [denseAll, flatten_append, flatten_cons, List.filter_append, t.flatten_dense,
      flatten_denseAll ts]

end

theorem Spells.readDense (h : Spells s ts) : readDense s = some (denseAll ts) := by
  rw [Soql.readDense, h.text, lex_spell h.separated, Option.bind_some, ← flatten_denseAll,
    nest_flatten]

def Tree.joins : Tree → Bool
  | .word cs => isAmong ["AND", "OR"] cs
  | _ => false

theorem isAmong_iff : isAmong ws cs ↔ String.ofList (cs.map Char.toUpper) ∈ ws :=
  List.contains_iff_mem

theorem isAmong_eq_false_iff :
    isAmong ws cs = false ↔ String.ofList (cs.map Char.toUpper) ∉ ws := by
  rw [← isAmong_iff, Bool.not_eq_true]

theorem joins_of_isReserved (h : isReserved cs = false) : isAmong ["AND", "OR"] cs = false := by
  rw [isReserved, Bool.or_eq_false_iff, isAmong_eq_false_iff, isAmong_eq_false_iff] at h
  rw [isAmong_eq_false_iff]
  exact fun hm => h.2 (List.mem_append_left ["NOT"] hm)

theorem not_isReserved_of_not (h : isAmong ["NOT"] cs) : isReserved cs := by
  rw [isReserved, Bool.or_eq_true]
  refine .inr (isAmong_iff.mpr ?_)
  rw [List.mem_singleton.mp (isAmong_iff.mp h)]
  decide

theorem joins_of_not (h : isAmong ["NOT"] cs) : isAmong ["AND", "OR"] cs = false := by
  rw [isAmong_eq_false_iff, List.mem_singleton.mp (isAmong_iff.mp h)]
  decide

theorem Connective.joins {op : Connective} (h : isAmong [String.ofList op.word] cs) :
    isAmong ["AND", "OR"] cs := by
  rw [isAmong_iff, List.mem_singleton.mp (isAmong_iff.mp h)]
  cases op <;> decide

theorem Connective.eq_of_isAmong {op op' : Connective} (h : isAmong [String.ofList op.word] cs)
    (h' : isAmong [String.ofList op'.word] cs) : op = op' := by
  have he := List.mem_singleton.mp (isAmong_iff.mp h)
  rw [List.mem_singleton.mp (isAmong_iff.mp h')] at he
  revert he
  cases op <;> cases op' <;> decide

theorem IsReference.head (h : IsReference ts) :
    ∃ cs us, ts = .word cs :: us ∧ isReserved cs = false := by
  cases h with
  | field h => exact ⟨_, _, rfl, h⟩
  | call h => exact ⟨_, _, rfl, h⟩

theorem IsTest.head (h : IsTest ts) : ∃ cs us, ts = .word cs :: us ∧ isReserved cs = false := by
  cases h with
  | compare hr op hv =>
    obtain ⟨cs, us, rfl, h⟩ := hr.head
    exact ⟨cs, _, rfl, h⟩
  | member hr op us =>
    obtain ⟨cs, us, rfl, h⟩ := hr.head
    exact ⟨cs, _, rfl, h⟩

theorem IsReference.free (h : IsReference ts) : ∀ t ∈ ts, t.joins = false := by
  cases h with
  | field h => exact List.forall_mem_singleton.mpr (joins_of_isReserved h)
  | call h =>
    exact List.forall_mem_cons.mpr ⟨joins_of_isReserved h, List.forall_mem_singleton.mpr rfl⟩

theorem IsValue.free (h : IsValue t) : t.joins = false := by
  cases h with
  | word h => exact joins_of_isReserved h
  | quoted => rfl

theorem IsTest.free (h : IsTest ts) : ∀ t ∈ ts, t.joins = false := by
  cases h with
  | compare hr op hv =>
    have ho : isAmong ["AND", "OR"] op.text.toList = false := by
      cases op <;> decide
    exact List.forall_mem_append.mpr
      ⟨hr.free, List.forall_mem_cons.mpr ⟨ho, List.forall_mem_singleton.mpr hv.free⟩⟩
  | member hr op us =>
    have ho : ∀ t ∈ denseAll op.trees, t.joins = false := by
      cases op <;> decide
    exact List.forall_mem_append.mpr
      ⟨hr.free, List.forall_mem_append.mpr ⟨ho, List.forall_mem_singleton.mpr rfl⟩⟩

/-- Unary formulas join nothing outside parentheses. -/
theorem IsUnary.free : ∀ {ts f}, IsUnary ts f → ∀ t ∈ ts, t.joins = false
  | _, _, .not hw h => List.forall_mem_cons.mpr ⟨joins_of_not hw, h.free⟩
  | _, _, .group _ => List.forall_mem_singleton.mpr rfl
  | _, _, .test h => h.free

theorem IsTest.ne_not (h : IsTest (.word w :: ts)) (hw : isAmong ["NOT"] w) : False := by
  obtain ⟨cs, us, he, hf⟩ := h.head
  obtain ⟨hc, -⟩ := List.cons.inj he
  rw [← Tree.word.inj hc, not_isReserved_of_not hw] at hf
  cases hf

theorem IsTest.ne_group (h : IsTest [.group ts]) : False := by
  obtain ⟨cs, us, he, -⟩ := h.head
  cases he

/-- Where a chain goes on is seen from its trees. -/
theorem IsUnary.append_inj (hf : IsUnary ts f) (hf' : IsUnary ts' f')
    (hw : isAmong ["AND", "OR"] w) (hw' : isAmong ["AND", "OR"] w')
    (h : ts ++ .word w :: us = ts' ++ .word w' :: us') : ts = ts' ∧ w = w' ∧ us = us' := by
  have hn {ts : List Tree} {f : Formula} (hf : IsUnary ts f) : ∀ t ∈ ts, ¬t.joins = true := by
    intro t ht
    rw [hf.free t ht]
    exact Bool.false_ne_true
  have ho {w : List Char} {us : List Tree} (hw : isAmong ["AND", "OR"] w) :
      ∀ t ∈ (Tree.word w :: us).head?, t.joins = true := by
    intro t ht
    cases ht
    exact hw
  obtain ⟨ht, hc⟩ := append_inj_of_head h (hn hf) (hn hf') (ho hw) (ho hw')
  obtain ⟨hw, hu⟩ := List.cons.inj hc
  exact ⟨ht, Tree.word.inj hw, hu⟩

theorem IsUnary.not_more (h : IsUnary (ts ++ .word w :: us) f) (hw : isAmong ["AND", "OR"] w) :
    False := by
  have hf := h.free _ (List.mem_append_right _ List.mem_cons_self)
  rw [Tree.joins, hw] at hf
  cases hf

mutual

theorem IsUnary.unique : ∀ {ts f g}, IsUnary ts f → IsUnary ts g → f = g
  | _, _, _, .not hw h, hg => by
    cases hg with
    | not hw' h' => rw [h.unique h']
    | test h' => exact (h'.ne_not hw).elim
  | _, _, _, .group h, hg => by
    cases hg with
    | group h' => exact h.unique rfl h'
    | test h' => exact h'.ne_group.elim
  | _, _, _, .test h, hg => by
    cases hg with
    | not hw' h' => exact (h.ne_not hw').elim
    | group h' => exact h.ne_group.elim
    | test h' => rfl

/-- Trees have one chain of formulas. -/
theorem IsChain.unique :
    ∀ {op op' ts ts' f g}, IsChain op ts f → ts = ts' → IsChain op' ts' g → f = g
  | _, _, _, _, _, _, .one h, he, hg => by
    cases hg with
    | one h' => exact h.unique (he ▸ h')
    | more h' hw' hr' =>
      rw [he] at h
      exact (h.not_more (Connective.joins hw')).elim
  | _, _, _, _, _, _, .more h hw hr, he, hg => by
    cases hg with
    | one h' =>
      rw [← he] at h'
      exact (h'.not_more (Connective.joins hw)).elim
    | more h' hw' hr' =>
      -- Both are cut at the first word that joins, so their first formulas have the same trees.
      obtain ⟨rfl, rfl, hu⟩ := h.append_inj h' (Connective.joins hw) (Connective.joins hw') he
      rw [h.unique h', hr.unique hu hr', Connective.eq_of_isAmong hw hw']

end

theorem Reads.unique (h : Reads text f) (h' : Reads text g) : f = g := by
  obtain ⟨op, ts, ht, hc⟩ := h
  obtain ⟨op', ts', ht', hc'⟩ := h'
  exact hc.unique (Option.some.inj (ht.symm.trans ht')) hc'

end OrgClient.Soql
