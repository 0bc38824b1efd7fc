import OrgClient.Proofs.Soql.Spelling

namespace OrgClient.Soql

open Text Number
set_option autoImplicit true

/-- Whether a tree is neither a reserved word nor a comma. -/
def Tree.isQuiet : Tree → Bool
  | .word cs => !isReserved cs
  | .comma => false
  | _ => true

def Tree.opens : Tree → Bool
  | .word cs => isAmong clauseWords cs
  | _ => false

/-- Trees that are neither reserved words nor commas. -/
def Quiet (ts : List Tree) : Prop :=
  ∀ t ∈ ts, t.isQuiet

/-- Trees that do not open a clause. -/
def Inner (ts : List Tree) : Prop :=
  ∀ t ∈ ts, t.opens = false

instance : DecidablePred Inner :=
  fun ts => inferInstanceAs (Decidable (∀ t ∈ ts, t.opens = false))

/-- Lists that are cut before their first element of a kind have equal parts. -/
theorem append_inj_of_head {a b a' b' : List α} {p : α → Prop} (h : a ++ b = a' ++ b')
    (ha : ∀ t ∈ a, ¬p t) (ha' : ∀ t ∈ a', ¬p t) (hb : ∀ t ∈ b.head?, p t)
    (hb' : ∀ t ∈ b'.head?, p t) : a = a' ∧ b = b' := by
  induction a generalizing a' with
  | nil =>
    cases a' with
    | nil => exact ⟨rfl, h⟩
    | cons t a' =>
      rw [List.nil_append] at h
      have ht := hb t (by rw [h]; rfl)
      exact absurd ht (ha' t List.mem_cons_self)
  | cons t a ih =>
    cases a' with
    | nil =>
      rw [List.nil_append] at h
      have ht := hb' t (by rw [← h]; rfl)
      exact absurd ht (ha t List.mem_cons_self)
    | cons u a' =>
      obtain ⟨rfl, hc⟩ := List.cons.inj h
      obtain ⟨rfl, rfl⟩ := ih hc (fun u hu => ha u (List.mem_cons_of_mem _ hu))
        fun u hu => ha' u (List.mem_cons_of_mem _ hu)
      exact ⟨rfl, rfl⟩

/-- A word is not reserved if no reserved word begins like it. -/
theorem isReserved_of_head {c : Char}
    (h : ∀ w ∈ clauseWords ++ logicWords, w.toList.head? ≠ some c.toUpper) (cs : List Char) :
    isReserved (c :: cs) = false := by
  have hw : ∀ w ∈ clauseWords ++ logicWords,
      w ≠ String.ofList ((c :: cs).map Char.toUpper) := by
    rintro w hm rfl
    apply h _ hm
    rw [String.toList_ofList]
    rfl
  rw [isReserved, Bool.or_eq_false_iff]
  constructor
  · rw [isAmong, List.contains_eq_mem, decide_eq_false_iff_not]
    exact fun hm => hw _ (List.mem_append_left _ hm) rfl
  · rw [isAmong, List.contains_eq_mem, decide_eq_false_iff_not]
    exact fun hm => hw _ (List.mem_append_right _ hm) rfl

theorem isReserved_of_mem {c : Char}
    (h : ∀ w ∈ clauseWords ++ logicWords, c.toUpper ∉ w.toList) (hc : c ∈ cs) :
    isReserved cs = false := by
  have hw : ∀ w ∈ clauseWords ++ logicWords, w ≠ String.ofList (cs.map Char.toUpper) := by
    rintro w hm rfl
    apply h _ hm
    rw [String.toList_ofList]
    exact List.mem_map_of_mem hc
  rw [isReserved, Bool.or_eq_false_iff]
  constructor
  · rw [isAmong, List.contains_eq_mem, decide_eq_false_iff_not]
    exact fun hm => hw _ (List.mem_append_left _ hm) rfl
  · rw [isAmong, List.contains_eq_mem, decide_eq_false_iff_not]
    exact fun hm => hw _ (List.mem_append_right _ hm) rfl

theorem isFigure_toUpper {c : Char} (h : isFigure c) : isFigure c.toUpper := by
  rw [isFigure, Bool.or_eq_true, List.contains_iff_mem] at h
  rcases h with h | h
  · have hc : c.toUpper = c := by
      simp only [Char.isDigit, Bool.and_eq_true, decide_eq_true_eq] at h
      apply dif_neg
      rintro ⟨h₁, _⟩
      simp only [ge_iff_le, UInt32.le_iff_toNat_le, UInt32.reduceToNat, Char.reduceVal] at h h₁
      omega
    rw [hc]
    exact isFigure_of_isDigit h
  · have hs : ['+', '-', '.', ':', 'T', 'Z'].all fun c => isFigure c.toUpper := by
      decide
    exact List.all_eq_true.mp hs c h

theorem isReserved_of_figures (h : Figures cs) : isReserved cs = false := by
  have hw : (clauseWords ++ logicWords).all fun w => w.toList.head?.all fun d => !isFigure d := by
    decide
  cases cs with
  | nil => exact absurd rfl h.ne_nil
  | cons c cs =>
    apply isReserved_of_head
    intro w hm hc
    have hn := (Option.all_eq_true _ _).mp (List.all_eq_true.mp hw w hm) _ hc
    rw [isFigure_toUpper (h.figures c List.mem_cons_self)] at hn
    cases hn

theorem isReserved_relativeDate (h : isRelativeDate s) : isReserved s.toList = false := by
  rcases isRelativeDate_cases h with hs | ⟨name, _, n, hs, _⟩
  · have hw : ∀ s ∈ relativeDates, isReserved s.toList = false := by
      decide
    exact hw s hs
  · apply isReserved_of_mem (c := ':') (by decide)
    rw [hs]
    exact List.mem_append_right _ List.mem_cons_self

theorem Quiet.word (h : isReserved cs = false) : Quiet [.word cs] := by
  intro t ht
  rw [List.mem_singleton.mp ht, Tree.isQuiet, h]
  rfl

theorem Quiet.append (ht : Quiet ts) (hu : Quiet us) : Quiet (ts ++ us) :=
  List.forall_mem_append.mpr ⟨ht, hu⟩

theorem Quiet.group (ts : List Tree) : Quiet [.group ts] := by
  intro t ht
  rw [List.mem_singleton.mp ht]
  rfl

theorem Quiet.blank (hu : Quiet us) : Quiet (.blank c :: us) :=
  List.forall_mem_cons.mpr ⟨rfl, hu⟩

theorem Literal.Known.quiet {v : Literal} (hv : v.Known) : Quiet [v.tree] := by
  cases v with
  | string s =>
    intro t ht
    rw [List.mem_singleton.mp ht]
    rfl
  | integer n => exact .word (isReserved_of_figures (.intText n))
  | number x =>
    by_cases hx : x.isFinite
    · have hr : (number x).chars = (Layout.plain.text x).toList := by
        rw [chars, render, if_pos hx]
      change Quiet [.word (number x).chars]
      rw [hr]
      exact .word (isReserved_of_figures (.double hx))
    · have hr : (number x).chars = [] := by
        rw [chars, render, if_neg hx]
      change Quiet [.word (number x).chars]
      rw [hr]
      exact .word (by decide)
  | boolean b => cases b <;> exact .word (by decide)
  | date d => exact .word (isReserved_of_figures (.date d))
  | instant t => exact .word (isReserved_of_figures (.instant t))
  | relativeDate s => exact .word (isReserved_relativeDate hv)
  | null => exact .word (by decide)

/-- References over free names have no reserved words and commas outside parentheses. -/
theorem FieldRef.Over.quiet (h : FieldRef.Over FreeName f) : Quiet f.trees := by
  cases h with
  | plain h => exact .word h.free
  | related hp h =>
    apply Quiet.word
    apply isReserved_of_mem (c := '.') (by decide)
    simp
  | @call fs label function ha hl =>
    have hf : isReserved function.name.toList = false := by
      cases function <;> decide
    exact (Quiet.word hf).append (.group _)
  | subquery hq h =>
    rw [trees_subquery hq h]
    exact .group _

theorem FieldRef.Over.quiet_select (h : FieldRef.Over FreeName f) : Quiet f.selectTrees := by
  have hq := h.quiet
  cases h with
  | plain h => exact hq
  | related hp h => exact hq
  | @call fs label function ha hl =>
    cases label with
    | none => exact hq
    | some s => exact hq.append (.blank (.word (hl s rfl).free))
  | subquery hq' h => exact hq

theorem Quiet.inner (h : Quiet ts) : Inner ts := by
  intro t ht
  have hq := h t ht
  cases t with
  | word cs =>
    rw [Tree.isQuiet, Bool.not_eq_true', isReserved, Bool.or_eq_false_iff] at hq
    exact hq.1
  | quoted body => rfl
  | blank c => rfl
  | comma => rfl
  | group ts => rfl

theorem Inner.append (ht : Inner ts) (hu : Inner us) : Inner (ts ++ us) :=
  List.forall_mem_append.mpr ⟨ht, hu⟩

theorem Inner.cons (ht : t.opens = false) (hu : Inner us) : Inner (t :: us) :=
  List.forall_mem_cons.mpr ⟨ht, hu⟩

theorem Inner.nil : Inner [] := by
  intro t ht
  cases ht

theorem Inner.intercalate (hm : Inner ms) (h : ∀ ts ∈ tss, Inner ts) :
    Inner (ms.intercalate tss) := by
  intro t ht
  rcases mem_intercalate ht with ht | ⟨ts, hts, ht⟩
  · exact hm t ht
  · exact h ts hts t ht

theorem Inner.listed (h : ∀ ts ∈ tss, Inner ts) : Inner (listed tss) :=
  .intercalate (.cons rfl (.cons rfl .nil)) h

theorem Inner.membership (h : Inner (FieldRef.trees f)) (op : Membership) (ts : List Tree) :
    Inner (membershipTrees f op ts) := by
  have ho : Inner op.trees := by
    cases op <;> decide
  rw [membershipTrees]
  exact (h.append (.cons rfl ho)).append (.cons rfl (.cons rfl .nil))

theorem mem_partTrees (h : ts ∈ Condition.partTrees cs) :
    ∃ c ∈ cs, ts = if c.isGroup then [.group c.trees] else c.trees := by
  induction cs with
  | nil =>
    rw [Condition.partTrees] at h
    cases h
  | cons c cs ih =>
    rw [Condition.partTrees] at h
    rcases List.mem_cons.mp h with rfl | h
    · exact ⟨c, List.mem_cons_self, rfl⟩
    · obtain ⟨d, hd, he⟩ := ih h
      exact ⟨d, List.mem_cons_of_mem _ hd, he⟩

theorem Inner.part (h : Inner (Condition.trees c)) :
    Inner (if c.isGroup then [.group c.trees] else c.trees) := by
  cases c.isGroup with
  | true => exact .cons rfl .nil
  | false => exact h

theorem Inner.joined (op : Connective) (negated : Bool) (h : ∀ ts ∈ tss, Inner ts) :
    Inner (if negated then [.word ['N', 'O', 'T'], .blank ' ', .group (op.trees.intercalate tss)]
      else op.trees.intercalate tss) := by
  have ho : Inner op.trees := by
    cases op <;> decide
  cases negated with
  | true => exact .cons (by decide) (.cons rfl (.cons rfl .nil))
  | false => exact .intercalate ho h

/-- Conditions over free names open no clause outside parentheses. -/
theorem Condition.Over.inner (h : Condition.Over FreeName c) : Inner c.trees := by
  induction h using Condition.Over.group_induction with
  | test h hg =>
    cases h with
    | @compare f op v hf hv =>
      have ho : Inner [.word op.text.toList] := by
        cases op <;> decide
      rw [Condition.trees]
      exact (hf.quiet.inner.append (.cons rfl ho)).append (.cons rfl hv.quiet.inner)
    | oneOf hf hv =>
      rw [Condition.trees]
      exact .membership hf.quiet.inner _ _
    | within hf hq =>
      rw [Condition.trees]
      exact .membership hf.quiet.inner _ _
    | group hc => cases hg
  | group hc ih =>
    rw [Condition.trees]
    apply Inner.joined
    intro ts hts
    obtain ⟨c, hm, rfl⟩ := mem_partTrees hts
    exact .part (ih c hm)

end OrgClient.Soql
