import OrgClient.Proofs.Soql.Token

namespace OrgClient.Soql

set_option autoImplicit true

/-- A token that is no parenthesis, or all between two parentheses. -/
inductive Tree where
  | word (cs : List Char)
  | quoted (body : List Char)
  | blank (c : Char)
  | comma
  | group (ts : List Tree)
  deriving Repr, Inhabited

mutual

def Tree.tokens : Tree → List Token
  | .word cs => [.word cs]
  | .quoted body => [.quoted body]
  | .blank c => [.blank c]
  | .comma => [.comma]
  | .group ts => .opening :: flatten ts ++ [.closing]

def flatten : List Tree → List Token
  | [] => []
  | t :: ts => t.tokens ++ flatten ts

end

/-- Reads tokens from the last to the first: the trees of the innermost level that is not opened
yet, and those of the levels around it. -/
def levels : List Token → Option (List Tree × List (List Tree))
  | [] => some ([], [])
  | .word cs :: ts => (levels ts).map fun r => (.word cs :: r.1, r.2)
  | .quoted body :: ts => (levels ts).map fun r => (.quoted body :: r.1, r.2)
  | .blank c :: ts => (levels ts).map fun r => (.blank c :: r.1, r.2)
  | .comma :: ts => (levels ts).map fun r => (.comma :: r.1, r.2)
  | .closing :: ts => (levels ts).map fun r => ([], r.1 :: r.2)
  | .opening :: ts =>
    match levels ts with
    | some (inner, outer :: ls) => some (.group inner :: outer, ls)
    | _ => none

/-- The trees of tokens whose parentheses match. -/
def nest (ts : List Token) : Option (List Tree) :=
  match levels ts with
  | some (level, []) => some level
  | _ => none

/-- The trees of a text. -/
def read (text : String) : Option (List Tree) :=
  (lex text.toList).bind nest

mutual

theorem Tree.levels_tokens (t : Tree) (h : levels us = some (level, ls)) :
    levels (t.tokens ++ us) = some (t :: level, ls) := by
  cases t with
  | word cs => simp [Tree.tokens, levels, h]
  | quoted body => simp [Tree.tokens, levels, h]
  | blank c => simp [Tree.tokens, levels, h]
  | comma => simp [Tree.tokens, levels, h]
  | group ts =>
    have hc : levels (.closing :: us) = some ([], level :: ls) := by
      rw [levels, h]
      rfl
    have hi := levels_flatten ts hc
    simp only [Tree.tokens, List.cons_append, List.append_assoc, List.nil_append, levels, hi,
      List.append_nil]

theorem levels_flatten (ts : List Tree) (h : levels us = some (level, ls)) :
    levels (flatten ts ++ us) = some (ts ++ level, ls) := by
  cases ts with
  | nil => exact h
  | cons t ts =>
    rw [flatten, List.append_assoc]
    exact t.levels_tokens (levels_flatten ts h)

end

/-- Trees are read back from their tokens. -/
theorem nest_flatten (ts : List Tree) : nest (flatten ts) = some ts := by
  have h : levels (flatten ts ++ []) = some (ts ++ [], []) := levels_flatten ts rfl
  rw [List.append_nil, List.append_nil] at h
  rw [nest, h]

@[simp] theorem flatten_nil : flatten [] = [] := by
  rw [flatten]

@[simp] theorem flatten_cons (t : Tree) (ts : List Tree) :
    flatten (t :: ts) = t.tokens ++ flatten ts := by
  rw [flatten]

@[simp] theorem flatten_append (ts us : List Tree) :
    flatten (ts ++ us) = flatten ts ++ flatten us := by
  induction ts with
  | nil => rw [flatten_nil, List.nil_append, List.nil_append]
  | cons t ts ih => rw [List.cons_append, flatten_cons, flatten_cons, ih, List.append_assoc]

/-- Trees that a text is made of, and that can be told apart in it. -/
structure Spells (s : String) (ts : List Tree) : Prop where
  text : s.toList = spell (flatten ts)
  separated : Separated (flatten ts)

/-- Trees that words can stand in front of. -/
def Detached (ts : List Tree) : Prop :=
  ∀ t ∈ (flatten ts).head?, t.isWord = false

theorem Detached.nil : Detached [] := by
  intro t ht
  cases ht

theorem Detached.blank (c : Char) (ts : List Tree) : Detached (.blank c :: ts) := by
  intro t ht
  cases ht
  rfl

/-- Tokens that words can stand on both sides of. -/
structure Loose (ts : List Token) : Prop where
  first : ∃ t, ts.head? = some t ∧ t.isWord = false
  last : ∃ t, ts.getLast? = some t ∧ t.isWord = false

theorem Separated.single {t : Token} (ht : t.Sound) : Separated [t] := by
  refine ⟨?_, List.IsChain.singleton t⟩
  intro u hu
  rw [List.mem_singleton.mp hu]
  exact ht

theorem Separated.append (hs : Separated ts) (hu : Separated us)
    (h : ∀ t ∈ ts.getLast?, ∀ u ∈ us.head?, t.Apart u) : Separated (ts ++ us) := by
  refine ⟨?_, List.isChain_append.mpr ⟨hs.apart, hu.apart, h⟩⟩
  intro t ht
  rcases List.mem_append.mp ht with ht | ht
  · exact hs.sound t ht
  · exact hu.sound t ht

theorem Separated.glue (hs : Separated ts) (hm : Separated ms) (hu : Separated us)
    (h : Loose ms) : Separated (ts ++ ms ++ us) := by
  obtain ⟨m, hm₁, hw₁⟩ := h.first
  obtain ⟨n, hn₁, hw₂⟩ := h.last
  apply Separated.append (hs.append hm ?_) hu
  · intro t ht u _ hw
    have hl : (ts ++ ms).getLast? = some n := by
      rw [List.getLast?_append, hn₁]
      rfl
    rw [hl, Option.mem_some_iff] at ht
    rw [← ht, hw₂] at hw
    exact absurd hw.1 Bool.false_ne_true
  · intro t _ u hu hw
    rw [hm₁, Option.mem_some_iff] at hu
    rw [← hu, hw₁] at hw
    exact absurd hw.2 Bool.false_ne_true

namespace Spells

theorem read (h : Spells s ts) : read s = some ts := by
  rw [Soql.read, h.text, lex_spell h.separated]
  exact nest_flatten ts

theorem trees_eq (h : Spells s ts) (h' : Spells s us) : ts = us :=
  Option.some.inj (h.read.symm.trans h'.read)

theorem text_eq (h : Spells s ts) (h' : Spells t ts) : s = t :=
  String.toList_inj.mp (h.text.trans h'.text.symm)

theorem empty : Spells "" [] :=
  ⟨rfl, ⟨fun _ h => absurd h List.not_mem_nil, List.IsChain.nil⟩⟩

theorem single {t : Token} (hs : s.toList = t.text) (ht : t.Sound) (hf : flatten ts = [t]) :
    Spells s ts := by
  refine ⟨?_, ?_⟩
  · rw [hf, hs, spell, List.flatMap_singleton]
  · rw [hf]
    exact .single ht

theorem word (hne : s.toList ≠ []) (h : ∀ c ∈ s.toList, isWordChar c) :
    Spells s [.word s.toList] :=
  single (t := .word s.toList) rfl ⟨hne, h⟩ rfl

theorem quote (s : String) : Spells (Text.quote s) [.quoted (Text.escape s).toList] := by
  apply single (t := .quoted (Text.escape s).toList)
  · simp [Text.quote, Token.text]
  · exact ⟨s.toList, by rw [Text.escape, String.toList_ofList]⟩
  · rfl

theorem append_of_apart (hs : Spells s ts) (ht : Spells t us)
    (h : ∀ t ∈ (flatten ts).getLast?, ∀ u ∈ (flatten us).head?, t.Apart u) :
    Spells (s ++ t) (ts ++ us) := by
  refine ⟨?_, ?_⟩
  · simp only [String.toList_append, hs.text, ht.text, flatten_append, spell, List.flatMap_append]
  · rw [flatten_append]
    exact hs.separated.append ht.separated h

theorem append (hs : Spells s ts) (ht : Spells t us) (h : Detached us) :
    Spells (s ++ t) (ts ++ us) := by
  apply hs.append_of_apart ht
  intro t _ u hu hw
  rw [h u hu] at hw
  exact absurd hw.2 Bool.false_ne_true

theorem glue (hs : Spells s ts) (hm : Spells m ms) (ht : Spells t us) (h : Loose (flatten ms)) :
    Spells (s ++ m ++ t) (ts ++ ms ++ us) := by
  refine ⟨?_, ?_⟩
  · simp only [String.toList_append, hs.text, hm.text, ht.text, flatten_append, spell,
      List.flatMap_append]
  · rw [flatten_append, flatten_append]
    exact hs.separated.glue hm.separated ht.separated h

theorem space : Spells " " [.blank ' '] :=
  single (t := .blank ' ') rfl rfl rfl

theorem loose_space : Loose (flatten [.blank ' ']) :=
  ⟨⟨_, rfl, rfl⟩, ⟨_, rfl, rfl⟩⟩

theorem spaced (hs : Spells s ts) (ht : Spells t us) :
    Spells (s ++ " " ++ t) (ts ++ .blank ' ' :: us) := by
  have h := hs.glue space ht loose_space
  rwa [List.append_assoc] at h

theorem loose_opening : Loose [.opening] :=
  ⟨⟨_, rfl, rfl⟩, ⟨_, rfl, rfl⟩⟩

theorem grouped (hs : Spells s ts) (ht : Spells t us) :
    Spells (s ++ "(" ++ t ++ ")") (ts ++ [.group us]) := by
  have hg : flatten (ts ++ [.group us]) =
      flatten ts ++ ([.opening] ++ flatten us ++ [.closing]) := by
    simp [Tree.tokens]
  refine ⟨?_, ?_⟩
  · rw [hg]
    simp only [String.toList_append, hs.text, ht.text, spell, List.flatMap_append,
      List.append_assoc]
    rfl
  · rw [hg, ← List.append_assoc, ← List.append_assoc]
    have ho : Separated [.opening] := .single trivial
    have hc : Separated [.closing] := .single trivial
    apply (hs.separated.glue ho ht.separated loose_opening).append hc
    intro t _ u hu hw
    cases hu
    exact absurd hw.2 Bool.false_ne_true

theorem comma : Spells "," [.comma] :=
  single (t := .comma) rfl trivial rfl

theorem intercalate (hm : Spells m ms) (hl : Loose (flatten ms)) (h : List.Forall₂ Spells ss tss) :
    Spells (m.intercalate ss) (ms.intercalate tss) := by
  induction h with
  | nil => exact empty
  | @cons s ts ss tss hs h ih =>
    cases h with
    | nil =>
      rw [String.intercalate_singleton, List.intercalate_singleton]
      exact hs
    | cons ht h =>
      rw [String.intercalate_cons_cons, List.intercalate_cons_cons]
      exact hs.glue hm ih hl

end Spells

end OrgClient.Soql
