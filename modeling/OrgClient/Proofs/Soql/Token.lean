import Mathlib.Data.List.Chain
import OrgClient.Proofs.Text.Quoted
import OrgClient.Text.Blank

namespace OrgClient.Soql

open Text
set_option autoImplicit true

/-- A piece of a text. A string in quotes is one token, with its escapes as they are written. -/
inductive Token where
  | word (cs : List Char)
  | quoted (body : List Char)
  | blank (c : Char)
  | comma
  | opening
  | closing
  deriving DecidableEq, Repr

def delimiters : List Char :=
  ['\'', ' ', '\t', '\n', '\r', '\x0c', ',', '(', ')']

/-- The characters that words are made of. -/
def isWordChar (c : Char) : Bool :=
  !delimiters.contains c

def consWord (c : Char) : List Token → List Token
  | .word cs :: ts => .word (c :: cs) :: ts
  | ts => .word [c] :: ts

mutual

/-- The tokens of a text; a string that does not end has none. -/
def lex : List Char → Option (List Token)
  | [] => some []
  | '\'' :: cs => (lexQuoted cs).map fun r => .quoted r.1 :: r.2
  | c :: cs =>
    if isAsciiBlank c then (lex cs).map (.blank c :: ·)
    else if c = ',' then (lex cs).map (.comma :: ·)
    else if c = '(' then (lex cs).map (.opening :: ·)
    else if c = ')' then (lex cs).map (.closing :: ·)
    else (lex cs).map (consWord c)

/-- The rest of a string up to its closing quote, and the tokens behind it. A character behind a
backslash does not close the string. -/
def lexQuoted : List Char → Option (List Char × List Token)
  | [] => none
  | '\'' :: cs => (lex cs).map fun ts => ([], ts)
  | '\\' :: c :: cs => (lexQuoted cs).map fun r => ('\\' :: c :: r.1, r.2)
  | c :: cs => (lexQuoted cs).map fun r => (c :: r.1, r.2)

end

namespace Token

def text : Token → List Char
  | .word cs => cs
  | .quoted body => '\'' :: body ++ ['\'']
  | .blank c => [c]
  | .comma => [',']
  | .opening => ['(']
  | .closing => [')']

def isWord : Token → Bool
  | .word _ => true
  | _ => false

def isBlank : Token → Bool
  | .blank _ => true
  | _ => false

/-- Words are not empty, and strings hold the escapes of a text. -/
def Sound : Token → Prop
  | .word cs => cs ≠ [] ∧ ∀ c ∈ cs, isWordChar c
  | .quoted body => ∃ cs : List Char, body = cs.flatMap escapeChar
  | .blank c => isAsciiBlank c
  | _ => True

/-- Two words cannot follow one another. -/
def Apart (t u : Token) : Prop :=
  ¬(t.isWord ∧ u.isWord)

end Token

/-- The text that is made of some tokens. -/
def spell (ts : List Token) : List Char :=
  ts.flatMap Token.text

/-- Tokens that can be told apart in the text that is made of them. -/
structure Separated (ts : List Token) : Prop where
  sound : ∀ t ∈ ts, t.Sound
  apart : ts.IsChain Token.Apart

theorem lex_blank (h : isAsciiBlank c) (cs : List Char) :
    lex (c :: cs) = (lex cs).map (.blank c :: ·) := by
  have hc : c ≠ '\'' := by
    rintro rfl
    simp [isAsciiBlank] at h
  rw [lex]
  · rw [if_pos h]
  · exact hc

theorem lex_comma (cs : List Char) : lex (',' :: cs) = (lex cs).map (.comma :: ·) := by
  rw [lex]
  · rfl
  · decide

theorem lex_opening (cs : List Char) : lex ('(' :: cs) = (lex cs).map (.opening :: ·) := by
  rw [lex]
  · rfl
  · decide

theorem lex_closing (cs : List Char) : lex (')' :: cs) = (lex cs).map (.closing :: ·) := by
  rw [lex]
  · rfl
  · decide

/-- A class of characters without delimiters has word characters only. -/
theorem isWordChar_of {p : Char → Bool} (hp : delimiters.all fun d => !p d) (h : p c) :
    isWordChar c := by
  rw [isWordChar, Bool.not_eq_true', List.contains_eq_mem, decide_eq_false_iff_not]
  intro hc
  have hn := List.all_eq_true.mp hp c hc
  rw [h] at hn
  cases hn

theorem lex_wordChar (h : isWordChar c) (cs : List Char) :
    lex (c :: cs) = (lex cs).map (consWord c) := by
  simp only [isWordChar, delimiters, Bool.not_eq_true', List.contains_eq_mem,
    decide_eq_false_iff_not, List.mem_cons, List.not_mem_nil, or_false, not_or] at h
  obtain ⟨hq, hs, ht, hn, hr, hf, hc, ho, hp⟩ := h
  have hb : isAsciiBlank c = false := by
    simp only [isAsciiBlank, Bool.or_eq_false_iff, beq_eq_false_iff_ne]
    exact ⟨⟨⟨⟨hs, ht⟩, hn⟩, hr⟩, hf⟩
  rw [lex]
  · simp only [hb, Bool.false_eq_true, if_false, if_neg hc, if_neg ho, if_neg hp]
  · exact hq

/-- A word is read up to something that is not a word. -/
theorem lex_word (hw : ∀ c ∈ w, isWordChar c) (hne : w ≠ []) (hr : lex rest = some ts)
    (hts : ∀ t ∈ ts.head?, t.isWord = false) : lex (w ++ rest) = some (.word w :: ts) := by
  induction w with
  | nil => exact absurd rfl hne
  | cons c w ih =>
    have hc := hw c List.mem_cons_self
    rw [List.cons_append, lex_wordChar hc]
    cases w with
    | nil =>
      rw [List.nil_append, hr]
      cases ts with
      | nil => rfl
      | cons t ts =>
        have ht := hts t rfl
        cases t <;> first | rfl | cases ht
    | cons d w =>
      rw [ih (fun e he => hw e (List.mem_cons_of_mem _ he)) (List.cons_ne_nil _ _)]
      rfl

/-- The tokens behind a string are those of the text that is left when it is scanned. -/
theorem lexQuoted_eq (cs : List Char) :
    lexQuoted cs = (scanBody cs).bind fun r => (lex r.2).map fun ts => (r.1, ts) := by
  fun_induction scanBody cs with
  | case1 => rw [lexQuoted, Option.bind_none]
  | case2 cs => rw [lexQuoted, Option.bind_some]
  | case3 c cs ih =>
    rw [lexQuoted, ih]
    cases scanBody cs with
    | none => rfl
    | some r => simp only [Option.bind_some, Option.map_some, Option.map_map, Function.comp_def]
  | case4 c cs hq hb ih =>
    rw [lexQuoted, ih]
    · cases scanBody cs with
      | none => rfl
      | some r => simp only [Option.bind_some, Option.map_some, Option.map_map, Function.comp_def]
    · exact hq
    · exact hb

/-- The escapes of a text are read up to the quote behind them. -/
theorem lexQuoted_escape (cs rest : List Char) :
    lexQuoted (cs.flatMap escapeChar ++ '\'' :: rest) =
      (lex rest).map fun ts => (cs.flatMap escapeChar, ts) := by
  rw [lexQuoted_eq, (Guarded.flatMap guarded_escapeChar cs).scanBody rest, Option.bind_some]

theorem lex_quoted (cs rest : List Char) :
    lex ('\'' :: (cs.flatMap escapeChar ++ '\'' :: rest)) =
      (lex rest).map (.quoted (cs.flatMap escapeChar) :: ·) := by
  rw [lex, lexQuoted_escape, Option.map_map]
  rfl

theorem lex_spell_append (h : Separated (ts ++ us)) (hr : lex rest = some us) :
    lex (spell ts ++ rest) = some (ts ++ us) := by
  induction ts with
  | nil => exact hr
  | cons t ts ih =>
    have hs := ih ⟨fun u hu => h.sound u (List.mem_cons_of_mem _ hu), h.apart.tail⟩
    have ht := h.sound t List.mem_cons_self
    rw [spell, List.flatMap_cons, List.append_assoc]
    change lex (t.text ++ (spell ts ++ rest)) = _
    cases t with
    | word w =>
      -- No other word follows, so this one ends where the next token begins.
      apply lex_word ht.2 ht.1 hs
      intro u hu
      have ha := (List.isChain_cons.mp h.apart).1 u hu
      simpa [Token.Apart, Token.isWord] using ha
    | quoted body =>
      obtain ⟨cs, rfl⟩ := ht
      simp only [Token.text, List.cons_append, List.append_assoc, List.nil_append]
      rw [lex_quoted, hs]
      rfl
    | blank c =>
      simp only [Token.text, List.cons_append, List.nil_append]
      rw [lex_blank ht, hs]
      rfl
    | comma =>
      simp only [Token.text, List.cons_append, List.nil_append]
      rw [lex_comma, hs]
      rfl
    | opening =>
      simp only [Token.text, List.cons_append, List.nil_append]
      rw [lex_opening, hs]
      rfl
    | closing =>
      simp only [Token.text, List.cons_append, List.nil_append]
      rw [lex_closing, hs]
      rfl

/-- Tokens are read back from the text that is made of them. -/
theorem lex_spell (h : Separated ts) : lex (spell ts) = some ts := by
  have ha : Separated (ts ++ []) := by
    rwa [List.append_nil]
  have hs : lex (spell ts ++ []) = some (ts ++ []) := lex_spell_append ha rfl
  rwa [List.append_nil, List.append_nil] at hs

end OrgClient.Soql
