import Mathlib.Data.List.Basic
import OrgClient.Text.Quoted

namespace OrgClient.Text

set_option autoImplicit true

/-- The body of a string, up to the first quote that has no backslash before it, and what stands
behind that quote. A backslash takes the character after it. -/
def scanBody : List Char → Option (List Char × List Char)
  | [] => none
  | '\'' :: cs => some ([], cs)
  | '\\' :: c :: cs => (scanBody cs).map fun r => ('\\' :: c :: r.1, r.2)
  | c :: cs => (scanBody cs).map fun r => (c :: r.1, r.2)

/-- The body of the string that a text begins with, and the rest of the text. -/
def scanString : List Char → Option (List Char × List Char)
  | '\'' :: cs => scanBody cs
  | _ => none

/-- The character that a backslash and a character stand for. -/
def pairChar? : Char → Option Char
  | '\'' => some '\''
  | '"' => some '"'
  | '\\' => some '\\'
  | 'n' => some '\n'
  | 'r' => some '\r'
  | 't' => some '\t'
  | 'b' => some '\x08'
  | 'f' => some '\x0c'
  | _ => none

/-- The text that the body of a string stands for. -/
def unescape : List Char → Option (List Char)
  | [] => some []
  | '\\' :: [] => none
  | '\\' :: c :: cs => do return (← pairChar? c) :: (← unescape cs)
  | c :: cs => (unescape cs).map (c :: ·)

/-- Characters that are of a kind, and pairs of a backslash and any character. -/
inductive Guarded (P : Char → Prop) : List Char → Prop
  | nil : Guarded P []
  | pair (c : Char) (h : Guarded P cs) : Guarded P ('\\' :: c :: cs)
  | plain (hb : c ≠ '\\') (hc : P c) (h : Guarded P cs) : Guarded P (c :: cs)

theorem scanBody_plain (hq : c ≠ '\'') (hb : c ≠ '\\') (cs : List Char) :
    scanBody (c :: cs) = (scanBody cs).map fun r => (c :: r.1, r.2) := by
  rw [scanBody]
  · exact hq
  · rintro d ds rfl -
    exact hb rfl

theorem unescape_plain (hb : c ≠ '\\') (cs : List Char) :
    unescape (c :: cs) = (unescape cs).map (c :: ·) := by
  rw [unescape]
  · rintro rfl -
    exact hb rfl
  · rintro d ds rfl -
    exact hb rfl

namespace Guarded

theorem append (h : Guarded P cs) (h' : Guarded P ds) : Guarded P (cs ++ ds) := by
  induction h with
  | nil => exact h'
  | pair c _ ih => exact .pair c ih
  | plain hb hc _ ih => exact .plain hb hc ih

theorem flatMap {f : Char → List Char} (h : ∀ c, Guarded P (f c)) (cs : List Char) :
    Guarded P (cs.flatMap f) := by
  induction cs with
  | nil => exact .nil
  | cons c cs ih => exact (h c).append ih

theorem mono (h : Guarded P cs) (hi : ∀ c, P c → Q c) : Guarded Q cs := by
  induction h with
  | nil => exact .nil
  | pair c _ ih => exact .pair c ih
  | plain hb hc _ ih => exact .plain hb (hi _ hc) ih

theorem of_forall (h : ∀ c ∈ cs, c ≠ '\\' ∧ P c) : Guarded P cs := by
  induction cs with
  | nil => exact .nil
  | cons c cs ih =>
    obtain ⟨hc, hcs⟩ := List.forall_mem_cons.mp h
    exact .plain hc.1 hc.2 (ih hcs)

theorem scanBody (h : Guarded (· ≠ '\'') body) (rest : List Char) :
    scanBody (body ++ '\'' :: rest) = some (body, rest) := by
  induction h with
  | nil => rfl
  | pair c _ ih =>
    rw [List.cons_append, List.cons_append, Text.scanBody, ih]
    rfl
  | plain hb hc _ ih =>
    rw [List.cons_append, scanBody_plain hc hb, ih]
    rfl

end Guarded

theorem of_scanBody (h : scanBody cs = some (body, rest)) :
    cs = body ++ '\'' :: rest ∧ Guarded (· ≠ '\'') body := by
  fun_induction scanBody cs generalizing body with
  | case1 => cases h
  | case2 cs =>
    cases h
    exact ⟨rfl, .nil⟩
  | case3 c cs ih =>
    obtain ⟨⟨b, r⟩, hs, hr⟩ := Option.map_eq_some_iff.mp h
    cases hr
    obtain ⟨rfl, hg⟩ := ih hs
    exact ⟨rfl, .pair c hg⟩
  | case4 c cs hq hb ih =>
    obtain ⟨⟨b, r⟩, hs, hr⟩ := Option.map_eq_some_iff.mp h
    cases hr
    obtain ⟨rfl, hg⟩ := ih hs
    -- A backslash here would take the next character, and there is one: the closing quote.
    have hne : c ≠ '\\' := by
      rintro rfl
      cases b with
      | nil => exact hb _ _ rfl rfl
      | cons d ds => exact hb _ _ rfl rfl
    exact ⟨rfl, .plain hne hq hg⟩

/-- What is scanned is the text up to the first quote without a backslash before it. -/
theorem scanString_eq_some_iff :
    scanString cs = some (body, rest) ↔
      cs = '\'' :: body ++ '\'' :: rest ∧ Guarded (· ≠ '\'') body := by
  constructor
  · intro h
    rw [scanString.eq_def] at h
    split at h
    · obtain ⟨rfl, hg⟩ := of_scanBody h
      exact ⟨rfl, hg⟩
    · cases h
  · rintro ⟨rfl, h⟩
    exact h.scanBody rest

/-- A character is escaped as a pair that stands for it, or is left as it is. -/
theorem escapeChar_stands (c : Char) :
    (∃ d, escapeChar c = ['\\', d] ∧ pairChar? d = some c) ∨
      (escapeChar c = [c] ∧ c ≠ '\'' ∧ c ≠ '\\') := by
  unfold escapeChar
  split
  case h_9 hq _ hb _ _ _ _ _ => exact .inr ⟨rfl, hq, hb⟩
  all_goals exact .inl ⟨_, rfl, rfl⟩

theorem guarded_escapeChar (c : Char) : Guarded (· ≠ '\'') (escapeChar c) := by
  rcases escapeChar_stands c with ⟨d, he, -⟩ | ⟨he, hq, hb⟩
  · rw [he]
    exact .pair d .nil
  · rw [he]
    exact .plain hb hq .nil

theorem unescape_escapeChars (cs : List Char) : unescape (cs.flatMap escapeChar) = some cs := by
  induction cs with
  | nil => rfl
  | cons c cs ih =>
    rw [List.flatMap_cons]
    rcases escapeChar_stands c with ⟨d, he, hd⟩ | ⟨he, -, hb⟩
    · rw [he, List.cons_append, List.cons_append, List.nil_append, unescape, hd, ih]
      rfl
    · rw [he, List.singleton_append, unescape_plain hb, ih]
      rfl

theorem toList_escape (s : String) : (escape s).toList = s.toList.flatMap escapeChar :=
  String.toList_ofList

theorem guarded_escape (s : String) : Guarded (· ≠ '\'') (escape s).toList := by
  rw [toList_escape]
  exact .flatMap guarded_escapeChar s.toList

theorem toList_quote (s : String) : (quote s).toList = '\'' :: (escape s).toList ++ ['\''] := by
  simp [quote, String.toList_append]

/-- A string in quotes is scanned to its own closing quote. -/
theorem scanString_quote (s : String) (rest : List Char) :
    scanString ((quote s).toList ++ rest) = some ((escape s).toList, rest) := by
  refine scanString_eq_some_iff.mpr ⟨?_, guarded_escape s⟩
  rw [toList_quote, List.append_assoc, List.singleton_append]

theorem unescape_escape (s : String) : unescape (escape s).toList = some s.toList := by
  rw [toList_escape]
  exact unescape_escapeChars s.toList

theorem escape_injective : Function.Injective escape := by
  intro s t h
  have hu := unescape_escape s
  rw [h, unescape_escape, Option.some.injEq] at hu
  exact (String.toList_inj.mp hu).symm

end OrgClient.Text
