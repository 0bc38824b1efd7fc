import OrgClient.Proofs.Text.Quoted
import OrgClient.Soql.Compose

namespace OrgClient.Soql

open Text
set_option autoImplicit true

/-- What a pattern is made of. -/
inductive PatternPart where
  | exactly (c : Char)
  | anyText
  | anyChar
  deriving DecidableEq, Repr

namespace PatternPart

/-- What a character of a pattern stands for without a backslash before it. -/
def ofChar : Char → PatternPart
  | '%' => .anyText
  | '_' => .anyChar
  | c => .exactly c

/-- The character that a backslash and a character stand for. -/
def escaped? : Char → Option Char
  | '\'' => some '\''
  | '"' => some '"'
  | '\\' => some '\\'
  | 'n' => some '\n'
  | 'r' => some '\r'
  | 't' => some '\t'
  | 'b' => some '\x08'
  | 'f' => some '\x0c'
  | '%' => some '%'
  | '_' => some '_'
  | _ => none

end PatternPart

/-- The parts of the body of a quoted pattern. -/
def readPattern : List Char → List PatternPart
  | [] => []
  | '\\' :: c :: cs =>
    match PatternPart.escaped? c with
    | some d => .exactly d :: readPattern cs
    | none => .exactly '\\' :: readPattern (c :: cs)
  | c :: cs => .ofChar c :: readPattern cs

theorem readPattern_pair (h : PatternPart.escaped? c = some d) (cs : List Char) :
    readPattern ('\\' :: c :: cs) = .exactly d :: readPattern cs := by
  rw [readPattern, h]

theorem readPattern_plain (h : c ≠ '\\') (cs : List Char) :
    readPattern (c :: cs) = .ofChar c :: readPattern cs := by
  rw [readPattern]
  rintro d ds rfl -
  exact h rfl

theorem PatternPart.ofChar_eq (hp : c ≠ '%') (hu : c ≠ '_') : ofChar c = .exactly c := by
  rw [ofChar]
  · exact hp
  · exact hu

/-- The pairs of strings are pairs of patterns, and neither stand for wildcards nor hold any. -/
theorem PatternPart.of_pairChar? (h : pairChar? d = some c) :
    escaped? d = some c ∧ ofChar c = .exactly c ∧ escapeWildcard d = [d] := by
  unfold pairChar? at h
  split at h <;> cases h <;> exact ⟨rfl, rfl, rfl⟩

/-- Each character of an escaped pattern is read as what it stands for in the pattern. -/
theorem readPattern_escape (cs rest : List Char) :
    readPattern (cs.flatMap escapeChar ++ rest) =
      cs.map PatternPart.ofChar ++ readPattern rest := by
  induction cs with
  | nil => rfl
  | cons c cs ih =>
    rw [List.flatMap_cons, List.append_assoc, List.map_cons, List.cons_append]
    rcases escapeChar_stands c with ⟨d, he, hd⟩ | ⟨he, -, hc⟩
    · obtain ⟨hd, hc, -⟩ := PatternPart.of_pairChar? hd
      rw [he, hc, ← ih]
      exact readPattern_pair hd _
    · rw [he, ← ih]
      exact readPattern_plain hc _

theorem readPattern_escape_toList (s : String) :
    readPattern (escape s).toList = s.toList.map PatternPart.ofChar := by
  have h := readPattern_escape s.toList []
  rwa [List.append_nil, readPattern, List.append_nil, ← String.toList_ofList
    (l := s.toList.flatMap escapeChar)] at h

theorem PatternPart.ofChar_eq_exactly (h : ofChar c = .exactly d) : c = d := by
  unfold ofChar at h
  split at h
  · cases h
  · cases h
  · cases h
    rfl

theorem eq_of_map_ofChar {cs ds : List Char} (h : cs.map PatternPart.ofChar = ds.map .exactly) :
    cs = ds := by
  induction cs generalizing ds with
  | nil =>
    cases ds with
    | nil => rfl
    | cons d ds => cases h
  | cons c cs ih =>
    cases ds with
    | nil => cases h
    | cons d ds =>
      rw [List.map_cons, List.map_cons, List.cons.injEq] at h
      rw [PatternPart.ofChar_eq_exactly h.1, ih h.2]

/-- What stands for a character in an escaped text for patterns. -/
def escapeLikeChar (c : Char) : List Char :=
  (escapeChar c).flatMap escapeWildcard

theorem toList_escapeLike (s : String) :
    (escapeLike s).toList = s.toList.flatMap escapeLikeChar := by
  simp only [escapeLike, escape, String.toList_ofList, List.flatMap_assoc]
  rfl

/-- A character is escaped for patterns as a pair that is read as it, or is left as it is. -/
theorem escapeLikeChar_reads (c : Char) :
    (∃ d, escapeLikeChar c = ['\\', d] ∧ PatternPart.escaped? d = some c) ∨
      (escapeLikeChar c = [c] ∧ c ≠ '\\' ∧ c ≠ '\'' ∧ c ≠ '%' ∧ c ≠ '_') := by
  rw [escapeLikeChar]
  rcases escapeChar_stands c with ⟨d, he, hd⟩ | ⟨he, hq, hb⟩
  · obtain ⟨hd, -, hw⟩ := PatternPart.of_pairChar? hd
    refine .inl ⟨d, ?_, hd⟩
    rw [he, List.flatMap_cons, List.flatMap_singleton, hw]
    rfl
  · rw [he, List.flatMap_singleton]
    unfold escapeWildcard
    split
    · exact .inl ⟨_, rfl, rfl⟩
    · exact .inl ⟨_, rfl, rfl⟩
    · rename_i hp hu
      exact .inr ⟨rfl, hb, hq, hp, hu⟩

/-- A character stands for itself in patterns, or its escape is longer than it. -/
theorem escapeLikeChar_cases (c : Char) :
    (escapeLikeChar c = [c] ∧ PatternPart.ofChar c = .exactly c) ∨
      2 ≤ (escapeLikeChar c).length := by
  rcases escapeLikeChar_reads c with ⟨d, he, -⟩ | ⟨he, -, -, hp, hu⟩
  · rw [he]
    exact .inr (Nat.le_refl 2)
  · exact .inl ⟨he, PatternPart.ofChar_eq hp hu⟩

theorem length_le_flatMap_escapeLikeChar (cs : List Char) :
    cs.length ≤ (cs.flatMap escapeLikeChar).length := by
  induction cs with
  | nil => exact Nat.le_refl 0
  | cons c cs ih =>
    have hc : 1 ≤ (escapeLikeChar c).length := by
      rcases escapeLikeChar_cases c with ⟨h, -⟩ | h
      · rw [h]
        exact Nat.le_refl 1
      · omega
    rw [List.flatMap_cons, List.length_append, List.length_cons]
    omega

/-- Only characters that stand for themselves are left as they are by all escapes. -/
theorem map_ofChar_of_flatMap {cs : List Char} (h : cs.flatMap escapeLikeChar = cs) :
    cs.map PatternPart.ofChar = cs.map .exactly := by
  induction cs with
  | nil => rfl
  | cons c cs ih =>
    rw [List.flatMap_cons] at h
    rcases escapeLikeChar_cases c with ⟨he, hc⟩ | hlong
    · rw [he, List.singleton_append, List.cons.injEq] at h
      rw [List.map_cons, List.map_cons, hc, ih h.2]
    · -- The text behind is no shorter than it was, so all together is too long.
      have hl := congrArg List.length h
      have hcs := length_le_flatMap_escapeLikeChar cs
      rw [List.length_append, List.length_cons] at hl
      omega

theorem map_ofChar_escapeLike_iff (s : String) :
    (escapeLike s).toList.map PatternPart.ofChar = s.toList.map .exactly ↔ escapeLike s = s := by
  constructor
  · intro h
    exact String.toList_inj.mp (eq_of_map_ofChar h)
  · intro h
    rw [toList_escapeLike]
    have hs : s.toList.flatMap escapeLikeChar = s.toList := by
      rw [← toList_escapeLike, h]
    rw [hs]
    exact map_ofChar_of_flatMap hs

namespace Condition

theorem render_like (f : FieldRef) (pattern : String) :
    (compare f .like (.string pattern)).render =
      .ok (f.render ++ " LIKE '" ++ escape pattern ++ "'") := by
  have hq : f.render ++ " " ++ "LIKE" ++ " " ++ quote pattern =
      f.render ++ " LIKE '" ++ escape pattern ++ "'" := by
    simp only [quote, String.append_assoc]
    rfl
  rw [← hq]
  rfl

/-- A pattern that ends an escaped text with wildcards is read as the escaped text, backslashes and
all, and the wildcards. So it is read as the text itself just if nothing in it has an escape. -/
theorem like_escapeLike_reads_iff (f : FieldRef) (text wildcards : String) :
    ∃ body, (compare f .like (.string (escapeLike text ++ wildcards))).render =
        .ok (f.render ++ " LIKE '" ++ body ++ "'") ∧
      readPattern body.toList = (escapeLike text).toList.map .ofChar ++
        wildcards.toList.map .ofChar ∧
      (readPattern body.toList = text.toList.map .exactly ++ wildcards.toList.map .ofChar ↔
        escapeLike text = text) := by
  have hr : readPattern (escape (escapeLike text ++ wildcards)).toList =
      (escapeLike text).toList.map .ofChar ++ wildcards.toList.map .ofChar := by
    rw [readPattern_escape_toList, String.toList_append, List.map_append]
  refine ⟨escape (escapeLike text ++ wildcards), render_like f _, hr, ?_⟩
  rw [hr, List.append_left_inj, map_ofChar_escapeLike_iff]

/-- An escaped percent sign is read as a backslash and a wildcard. -/
theorem like_escaped_percent :
    (compare (.plain "Name") .like (.string (escapeLike "100%" ++ "%"))).render =
        .ok ("Name" ++ " LIKE '" ++ "100\\\\%%" ++ "'") ∧
      readPattern "100\\\\%%".toList ≠ "100%".toList.map .exactly ++ "%".toList.map .ofChar := by
  refine ⟨rfl, ?_⟩
  decide

end Condition

theorem readPattern_escapeLikeChars (cs rest : List Char) :
    readPattern (cs.flatMap escapeLikeChar ++ rest) = cs.map .exactly ++ readPattern rest := by
  induction cs with
  | nil => rfl
  | cons c cs ih =>
    rw [List.flatMap_cons, List.append_assoc, List.map_cons, List.cons_append, ← ih]
    rcases escapeLikeChar_reads c with ⟨d, he, hd⟩ | ⟨he, hb, -, hp, hu⟩
    · rw [he]
      exact readPattern_pair hd _
    · rw [he, ← PatternPart.ofChar_eq hp hu]
      exact readPattern_plain hb _

theorem readPattern_of_forall {cs : List Char} (h : ∀ c ∈ cs, c ≠ '\\') :
    readPattern cs = cs.map PatternPart.ofChar := by
  induction cs with
  | nil => rfl
  | cons c cs ih =>
    obtain ⟨hc, hcs⟩ := List.forall_mem_cons.mp h
    rw [readPattern_plain hc, ih hcs, List.map_cons]

theorem guarded_escapeLike (s : String) :
    Guarded (fun c => c ≠ '\'' ∧ c ≠ '%' ∧ c ≠ '_') (escapeLike s).toList := by
  rw [toList_escapeLike]
  refine .flatMap (fun c => ?_) s.toList
  rcases escapeLikeChar_reads c with ⟨d, he, -⟩ | ⟨he, hb, hc⟩
  · rw [he]
    exact .pair d .nil
  · rw [he]
    exact .plain hb hc .nil

/-- An escaped text and wildcards behind it, put between quotes, are one string whatever follows. It
is read as the characters of the text and the wildcards, and in the escaped text each quote and each
wildcard stands behind a backslash. -/
theorem escapeLike_denotes (text wildcards rest : String)
    (hw : ∀ c ∈ wildcards.toList, c = '%' ∨ c = '_') :
    scanString ("'" ++ escapeLike text ++ wildcards ++ "'" ++ rest).toList =
        some ((escapeLike text ++ wildcards).toList, rest.toList) ∧
      readPattern (escapeLike text ++ wildcards).toList =
        text.toList.map .exactly ++ wildcards.toList.map .ofChar ∧
      Guarded (fun c => c ≠ '\'' ∧ c ≠ '%' ∧ c ≠ '_') (escapeLike text).toList := by
  have hne : ∀ c ∈ wildcards.toList, c ≠ '\\' ∧ c ≠ '\'' := by
    intro c hc
    rcases hw c hc with rfl | rfl <;> decide
  have hg := guarded_escapeLike text
  refine ⟨scanString_eq_some_iff.mpr ⟨?_, ?_⟩, ?_, hg⟩
  · simp [String.toList_append]
  · rw [String.toList_append]
    exact (hg.mono fun _ h => h.1).append (.of_forall hne)
  · rw [String.toList_append, toList_escapeLike, readPattern_escapeLikeChars,
      readPattern_of_forall fun c hc => (hne c hc).1]

theorem escapeLike_denotes_backslashes :
    (∀ c ∈ "_%".toList, c = '%' ∨ c = '_') ∧
      readPattern (escapeLike "\\%\\" ++ "_%").toList =
        [.exactly '\\', .exactly '%', .exactly '\\', .anyChar, .anyText] := by
  have hw : ∀ c ∈ "_%".toList, c = '%' ∨ c = '_' := by
    simp
  exact ⟨hw, (escapeLike_denotes "\\%\\" "_%" "" hw).2.1⟩

end OrgClient.Soql
