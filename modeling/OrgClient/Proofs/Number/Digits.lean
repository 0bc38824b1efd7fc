import Mathlib.Data.List.TakeDrop
import OrgClient.Calendar.Date

namespace OrgClient.Number

open Calendar
set_option autoImplicit true

/-- The number that a text begins with, and the rest of the text. -/
def readNat (cs : List Char) : Option (Nat × List Char) :=
  match cs.span Char.isDigit with
  | ([], _) => none
  | (ds, rest) => some (Nat.ofDigitChars 10 ds 0, rest)

/-- The number with or without a sign that a text begins with, and the rest of the text. -/
def readInt : List Char → Option (Int × List Char)
  | '-' :: cs => (readNat cs).map fun r => (-(r.1 : Int), r.2)
  | '+' :: cs => (readNat cs).map fun r => ((r.1 : Int), r.2)
  | cs => (readNat cs).map fun r => ((r.1 : Int), r.2)

/-- The number behind a mark. -/
def readField (mark : Char) : List Char → Option (Nat × List Char)
  | c :: cs => if c = mark then readNat cs else none
  | [] => none

/-- A text that no number before it goes on with. -/
def Ends (rest : List Char) : Prop :=
  ∀ c ∈ rest.head?, c.isDigit = false

theorem Ends.nil : Ends [] := by
  intro c hc
  cases hc

theorem Ends.cons (h : c.isDigit = false) (cs : List Char) : Ends (c :: cs) := by
  intro d hd
  cases hd
  exact h

theorem span_digits (hd : ∀ c ∈ ds, c.isDigit) (hr : Ends rest) :
    (ds ++ rest).span Char.isDigit = (ds, rest) := by
  have ht : rest.takeWhile Char.isDigit = [] ∧ rest.dropWhile Char.isDigit = rest := by
    cases rest with
    | nil => exact ⟨rfl, rfl⟩
    | cons c cs =>
      have hc := hr c rfl
      exact ⟨List.takeWhile_cons_of_neg (by simp [hc]), List.dropWhile_cons_of_neg (by simp [hc])⟩
  rw [List.span_eq_takeWhile_dropWhile, List.takeWhile_append_of_pos hd,
    List.dropWhile_append_of_pos hd, ht.1, ht.2, List.append_nil]

theorem toList_padded (width n : Nat) :
    (padded width n).toList =
      List.replicate (width - (Nat.toDigits 10 n).length) '0' ++ Nat.toDigits 10 n :=
  String.toList_ofList

theorem natText_eq_padded (n : Nat) : natText n = padded 0 n := by
  rw [natText, padded, Nat.zero_sub, List.replicate_zero, List.nil_append]

theorem isDigit_of_mem_padded (h : c ∈ (padded width n).toList) : c.isDigit := by
  rw [toList_padded] at h
  rcases List.mem_append.mp h with h | h
  · rw [List.eq_of_mem_replicate h]
    rfl
  · exact Nat.isDigit_of_mem_toDigits (by decide) (by decide) h

theorem padded_eq_cons (width n : Nat) :
    ∃ c cs, (padded width n).toList = c :: cs ∧ c.isDigit := by
  have hne : (padded width n).toList ≠ [] := by
    rw [toList_padded]
    exact List.append_ne_nil_of_right_ne_nil _ Nat.toDigits_ne_nil
  obtain ⟨c, cs, hc⟩ := List.exists_cons_of_ne_nil hne
  have hm : c ∈ (padded width n).toList := by
    rw [hc]
    exact List.mem_cons_self
  exact ⟨c, cs, hc, isDigit_of_mem_padded hm⟩

/-- Zeros on the left do not change a number. -/
theorem readNat_padded (width n : Nat) (h : Ends rest) :
    readNat ((padded width n).toList ++ rest) = some (n, rest) := by
  have hn : Nat.ofDigitChars 10 (padded width n).toList 0 = n := by
    rw [toList_padded, Nat.ofDigitChars_append, Nat.ofDigitChars_replicate_zero, Nat.mul_zero,
      Nat.ofDigitChars_ten_toDigits]
  rw [readNat, span_digits (fun c hc => isDigit_of_mem_padded hc) h]
  obtain ⟨c, cs, hc, -⟩ := padded_eq_cons width n
  rw [hc] at hn ⊢
  simp only [hn]

theorem readInt_padded (width n : Nat) (h : Ends rest) :
    readInt ((padded width n).toList ++ rest) = some ((n : Int), rest) := by
  have hn := readNat_padded width n h
  obtain ⟨c, cs, hc, hd⟩ := padded_eq_cons width n
  rw [hc, List.cons_append] at hn ⊢
  rw [readInt]
  · rw [hn]
    rfl
  · rintro ds ⟨rfl, -⟩
    cases hd
  · rintro ds ⟨rfl, -⟩
    cases hd

theorem readInt_eq_none (hd : c.isDigit = false) (hm : c ≠ '-') (hp : c ≠ '+') (cs : List Char) :
    readInt (c :: cs) = none := by
  have hn : readNat (c :: cs) = none := by
    rw [readNat, List.span_eq_takeWhile_dropWhile, List.takeWhile_cons_of_neg (by simp [hd])]
  rw [readInt]
  · rw [hn]
    rfl
  · rintro ds ⟨rfl, -⟩
    exact hm rfl
  · rintro ds ⟨rfl, -⟩
    exact hp rfl

theorem readInt_minus (width n : Nat) (h : Ends rest) :
    readInt (("-" ++ padded width n).toList ++ rest) = some (-(n : Int), rest) := by
  have hc : ("-" ++ padded width n).toList = '-' :: (padded width n).toList := by
    simp [String.toList_append]
  rw [hc, List.cons_append, readInt, readNat_padded width n h]
  rfl

theorem readInt_plus (width n : Nat) (h : Ends rest) :
    readInt (("+" ++ padded width n).toList ++ rest) = some ((n : Int), rest) := by
  have hc : ("+" ++ padded width n).toList = '+' :: (padded width n).toList := by
    simp [String.toList_append]
  rw [hc, List.cons_append, readInt, readNat_padded width n h]
  rfl

theorem readInt_intText (n : Int) (h : Ends rest) :
    readInt ((intText n).toList ++ rest) = some (n, rest) := by
  cases n with
  | ofNat n =>
    rw [intText, natText_eq_padded, readInt_padded 0 n h]
    rfl
  | negSucc n =>
    rw [intText, natText_eq_padded, readInt_minus 0 (n + 1) h]
    rfl

theorem readInt_yearText (y : Int) (h : Ends rest) :
    readInt ((yearText y).toList ++ rest) = some (y, rest) := by
  rw [yearText]
  split
  · rename_i hy
    have hn : (y.toNat : Int) = y := by
      simp only [Bool.and_eq_true, decide_eq_true_eq] at hy
      omega
    rw [readInt_padded 4 y.toNat h, hn]
  · rename_i hy
    simp only [Bool.and_eq_true, decide_eq_true_eq] at hy
    split
    · have hn : -(y.natAbs : Int) = y := by omega
      rw [readInt_minus 4 y.natAbs h, hn]
    · have hn : (y.natAbs : Int) = y := by omega
      rw [readInt_plus 4 y.natAbs h, hn]

theorem readField_padded (mark : Char) (width n : Nat) (h : Ends rest) :
    readField mark (mark :: ((padded width n).toList ++ rest)) = some (n, rest) := by
  rw [readField, if_pos rfl, readNat_padded width n h]

end OrgClient.Number
