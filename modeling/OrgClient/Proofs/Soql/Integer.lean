import Mathlib.Data.List.Basic
import OrgClient.Proofs.Number.Rounding
import OrgClient.Soql.Literal

namespace OrgClient.Soql.Literal

open Number
set_option autoImplicit true

theorem ofJson?_of_fits (hl : -2 ^ 63 ≤ n) (hu : n < 2 ^ 63) :
    ofJson? (.int n) = .ok (.integer n) := by
  have hn : Int64.minValue.toInt ≤ n && n ≤ Int64.maxValue.toInt := by
    rw [Bool.and_eq_true, decide_eq_true_eq, decide_eq_true_eq]
    change -2 ^ 63 ≤ n ∧ n ≤ 2 ^ 63 - 1
    omega
  rw [ofJson?, if_pos hn]

theorem ofJson?_of_wide {n : Nat} (hn : Double.Wide n) :
    ofJson? (.int n) = .ok (.number (.ofFraction false n 1)) := by
  have hl := hn.low
  have hn : ¬ (Int64.minValue.toInt ≤ (n : Int) && (n : Int) ≤ Int64.maxValue.toInt) := by
    rw [Bool.and_eq_true, decide_eq_true_eq, decide_eq_true_eq]
    change ¬ (-2 ^ 63 ≤ (n : Int) ∧ (n : Int) ≤ 2 ^ 63 - 1)
    omega
  have hs : decide ((n : Int) < 0) = false := by
    rw [decide_eq_false_iff_not]
    omega
  rw [ofJson?, if_neg hn, hs, Int.natAbs_natCast]

/-- An integer of 64 bits always has a text, which is that of an integer with the same double. It is
its own text unless all 64 bits are needed and a shorter integer, or one nearer to the double, has
the same one. -/
theorem render_ofJson_integer (n : Int) (hl : -2 ^ 63 ≤ n) (hu : n < 2 ^ 64) :
    ∃ m : Int, (ofJson? (.int n) >>= render) = .ok (intText m) ∧
      (m = n ↔ n < 2 ^ 63 ∨ Double.IsShort n.toNat) ∧
      (2 ^ 63 ≤ n → Double.grid m.toNat = Double.grid n.toNat) := by
  by_cases hn : n < 2 ^ 63
  · refine ⟨n, ?_, ⟨fun _ => .inl hn, fun _ => rfl⟩, fun _ => rfl⟩
    rw [ofJson?_of_fits hl hn]
    rfl
  · obtain ⟨k, rfl⟩ := Int.eq_ofNat_of_zero_le (a := n) (by omega)
    have hk : Double.Wide k := ⟨by omega, by omega⟩
    obtain ⟨m, ht, hg, hm⟩ := hk.text
    refine ⟨m, ?_, ?_, fun _ => hg⟩
    · rw [ofJson?_of_wide hk]
      change render (.number _) = _
      rw [render, if_pos hk.isFinite, ht]
      rfl
    · rw [Int.natCast_inj, hm, Int.toNat_natCast]
      constructor
      · intro h
        exact .inr h
      · intro h
        exact h.resolve_left hn

theorem tenQuintillion_keeps_digits :
    (ofJson? (.int (10 ^ 19)) >>= render) = .ok (intText (10 ^ 19)) := by
  obtain ⟨m, hm, hiff, -⟩ := render_ofJson_integer (10 ^ 19) (by decide) (by decide)
  have hs : Double.IsShort (10 ^ 19 : Int).toNat := .inl (by decide)
  rw [hm, hiff.mpr (.inr hs)]

/-- The first integer that needs all 64 bits gets the digits of another one. -/
theorem twoPow63_loses_digits :
    (ofJson? (.int (2 ^ 63)) >>= render) = .ok (intText 9223372036854776000) ∧
      intText 9223372036854776000 ≠ intText (2 ^ 63) := by
  decide +kernel

end OrgClient.Soql.Literal
