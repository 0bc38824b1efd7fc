import Mathlib.Algebra.Group.Int.Defs
import Mathlib.Algebra.Group.Nat.Defs
import OrgClient.Number.Decimal

namespace OrgClient.Number

set_option autoImplicit true

namespace Shortest

theorem ten_pow_neg (k : Nat) : Nat.pow 10 (-(k : Int)).toNat = 1 := by
  rw [Int.toNat_of_nonpos (by omega), Nat.pow_eq, Nat.pow_zero]

/-- Whether an integer lies in the interval. -/
def Interval.Has (i : Interval) (p : Nat) : Prop :=
  if i.closed then i.low ≤ p * i.den ∧ p * i.den ≤ i.high
  else i.low < p * i.den ∧ p * i.den < i.high

theorem Interval.contains_iff (i : Interval) (n k : Nat) :
    i.contains n k ↔ i.Has (n * 10 ^ k) := by
  rw [contains, ten_pow_neg, Int.toNat_natCast, Nat.mul_one, Nat.mul_one, Has, Nat.pow_eq]
  split
  · rw [Bool.and_eq_true, decide_eq_true_eq, decide_eq_true_eq]
  · rw [Bool.and_eq_true, decide_eq_true_eq, decide_eq_true_eq]

theorem Interval.quotient_natCast (i : Interval) (k : Nat) :
    i.quotient k = (i.value, i.den * 10 ^ k) := by
  rw [quotient, ten_pow_neg, Int.toNat_natCast, Nat.mul_one, Nat.pow_eq]

/-- The same interval over a larger denominator. -/
def Interval.times (i : Interval) (d : Nat) : Interval :=
  ⟨i.low * d, i.value * d, i.high * d, i.den * d, i.closed⟩

section Times

variable (i : Interval) {d : Nat} (hd : 0 < d)

theorem Interval.quotient_times (k : Int) :
    (i.times d).quotient k = ((i.quotient k).1 * d, (i.quotient k).2 * d) := by
  simp only [quotient, times, Nat.mul_right_comm]

include hd

theorem Interval.contains_times (n : Nat) (k : Int) :
    (i.times d).contains n k = i.contains n k := by
  simp only [contains, times, ← Nat.mul_assoc, Nat.mul_right_comm _ d, Nat.mul_le_mul_right_iff hd,
    Nat.mul_lt_mul_right hd]

theorem Interval.nearest?_times (tie : Tie) (k : Int) :
    (i.times d).nearest? tie k = i.nearest? tie k := by
  have hc (n) : (i.times d).contains n k = i.contains n k := i.contains_times hd n k
  have hh (r b : Nat) : 2 * (r * d) = b * d ↔ 2 * r = b := by
    rw [← Nat.mul_assoc, Nat.mul_left_inj (Nat.ne_of_gt hd)]
  have hlt (r b : Nat) : b * d < 2 * (r * d) ↔ b < 2 * r := by
    rw [← Nat.mul_assoc, Nat.mul_lt_mul_right hd]
  simp only [nearest?, quotient_times, Nat.mul_div_mul_right _ _ hd, Nat.mul_mod_mul_right, hc,
    gt_iff_lt, hlt, Bool.beq_eq_decide_eq, hh]

theorem search_times (tie : Tie) (k : Int) (fuel : Nat) :
    search tie (i.times d) k fuel = search tie i k fuel := by
  induction fuel generalizing k with
  | zero =>
    rw [search, search, i.quotient_times, Nat.mul_div_mul_right _ _ hd]
  | succ fuel ih => rw [search, search, i.nearest?_times hd, ih]

theorem decimalExponent_times (a b : Nat) :
    decimalExponent (a * d) (b * d) = decimalExponent a b := by
  simp only [decimalExponent, Nat.mul_le_mul_right_iff hd, Nat.mul_div_mul_right _ _ hd,
    Nat.mul_right_comm _ d, Nat.mul_left_inj (Nat.ne_of_gt hd)]

end Times

variable {i : Interval}

/-- What is found for a power of ten: of its multiples next to the value the one that is in the
interval, or the nearer one if both are. -/
inductive Interval.Finds (i : Interval) (k : Nat) : Option Nat → Prop
  | below (h : i.Has (i.value / (i.den * 10 ^ k) * 10 ^ k))
    (hn : i.Has ((i.value / (i.den * 10 ^ k) + 1) * 10 ^ k) →
      2 * (i.value % (i.den * 10 ^ k)) ≤ i.den * 10 ^ k) :
    Finds i k (some (i.value / (i.den * 10 ^ k)))
  | above (h : i.Has ((i.value / (i.den * 10 ^ k) + 1) * 10 ^ k))
    (hn : i.Has (i.value / (i.den * 10 ^ k) * 10 ^ k) →
      i.den * 10 ^ k ≤ 2 * (i.value % (i.den * 10 ^ k))) :
    Finds i k (some (i.value / (i.den * 10 ^ k) + 1))
  | neither (hb : ¬ i.Has (i.value / (i.den * 10 ^ k) * 10 ^ k))
    (ha : ¬ i.Has ((i.value / (i.den * 10 ^ k) + 1) * 10 ^ k)) : Finds i k none

theorem Interval.finds_nearest? (i : Interval) (tie : Tie) (k : Nat) :
    i.Finds k (i.nearest? tie k) := by
  have hb := i.contains_iff (i.value / (i.den * 10 ^ k)) k
  have ha := i.contains_iff (i.value / (i.den * 10 ^ k) + 1) k
  rw [nearest?, quotient_natCast]
  dsimp only
  split <;> rename_i hb' ha' <;> rw [hb'] at hb <;> rw [ha'] at ha
  · split
    · rename_i hu
      rw [Bool.or_eq_true, decide_eq_true_eq, Bool.and_eq_true, beq_iff_eq] at hu
      apply Finds.above (ha.mp rfl)
      intro _
      omega
    · rename_i hu
      rw [Bool.or_eq_true, decide_eq_true_eq, not_or] at hu
      apply Finds.below (hb.mp rfl)
      intro _
      omega
  · exact .below (hb.mp rfl) fun h => absurd (ha.mpr h) Bool.false_ne_true
  · exact .above (ha.mp rfl) fun h => absurd (hb.mpr h) Bool.false_ne_true
  · exact .neither (fun h => Bool.false_ne_true (hb.mpr h)) fun h =>
      Bool.false_ne_true (ha.mpr h)

theorem Interval.Finds.has {k : Nat} (h : i.Finds k (some n)) : i.Has (n * 10 ^ k) := by
  cases h with
  | below h _ => exact h
  | above h _ => exact h

/-- The search stops at the first power of ten that has a multiple in the interval. -/
theorem search_finds {j k : Nat} (hj : (i.nearest? tie j).isSome) (hk : j ≤ k)
    (hf : k < j + fuel) :
    ∃ n l : Nat, search tie i k fuel = ⟨n, l⟩ ∧ j ≤ l ∧ i.Finds l (some n) ∧
      ∀ l' : Nat, l < l' → l' ≤ k → i.Finds l' none := by
  induction fuel generalizing k with
  | zero => omega
  | succ fuel ih =>
    have hfind := i.finds_nearest? tie k
    rw [search]
    cases hn : i.nearest? tie k with
    | some n =>
      rw [hn] at hfind
      exact ⟨n, k, rfl, hk, hfind, fun l' hl hk' => absurd hl (Nat.not_lt.mpr hk')⟩
    | none =>
      rw [hn] at hfind
      have hne : j ≠ k := by
        rintro rfl
        rw [hn] at hj
        cases hj
      have hp : ((k : Int) - 1) = ((k - 1 : Nat) : Int) := by omega
      obtain ⟨n, l, hs, hl, hnl, hgt⟩ := ih (k := k - 1) (by omega) (by omega)
      rw [← hp] at hs
      refine ⟨n, l, hs, hl, hnl, ?_⟩
      intro l' h h'
      by_cases he : l' = k
      · rw [he]
        exact hfind
      · exact hgt l' h (by omega)

/-- An interval of integers of 19 or 20 digits, with room of 512 on either side of its value. -/
structure Interval.Roomy (i : Interval) : Prop where
  den : i.den = 1
  low : i.low + 512 ≤ i.value
  high : i.value + 512 ≤ i.high
  narrow : i.high < i.low + 10 ^ 4
  even : i.value % 8 = 0
  size : 10 ^ 18 ≤ i.low ∧ i.high < 10 ^ 20

namespace Interval.Roomy

variable (hi : i.Roomy)

include hi

theorem has_iff (p : Nat) :
    i.Has p ↔ if i.closed then i.low ≤ p ∧ p ≤ i.high else i.low < p ∧ p < i.high := by
  rw [Has, hi.den, Nat.mul_one]

theorem has_margin : ∃ m ≤ 1, ∀ p, i.Has p ↔ i.low + m ≤ p ∧ p + m ≤ i.high := by
  cases hc : i.closed with
  | true =>
    refine ⟨0, Nat.zero_le 1, fun p => ?_⟩
    rw [hi.has_iff, hc]
    rfl
  | false =>
    refine ⟨1, Nat.le_refl 1, fun p => ?_⟩
    rw [hi.has_iff, hc]
    rfl

theorem bounds (h : i.Has p) : i.low ≤ p ∧ p ≤ i.high := by
  obtain ⟨m, -, hm⟩ := hi.has_margin
  rw [hm] at h
  omega

theorem has_near (h : 2 * p < 2 * i.value + 1000) (h' : 2 * i.value < 2 * p + 1000) : i.Has p := by
  obtain ⟨m, hm, hh⟩ := hi.has_margin
  have hlow := hi.low
  have hhigh := hi.high
  rw [hh]
  omega

/-- The interval goes on from each of its integers to the value. -/
theorem has_toward (h : i.Has p) (hq : p ≤ q ∧ q ≤ i.value ∨ i.value ≤ q ∧ q ≤ p) : i.Has q := by
  obtain ⟨m, hm, hh⟩ := hi.has_margin
  have hlow := hi.low
  have hhigh := hi.high
  rw [hh] at h ⊢
  omega

/-- Where nothing is found next to the value, there is no multiple of the power of ten. -/
theorem not_has {k : Nat} (h : i.Finds k none) (hd : 10 ^ k ∣ p) : ¬ i.Has p := by
  obtain ⟨m, rfl⟩ := hd
  intro hm
  rw [Nat.mul_comm] at hm
  cases h with
  | neither hb ha =>
    rw [hi.den, Nat.one_mul] at hb ha
    by_cases hq : m ≤ i.value / 10 ^ k
    · apply hb
      exact hi.has_toward hm (.inl ⟨Nat.mul_le_mul_right _ hq, Nat.div_mul_le_self _ _⟩)
    · apply ha
      apply hi.has_toward hm (.inr ⟨?_, Nat.mul_le_mul_right _ (Nat.not_le.mp hq)⟩)
      rw [Nat.succ_mul]
      exact Nat.le_of_lt (Nat.lt_div_mul_add (Nat.pow_pos (by decide)))

/-- The multiple of a thousand that is nearest to the value is found. -/
theorem finds_thousand (h : i.Finds 3 o) : ∃ n, o = some n ∧
    2 * (n * 1000) < 2 * i.value + 1000 ∧ 2 * i.value < 2 * (n * 1000) + 1000 := by
  have he := hi.even
  have hd : i.den * 10 ^ 3 = 1000 := by
    rw [hi.den]
    rfl
  -- One of the two multiples next to the value is nearer than 500, as 500 is no multiple of 8.
  have hb (hr : i.value % 1000 < 500) : i.Has (i.value / 1000 * 10 ^ 3) :=
    hi.has_near (by omega) (by omega)
  have ha (hr : 500 < i.value % 1000) : i.Has ((i.value / 1000 + 1) * 10 ^ 3) :=
    hi.has_near (by omega) (by omega)
  cases h with
  | below h hn =>
    rw [hd] at hn ⊢
    have hr : i.value % 1000 ≤ 500 := by
      apply Nat.le_of_not_lt
      intro hr
      have := hn (ha hr)
      omega
    exact ⟨_, rfl, by omega, by omega⟩
  | above h hn =>
    rw [hd] at hn ⊢
    have hr : 500 ≤ i.value % 1000 := by
      apply Nat.le_of_not_lt
      intro hr
      have := hn (hb hr)
      omega
    exact ⟨_, rfl, by omega, by omega⟩
  | neither hb' ha' =>
    rw [hd] at hb' ha'
    have hr : i.value % 1000 < 500 ∨ 500 < i.value % 1000 := by omega
    rcases hr with hr | hr
    · exact absurd (hb hr) hb'
    · exact absurd (ha hr) ha'

theorem decimalExponent :
    ∃ k : Nat, 4 ≤ k ∧ k < 20 ∧ Shortest.decimalExponent i.value i.den = k := by
  have hv : 10 ^ 18 ≤ i.value ∧ i.value < 10 ^ 20 := by
    have := hi.low
    have := hi.high
    have := hi.size
    omega
  have hl : ¬ (Nat.toDigits 10 i.value).length ≤ 18 := by
    rw [Nat.length_toDigits_le_iff (by decide) (by decide)]
    omega
  have hu : (Nat.toDigits 10 i.value).length ≤ 20 := by
    rw [Nat.length_toDigits_le_iff (by decide) (by decide)]
    omega
  refine ⟨(Nat.toDigits 10 i.value).length - 1, by omega, by omega, ?_⟩
  rw [Shortest.decimalExponent, hi.den, Nat.div_one, if_pos (by omega)]
  omega

end Interval.Roomy

/-- The multiple of ten thousand in an interval, or else the multiple of a thousand that is nearest
to its value. -/
def Interval.Chosen (i : Interval) (m : Nat) : Prop :=
  i.Has m ∧ (10 ^ 4 ∣ m ∨ 10 ^ 3 ∣ m ∧ 2 * ((m : Int) - i.value).natAbs < 1000 ∧
    ∀ p, 10 ^ 4 ∣ p → ¬ i.Has p)

theorem Interval.Chosen.unique (hi : i.Roomy) (hp : i.Chosen p) (hq : i.Chosen q) : p = q := by
  have hpb := hi.bounds hp.1
  have hqb := hi.bounds hq.1
  have hnar := hi.narrow
  obtain ⟨hp, hp4 | ⟨hp3, hpd, hno⟩⟩ := hp
  · obtain ⟨-, hq4 | ⟨-, -, hno⟩⟩ := hq
    · omega
    · exact absurd hp (hno p hp4)
  · obtain ⟨hq, hq4 | ⟨hq3, hqd, -⟩⟩ := hq
    · exact absurd hq (hno q hq4)
    · omega

theorem search_chosen (hi : i.Roomy) (tie : Tie) :
    ∃ n k : Nat, search tie i (decimalExponent i.value i.den) 17 = ⟨n, k⟩ ∧
      i.Chosen (n * 10 ^ k) := by
  obtain ⟨k, hk, hk', he⟩ := hi.decimalExponent
  have hj : (i.nearest? tie (3 : Nat)).isSome := by
    obtain ⟨t, ht, -⟩ := hi.finds_thousand (i.finds_nearest? tie 3)
    rw [ht]
    rfl
  have hf : k < 3 + 17 := by omega
  obtain ⟨n, l, hs, hl, hn, hgt⟩ := search_finds hj (Nat.le_of_succ_le hk) hf
  rw [he]
  refine ⟨n, l, hs, hn.has, ?_⟩
  rcases Nat.eq_or_lt_of_le hl with rfl | hl
  · obtain ⟨t, ht, hb, ha⟩ := hi.finds_thousand hn
    cases ht
    refine .inr ⟨Nat.dvd_mul_left _ _, by omega, ?_⟩
    intro p hp
    exact hi.not_has (hgt 4 (Nat.lt_succ_self 3) hk) hp
  · exact .inl (Nat.dvd_trans (Nat.pow_dvd_pow 10 hl) (Nat.dvd_mul_left _ _))

theorem normalize_natCast (fuel n k : Nat) :
    ∃ m l : Nat, normalize fuel ⟨n, k⟩ = ⟨m, l⟩ ∧ m * 10 ^ l = n * 10 ^ k := by
  induction fuel generalizing n k with
  | zero => exact ⟨n, k, rfl, rfl⟩
  | succ fuel ih =>
    rw [normalize]
    split
    · rename_i hd
      rw [Bool.and_eq_true, decide_eq_true_eq] at hd
      obtain ⟨m, l, hs, hv⟩ := ih (n / 10) (k + 1)
      refine ⟨m, l, hs, ?_⟩
      rw [hv, Nat.pow_succ, Nat.mul_comm (10 ^ k), ← Nat.mul_assoc,
        Nat.div_mul_cancel (Nat.dvd_of_mod_eq_zero hd.1)]
    · exact ⟨n, k, rfl, rfl⟩

end Shortest

theorem toDigits_mul_pow (hn : 0 < n) (k : Nat) :
    Nat.toDigits 10 (n * 10 ^ k) = Nat.toDigits 10 n ++ List.replicate k '0' := by
  induction k with
  | zero => rw [Nat.pow_zero, Nat.mul_one, List.replicate_zero, List.append_nil]
  | succ k ih =>
    have hp : 0 < n * 10 ^ k := Nat.mul_pos hn (Nat.pow_pos (by decide))
    have hd : Nat.toDigits 10 0 = ['0'] := rfl
    rw [Nat.pow_succ, ← Nat.mul_assoc, Nat.mul_comm _ 10, ← Nat.add_zero (10 * _),
      ← Nat.toDigits_append_toDigits (by decide) hp (by decide), ih, hd, List.append_assoc,
      ← List.replicate_succ']

theorem Layout.write_plain (ds : List Char) (k : Nat) (hds : ds ≠ []) :
    Layout.plain.write ds (ds.length + k) = ds ++ List.replicate k '0' := by
  have hl := List.length_pos_iff.mpr hds
  have hn : ((ds.length : Int) + k).toNat = ds.length + k := by omega
  have hk : ds.length + k - ds.length = k := by omega
  have hall : Option.all (fun m : Int => decide ((ds.length : Int) + k ≤ m)) none = true := rfl
  rw [write, if_pos (by omega)]
  refine (if_pos hall).trans ?_
  dsimp only
  rw [hn, if_pos (Nat.le_add_right _ _), hk]
  exact List.append_nil _

end OrgClient.Number
