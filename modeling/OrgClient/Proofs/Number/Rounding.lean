import OrgClient.Proofs.Number.Shortest

namespace OrgClient.Number

set_option autoImplicit true

namespace Double

theorem roundDiv_eq_iff (n q : Nat) : roundDiv n 2048 = q ↔
    if q % 2 = 0 then 2048 * q ≤ n + 1024 ∧ n ≤ 2048 * q + 1024
    else 2048 * q < n + 1024 ∧ n < 2048 * q + 1024 := by
  simp only [roundDiv, Bool.or_eq_true, Bool.and_eq_true, decide_eq_true_eq, beq_iff_eq]
  split <;> split <;> omega

/-- The double nearest to an integer that needs all of 64 bits is this multiple of 2048. -/
def grid (n : Nat) : Nat :=
  2048 * roundDiv n 2048

theorem grid_eq_grid_iff (p n : Nat) : grid p = grid n ↔ roundDiv p 2048 = roundDiv n 2048 :=
  Nat.mul_right_inj (by decide)

/-- Whether an integer has fewest digits, not counting zeros at the end, among those that are
rounded to the same double, and is nearest to it among these. -/
def IsShort (n : Nat) : Prop :=
  10 ^ 4 ∣ n ∨ 10 ^ 3 ∣ n ∧ 2 * ((n : Int) - grid n).natAbs < 1000 ∧
    ∀ p, 10 ^ 4 ∣ p → grid p ≠ grid n

theorem toNat_ofMagnitude (h : b < 2 ^ 63) : (ofMagnitude false b).bits.toNat = b := by
  rw [ofMagnitude, if_neg Bool.false_ne_true, UInt64.toNat_ofNat']
  exact Nat.mod_eq_of_lt (by omega)

/-- An integer that fits 64 bits, but not 63. -/
structure Wide (n : Nat) : Prop where
  low : 2 ^ 63 ≤ n
  high : n < 2 ^ 64

variable {n : Nat} (hn : Wide n)

include hn

theorem Wide.roundDiv : 2 ^ 52 ≤ roundDiv n 2048 ∧ roundDiv n 2048 ≤ 2 ^ 53 := by
  have hl := hn.low
  have hu := hn.high
  have hr := (roundDiv_eq_iff n _).mp rfl
  split at hr
  · omega
  · omega

theorem Wide.roundedBits : roundedBits n 1 = 1085 * 2 ^ 52 + Double.roundDiv n 2048 := by
  have hl := hn.low
  have hne : n ≠ 0 := by omega
  have hlog : n.log2 = 63 := (Nat.log2_eq_iff hne).mpr ⟨hl, hn.high⟩
  have hq : ¬ n / 2048 < Nat.pow 2 52 := by
    change ¬ n / 2048 < 2 ^ 52
    omega
  have hb : 1085 * 2 ^ 52 + Double.roundDiv n 2048 ≤ 2047 * 2 ^ 52 := by
    have := hn.roundDiv.2
    omega
  have hguess : ((63 : Nat) : Int) - ((Nat.log2 1 : Nat) : Int) - 52 = 11 := rfl
  have hscale : (if (0 : Int) ≤ 11 then (n, 1 * Nat.pow 2 (11 : Int).toNat)
      else (n * Nat.pow 2 (-(11 : Int)).toNat, 1)) = (n, 2048) := rfl
  have hmax : max (11 : Int) (-1074) = 11 := rfl
  rw [Double.roundedBits, if_neg hne, hlog]
  simp only [hguess, hscale, if_neg hq, hmax]
  exact Nat.min_eq_left hb

theorem Wide.toNat_bits :
    (ofFraction false n 1).bits.toNat = 1085 * 2 ^ 52 + Double.roundDiv n 2048 := by
  have hq := hn.roundDiv.2
  rw [ofFraction, hn.roundedBits]
  apply toNat_ofMagnitude
  omega

theorem Wide.magnitudeBits :
    (ofFraction false n 1).magnitudeBits = 1085 * 2 ^ 52 + Double.roundDiv n 2048 := by
  have hq := hn.roundDiv.2
  rw [Double.magnitudeBits, hn.toNat_bits]
  apply Nat.mod_eq_of_lt
  change _ < 2 ^ 63
  omega

theorem Wide.isNegative : (ofFraction false n 1).isNegative = false := by
  have hq := hn.roundDiv.2
  rw [Double.isNegative, hn.toNat_bits, decide_eq_false_iff_not]
  change ¬ 2 ^ 63 ≤ _
  omega

theorem Wide.isFinite : (ofFraction false n 1).isFinite := by
  have hq := hn.roundDiv.2
  rw [Double.isFinite, hn.magnitudeBits, decide_eq_true_eq]
  change _ < 2047 * 2 ^ 52
  omega

theorem Wide.isNaN : (ofFraction false n 1).isNaN = false := by
  have hq := hn.roundDiv.2
  rw [Double.isNaN, hn.magnitudeBits, decide_eq_false_iff_not]
  change ¬ 2047 * 2 ^ 52 < _
  omega

theorem Wide.isZero : (ofFraction false n 1).isZero = false := by
  rw [Double.isZero, hn.magnitudeBits, beq_eq_false_iff_ne]
  omega

theorem Wide.scaled_of_lt (hq : Double.roundDiv n 2048 < 2 ^ 53) :
    (ofFraction false n 1).scaled = (Double.roundDiv n 2048, 1085) := by
  have hl := hn.roundDiv.1
  have he : (1085 * 2 ^ 52 + Double.roundDiv n 2048) / 2 ^ 52 = 1086 := by omega
  have hf : (1085 * 2 ^ 52 + Double.roundDiv n 2048) % 2 ^ 52 =
      Double.roundDiv n 2048 - 2 ^ 52 := by omega
  simp only [scaled, hn.magnitudeBits, Nat.pow_eq, he, hf]
  exact Prod.ext (Nat.sub_add_cancel hl) rfl

theorem Wide.scaled_of_eq (hq : Double.roundDiv n 2048 = 2 ^ 53) :
    (ofFraction false n 1).scaled = (2 ^ 52, 1086) := by
  simp only [scaled, hn.magnitudeBits, hq]
  rfl

end Double

namespace Shortest

/-- The interval of a double that is an integer. -/
def wholeInterval (m j : Nat) : Interval :=
  ⟨(if m = 2 ^ 52 then 4 * m - 1 else 4 * m - 2) * 2 ^ j, 4 * m * 2 ^ j, (4 * m + 2) * 2 ^ j, 1,
    m % 2 == 0⟩

theorem interval_eq {x : Double} (h : x.scaled = (m, e)) : ∃ t, t = 1076 ∧ interval x =
    ⟨(if m = Nat.pow 2 52 && e ≠ 0 then 4 * m - 1 else 4 * m - 2) * Nat.pow 2 e,
      4 * m * Nat.pow 2 e, (4 * m + 2) * Nat.pow 2 e, Nat.pow 2 t, m % 2 == 0⟩ := by
  refine ⟨1076, rfl, ?_⟩
  rw [interval, h]

theorem interval_eq_times {x : Double} (h : x.scaled = (m, e)) (he : e = 1076 + j) :
    ∃ d, 0 < d ∧ interval x = (wholeInterval m j).times d := by
  obtain ⟨t, ht, hi⟩ := interval_eq h
  have hm : Nat.pow 2 52 = 2 ^ 52 := rfl
  have hu : Nat.pow 2 e = 2 ^ j * Nat.pow 2 t := by
    rw [he, ← ht, Nat.add_comm]
    exact Nat.pow_add 2 j t
  have hne : e ≠ 0 := by omega
  refine ⟨Nat.pow 2 t, Nat.two_pow_pos t, ?_⟩
  simp only [hi, hu, hm, hne, decide_true, Bool.and_true, decide_eq_true_eq, Interval.times,
    wholeInterval, ne_eq, not_false_eq_true, Nat.mul_assoc, Nat.one_mul]

theorem roomy_wholeInterval (hl : 2 ^ 52 ≤ m) (hu : m < 2 ^ 53) : (wholeInterval m 9).Roomy := by
  constructor
  · rfl
  · dsimp only [wholeInterval]
    split <;> omega
  · dsimp only [wholeInterval]
    omega
  · dsimp only [wholeInterval]
    split <;> omega
  · dsimp only [wholeInterval]
    omega
  · dsimp only [wholeInterval]
    split <;> omega

theorem roomy_wholeInterval_two_pow : (wholeInterval (2 ^ 52) 10).Roomy := by
  constructor <;> decide

/-- An interval that has, of multiples of ten thousand and of integers near its value, those that
are rounded as `n` is. -/
structure Interval.Around (i : Interval) (n : Nat) : Prop extends i.Roomy where
  value_eq : i.value = Double.grid n
  has_iff_grid : ∀ p : Nat, 10 ^ 4 ∣ p ∨ 2 * ((p : Int) - Double.grid n).natAbs < 1000 →
    (i.Has p ↔ Double.grid p = Double.grid n)

theorem around_wholeInterval (hl : 2 ^ 52 ≤ m) (hu : m < 2 ^ 53)
    (hn : Double.roundDiv n 2048 = m) : (wholeInterval m 9).Around n := by
  have hr := roomy_wholeInterval hl hu
  have hg : Double.grid n = 2048 * m := by rw [Double.grid, hn]
  refine ⟨hr, ?_, ?_⟩
  · rw [hg]
    dsimp only [wholeInterval]
    omega
  · intro p hp
    rw [hg] at hp
    rw [hr.has_iff, Double.grid_eq_grid_iff, hn, Double.roundDiv_eq_iff]
    simp only [wholeInterval, beq_iff_eq]
    by_cases hm : m = 2 ^ 52
    · have he : m % 2 = 0 := by omega
      rw [if_pos hm, if_pos he, if_pos he]
      omega
    · rw [if_neg hm]
      split
      · omega
      · omega

theorem around_wholeInterval_two_pow (hn : Double.roundDiv n 2048 = 2 ^ 53) :
    (wholeInterval (2 ^ 52) 10).Around n := by
  have hg : Double.grid n = 2048 * 2 ^ 53 := by rw [Double.grid, hn]
  refine ⟨roomy_wholeInterval_two_pow, hg.symm, ?_⟩
  intro p hp
  have hc : (wholeInterval (2 ^ 52) 10).closed = true := rfl
  have he : 2 ^ 53 % 2 = 0 := rfl
  rw [hg] at hp
  rw [roomy_wholeInterval_two_pow.has_iff, Double.grid_eq_grid_iff, hn, Double.roundDiv_eq_iff,
    if_pos hc, if_pos he]
  change (4 * 2 ^ 52 - 1) * 2 ^ 10 ≤ p ∧ p ≤ (4 * 2 ^ 52 + 2) * 2 ^ 10 ↔ _
  omega

theorem Interval.Around.chosen_iff {i : Interval} (hi : i.Around n) (p : Nat) :
    i.Chosen p ↔ Double.grid p = Double.grid n ∧ Double.IsShort p := by
  have hh := hi.has_iff_grid
  rw [Chosen, hi.value_eq]
  constructor
  · rintro ⟨hp, h4 | ⟨h3, hd, hno⟩⟩
    · exact ⟨(hh p (.inl h4)).mp hp, .inl h4⟩
    · have he := (hh p (.inr hd)).mp hp
      rw [← he] at hd hh
      refine ⟨he, .inr ⟨h3, hd, ?_⟩⟩
      intro q hq hqp
      exact hno q hq ((hh q (.inl hq)).mpr hqp)
  · rintro ⟨he, h4 | ⟨h3, hd, hno⟩⟩
    · exact ⟨(hh p (.inl h4)).mpr he, .inl h4⟩
    · rw [he] at hd hno
      refine ⟨(hh p (.inr hd)).mpr he, .inr ⟨h3, hd, ?_⟩⟩
      intro q hq hqi
      exact hno q hq ((hh q (.inl hq)).mp hqi)

end Shortest

namespace Double

variable {n : Nat} (hn : Wide n)

include hn

/-- `grid` gives the value of the double. -/
theorem Wide.fraction : (ofFraction false n 1).fraction = (grid n, 1) := by
  by_cases hq : Double.roundDiv n 2048 = 2 ^ 53
  · simp only [Double.fraction, hn.scaled_of_eq hq, grid, hq]
    rfl
  · have hle := hn.roundDiv.2
    simp only [Double.fraction, hn.scaled_of_lt (by omega), grid, Nat.mul_comm 2048]
    rfl

theorem Wide.around : ∃ (i : Shortest.Interval) (d : Nat), 0 < d ∧
    Shortest.interval (ofFraction false n 1) = i.times d ∧ i.Around n := by
  have hl := hn.roundDiv.1
  have hu := hn.roundDiv.2
  by_cases hq : Double.roundDiv n 2048 = 2 ^ 53
  · obtain ⟨d, hd, hi⟩ := Shortest.interval_eq_times (hn.scaled_of_eq hq) (j := 10) rfl
    exact ⟨_, d, hd, hi, Shortest.around_wholeInterval_two_pow hq⟩
  · have hlt : Double.roundDiv n 2048 < 2 ^ 53 := by omega
    obtain ⟨d, hd, hi⟩ := Shortest.interval_eq_times (hn.scaled_of_lt hlt) (j := 9) rfl
    exact ⟨_, d, hd, hi, Shortest.around_wholeInterval hl hlt rfl⟩

/-- The shortest digits of the double are those of the one short integer that is rounded to it. -/
theorem Wide.shortest (tie : Tie) : ∃ m l : Nat, (ofFraction false n 1).shortest tie = ⟨m, l⟩ ∧
    0 < m * 10 ^ l ∧ grid (m * 10 ^ l) = grid n ∧ (m * 10 ^ l = n ↔ IsShort n) := by
  obtain ⟨i, d, hd, hi, ha⟩ := hn.around
  obtain ⟨m, l, hs, hc⟩ := Shortest.search_chosen ha.toRoomy tie
  obtain ⟨m', l', hz, he⟩ := Shortest.normalize_natCast 20 m l
  have hx : (ofFraction false n 1).shortest tie = ⟨m', l'⟩ := by
    rw [Double.shortest, hi, ← hz, ← hs, Shortest.search_times i hd]
    congr 2
    exact Shortest.decimalExponent_times hd _ _
  obtain ⟨hgrid, hshort⟩ := (ha.chosen_iff _).mp hc
  have hlow := (ha.bounds hc.1).1
  have hsize := ha.size.1
  refine ⟨m', l', hx, ?_⟩
  rw [he]
  refine ⟨by omega, hgrid, ?_⟩
  constructor
  · intro h
    rw [← h]
    exact hshort
  · intro h
    exact hc.unique ha.toRoomy ((ha.chosen_iff n).mpr ⟨rfl, h⟩)

theorem Wide.text : ∃ m, Layout.plain.text (ofFraction false n 1) = natText m ∧
    grid m = grid n ∧ (m = n ↔ IsShort n) := by
  obtain ⟨m, l, hs, hpos, hgrid, hiff⟩ := hn.shortest .up
  have hm : 0 < m := Nat.pos_of_mul_pos_right hpos
  refine ⟨m * 10 ^ l, ?_, hgrid, hiff⟩
  have hp : ((ofFraction false n 1).shortest Layout.plain.tie).parts =
      (Nat.toDigits 10 m, ((Nat.toDigits 10 m).length : Int) + l) := by
    change ((ofFraction false n 1).shortest .up).parts = _
    rw [hs, Decimal.parts]
  simp only [Layout.text, hn.isNaN, hn.isNegative, hn.isFinite, hn.isZero, Bool.false_eq_true,
    ↓reduceIte, Bool.not_true]
  rw [hp, Layout.write_plain _ _ Nat.toDigits_ne_nil, ← toDigits_mul_pow hm, natText,
    String.empty_append]

end Double

end OrgClient.Number
