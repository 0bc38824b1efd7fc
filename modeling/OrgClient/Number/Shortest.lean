import OrgClient.Number.Double

namespace OrgClient.Number

/-- Which of two equally near decimals is taken. -/
inductive Tie where
  | up
  | even
  deriving DecidableEq, Repr

/-- A positive decimal `digits * 10 ^ exponent`. -/
structure Decimal where
  digits : Nat
  exponent : Int
  deriving DecidableEq, Repr

namespace Shortest

/-- A positive interval of the real line, its ends over one denominator. -/
structure Interval where
  low : Nat
  value : Nat
  high : Nat
  den : Nat
  closed : Bool

/-- The reals that round to a positive finite double, with the double itself. -/
def interval (x : Double) : Interval :=
  let (m, e) := x.scaled
  let low := if m = Nat.pow 2 52 && e ≠ 0 then 4 * m - 1 else 4 * m - 2
  let up := Nat.pow 2 e
  ⟨low * up, 4 * m * up, (4 * m + 2) * up, Nat.pow 2 1076, m % 2 == 0⟩

/-- Whether `n * 10 ^ k` lies in the interval. -/
def Interval.contains (i : Interval) (n : Nat) (k : Int) : Bool :=
  let point := n * Nat.pow 10 k.toNat * i.den
  let unit := Nat.pow 10 (-k).toNat
  let low := i.low * unit
  let high := i.high * unit
  if i.closed then low ≤ point && point ≤ high else low < point && point < high

/-- The part of the value's quotient by `10 ^ k` below the point: numerator and denominator. -/
def Interval.quotient (i : Interval) (k : Int) : Nat × Nat :=
  (i.value * Nat.pow 10 (-k).toNat, i.den * Nat.pow 10 k.toNat)

/-- The multiple of `10 ^ k` in the interval that is nearest to the value, if there is one. -/
def Interval.nearest? (tie : Tie) (i : Interval) (k : Int) : Option Nat :=
  let (a, b) := i.quotient k
  let n := a / b
  let upper := 2 * (a % b) > b || (2 * (a % b) == b && (tie == .up || n % 2 == 1))
  match i.contains n k, i.contains (n + 1) k with
  | true, true => some (if upper then n + 1 else n)
  | true, false => some n
  | false, true => some (n + 1)
  | false, false => none

/-- The exponent `k` with `10 ^ k ≤ a / b < 10 ^ (k + 1)`, for positive `a` and `b`. -/
def decimalExponent (a b : Nat) : Int :=
  if b ≤ a then ((Nat.toDigits 10 (a / b)).length : Int) - 1
  else
    let d := (Nat.toDigits 10 (b / a)).length
    if a * Nat.pow 10 (d - 1) = b then 1 - (d : Int) else -(d : Int)

def search (tie : Tie) (i : Interval) (k : Int) : Nat → Decimal
  | 0 => ⟨(i.quotient k).1 / (i.quotient k).2, k⟩
  | fuel + 1 =>
    match i.nearest? tie k with
    | some n => ⟨n, k⟩
    | none => search tie i (k - 1) fuel

def normalize : Nat → Decimal → Decimal
  | 0, d => d
  | fuel + 1, d =>
    if d.digits % 10 = 0 && d.digits ≠ 0 then normalize fuel ⟨d.digits / 10, d.exponent + 1⟩ else d

end Shortest

def Double.shortest (tie : Tie) (x : Double) : Decimal :=
  let i := Shortest.interval x
  Shortest.normalize 20 (Shortest.search tie i (Shortest.decimalExponent i.value i.den) 17)

end OrgClient.Number
