namespace OrgClient.Number

/-- A double-precision number: a sign bit, eleven exponent bits and 52 fraction bits. -/
structure Double where
  bits : UInt64
  deriving DecidableEq, Repr, Inhabited

namespace Double

def isNegative (x : Double) : Bool :=
  Nat.pow 2 63 ≤ x.bits.toNat

def magnitudeBits (x : Double) : Nat :=
  x.bits.toNat % Nat.pow 2 63

def infinityBits : Nat := 2047 * Nat.pow 2 52

def isFinite (x : Double) : Bool :=
  x.magnitudeBits < infinityBits

/-- Whether the bits denote no number. -/
def isNaN (x : Double) : Bool :=
  infinityBits < x.magnitudeBits

def isZero (x : Double) : Bool :=
  x.magnitudeBits == 0

def ofMagnitude (negative : Bool) (bits : Nat) : Double :=
  ⟨UInt64.ofNat (if negative then Nat.pow 2 63 + bits else bits)⟩

/-- A finite magnitude is `m * 2 ^ (e - 1074)`: here are `m` and `e`. -/
def scaled (x : Double) : Nat × Nat :=
  let e := x.magnitudeBits / Nat.pow 2 52
  let f := x.magnitudeBits % Nat.pow 2 52
  if e = 0 then (f, 0) else (f + Nat.pow 2 52, e - 1)

def fraction (x : Double) : Nat × Nat :=
  let (m, e) := x.scaled
  if 1074 ≤ e then (m * Nat.pow 2 (e - 1074), 1) else (m, Nat.pow 2 (1074 - e))

/-- The quotient rounded to the nearest integer, a half to the even one. -/
def roundDiv (num den : Nat) : Nat :=
  let q := num / den
  let r := 2 * (num % den)
  if den < r || (r == den && q % 2 == 1) then q + 1 else q

/-- The magnitude bits of the double nearest to `num / den`, a half to the even one. -/
def roundedBits (num den : Nat) : Nat :=
  if num = 0 then 0
  else
    let guess : Int := (num.log2 : Int) - (den.log2 : Int) - 52
    let scale (e : Int) : Nat × Nat :=
      if 0 ≤ e then (num, den * Nat.pow 2 e.toNat) else (num * Nat.pow 2 (-e).toNat, den)
    let (a, b) := scale guess
    let e := max (if a / b < Nat.pow 2 52 then guess - 1 else guess) (-1074)
    let (a, b) := scale e
    min ((e + 1074).toNat * Nat.pow 2 52 + roundDiv a b) infinityBits

def ofFraction (negative : Bool) (num den : Nat) : Double :=
  ofMagnitude negative (roundedBits num den)

def ofNat (n : Nat) : Double :=
  ofFraction false n 1

/-- The double nearest to `digits * 10 ^ exponent`. -/
def ofDecimal (negative : Bool) (digits : Nat) (exponent : Int) : Double :=
  let size : Int := (Nat.toDigits 10 digits).length + exponent
  if digits = 0 || size < -330 then ofMagnitude negative 0
  else if 330 < size then ofMagnitude negative infinityBits
  else if 0 ≤ exponent then ofFraction negative (digits * Nat.pow 10 exponent.toNat) 1
  else ofFraction negative digits (Nat.pow 10 (-exponent).toNat)

/-- The rounded product of two finite numbers. -/
def mul (x y : Double) : Double :=
  let (a, b) := x.fraction
  let (c, d) := y.fraction
  ofFraction (x.isNegative != y.isNegative) (a * c) (b * d)

/-- The rounded quotient of two finite numbers, the second not zero. -/
def div (x y : Double) : Double :=
  let (a, b) := x.fraction
  let (c, d) := y.fraction
  ofFraction (x.isNegative != y.isNegative) (a * d) (b * c)

def neg (x : Double) : Double :=
  ofMagnitude (!x.isNegative) x.magnitudeBits

end Double

end OrgClient.Number
