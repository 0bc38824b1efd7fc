import OrgClient.Json.Document

namespace OrgClient.Json

open Number

/-- The parts of a numeral: digits before and after the point, and the signed exponent. -/
structure Numeral where
  negative : Bool
  whole : List Char
  fraction : Option (List Char)
  exponent : Option (Bool × List Char)

namespace Numeral

/-- The greatest integer of 64 bits. -/
def maxSignificand : Nat := UInt64.size - 1

/-- The greatest exponent that is counted. -/
def maxExponent : Nat := Nat.pow 2 31 - 1

def digit (c : Char) : Nat :=
  c.toNat - 48

def digitsValue (ds : List Char) : Nat :=
  ds.foldl (fun n c => 10 * n + digit c) 0

/-- Appends digits to a significand as long as they fit, and counts those that are left. -/
def absorb (significand : Nat) : List Char → Nat × Nat
  | [] => (significand, 0)
  | d :: ds =>
    let next := significand * 10 + digit d
    if next ≤ maxSignificand then absorb next ds else (significand, (d :: ds).length)

/-- `significand * 10 ^ exponent`, rounded at each step; too large a number has no value. -/
def scale (significand : Double) (exponent : Int) : Nat → Option Double
  | 0 => some (.ofNat 0)
  | fuel + 1 =>
    if exponent.natAbs ≤ 308 then
      let power := Double.ofDecimal false 1 exponent.natAbs
      if 0 ≤ exponent then
        let x := significand.mul power
        if x.isFinite then some x else none
      else some (significand.div power)
    else if significand.isZero then some significand
    else if 0 ≤ exponent then none
    else scale (significand.div (.ofDecimal false 1 308)) (exponent + 308) fuel

/-- The exponent as written, unless it is too large to count. -/
def writtenExponent (n : Numeral) : Option Int :=
  match n.exponent with
  | none => some 0
  | some (negative, ds) =>
    let e := digitsValue ds
    if e ≤ maxExponent then some (if negative then -e else e) else none

/-- The number a numeral with a point, an exponent or too many digits stands for: a significand of
64 bits, into which go as many of the digits as fit, and a power of ten. -/
def toDouble? (n : Numeral) : Option Double :=
  let (whole, dropped) := absorb 0 n.whole
  let places := n.fraction.getD []
  let (significand, left) := absorb whole places
  let shift : Int := (dropped : Int) - (places.length - left : Nat)
  let magnitude : Option Double :=
    match n.writtenExponent with
    | some e => scale (.ofNat significand) (shift + e) 4
    | none =>
      if significand ≠ 0 && n.exponent.all (!·.1) then none else some (.ofNat 0)
  magnitude.map fun x => if n.negative then x.neg else x

/-- The number a numeral stands for: an integer of 64 bits, a double, or none if too large. -/
def document (n : Numeral) : Document :=
  let whole := digitsValue n.whole
  if n.fraction.isNone && n.exponent.isNone && !n.negative && whole ≤ maxSignificand then
    .int whole
  else if n.fraction.isNone && n.exponent.isNone && n.negative && whole ≠ 0
      && whole ≤ Nat.pow 2 63 then
    .int (-whole)
  else
    match n.toDouble? with
    | some x => .float x
    | none => .unreadable

end Numeral

end OrgClient.Json
