import OrgClient.Number.Double

namespace OrgClient.Http

open Number

structure Usage where
  used : Nat
  limit : Nat
  deriving DecidableEq, Repr

namespace Usage

/-- What may stand before an entry: a space, a control from tab to carriage return (so also a
vertical tab), a comma or a semicolon. -/
def isSeparator (c : Char) : Bool :=
  c == ' ' || ('\t' ≤ c && c ≤ '\r') || c == ',' || c == ';'

/-- The leading decimal digits of a text, of which there is one at least, and the rest. -/
def digits? (cs : List Char) : Option (List Char × List Char) :=
  match cs.takeWhile Char.isDigit with
  | [] => none
  | ds => some (ds, cs.dropWhile Char.isDigit)

/-- The two numbers of the entry `api-usage` at the head of a text. -/
def entry? (cs : List Char) : Option (List Char × List Char) := do
  let name := "api-usage=".toList
  if name.isPrefixOf cs then
    let (used, rest) ← digits? (cs.drop name.length)
    match rest with
    | '/' :: rest =>
      let (limit, _) ← digits? rest
      some (used, limit)
    | _ => none
  else none

/-- The first entry `api-usage` that stands at an entry's place. -/
def find? (atEntry : Bool) : List Char → Option (List Char × List Char)
  | [] => none
  | c :: cs =>
    match if atEntry then entry? (c :: cs) else none with
    | some e => some e
    | none => find? (isSeparator c) cs

/-- The number of some decimal digits, which must be below 2^64. -/
def count? (ds : List Char) : Option Nat :=
  let n := Nat.ofDigitChars 10 ds 0
  if n < UInt64.size then some n else none

def ofHeader? (value : String) : Option Usage := do
  let (used, limit) ← find? true value.toList
  return ⟨← count? used, ← count? limit⟩

def remaining (u : Usage) : Nat :=
  u.limit - u.used

/-- The part of the limit that is used, in percent; a limit of zero is used up. -/
def percentage (u : Usage) : Double :=
  if u.limit = 0 then Double.ofNat 100
  else ((Double.ofNat u.used).div (Double.ofNat u.limit)).mul (Double.ofNat 100)

end Usage

end OrgClient.Http
