import OrgClient.Number.Decimal
import OrgClient.Text.Utf8

namespace OrgClient.Url

open Number Text

/-- A part of an address: hexadecimal behind `0x`, octal behind another zero, else decimal. -/
def ipv4Part? : List Char → Option Nat
  | [] => none
  | ['0'] => some 0
  | '0' :: 'x' :: cs => number? 16 cs
  | '0' :: 'X' :: cs => number? 16 cs
  | '0' :: cs => number? 8 cs
  | cs => number? 10 cs

/-- The parts between dots, without an empty one behind the last dot. -/
def dotParts (cs : List Char) : List (List Char) :=
  let parts := cs.splitOn '.'
  if 1 < parts.length && parts.getLast? == some [] then parts.dropLast else parts

/-- Whether a host has to be an address, as its last part is a number. -/
def endsInNumber (cs : List Char) : Bool :=
  match (dotParts cs).getLast? with
  | none => false
  | some part => (!part.isEmpty && part.all Char.isDigit) || (ipv4Part? part).isSome

/-- The address of one to four numbers, the last of which fills what the others leave. -/
def ipv4OfParts? : List Nat → Option Nat
  | [] => none
  | parts =>
    let high := parts.dropLast
    let low := parts.getLastD 0
    if high.length ≤ 3 && high.all (· < 256) && low < Nat.pow 256 (4 - high.length) then
      some (high.foldl (· * 256 + ·) 0 * Nat.pow 256 (4 - high.length) + low)
    else none

def ipv4? (cs : List Char) : Option Nat := do
  ipv4OfParts? (← (dotParts cs).mapM ipv4Part?)

def ipv4Text (address : Nat) : String :=
  ".".intercalate
    ([Nat.pow 256 3, Nat.pow 256 2, 256, 1].map fun weight => natText (address / weight % 256))

def hexGroup? (cs : List Char) : Option Nat :=
  if cs.isEmpty || 4 < cs.length then none else number? 16 cs

/-- A decimal number below 256 without idle zeros. -/
def octet? (cs : List Char) : Option Nat := do
  if cs.isEmpty || 3 < cs.length || (cs.head? == some '0' && 1 < cs.length) then none
  let n ← number? 10 cs
  if n < 256 then some n else none

def octetGroups? (cs : List Char) : Option (List Nat) := do
  match ← (cs.splitOn '.').mapM octet? with
  | [a, b, c, d] => return [a * 256 + b, c * 256 + d]
  | _ => none

/-- Groups between colons, of which the last may be four decimal numbers if `octets` is set. -/
def groups? (octets : Bool) : List (List Char) → Option (List Nat)
  | [] => some []
  | [part] =>
    if octets && part.contains '.' then octetGroups? part else return [← hexGroup? part]
  | part :: parts => do return (← hexGroup? part) :: (← groups? octets parts)

def side? (octets : Bool) (cs : List Char) : Option (List Nat) :=
  if cs.isEmpty then some [] else groups? octets (cs.splitOn ':')

/-- What stands before and behind the first double colon. -/
def doubleColon? : List Char → Option (List Char × List Char)
  | [] => none
  | ':' :: ':' :: cs => some ([], cs)
  | c :: cs => (doubleColon? cs).map fun p => (c :: p.1, p.2)

/-- Reads an address: eight groups, or fewer and a double colon for groups of zero. -/
def ipv6? (cs : List Char) : Option (List Nat) := do
  match doubleColon? cs with
  | none =>
    let groups ← groups? true (cs.splitOn ':')
    if groups.length = 8 then some groups else none
  | some (before, behind) =>
    let high ← side? false before
    let low ← side? true behind
    let count := high.length + low.length
    if count ≤ 7 then some (high ++ List.replicate (8 - count) 0 ++ low) else none

def zeroRun (groups : List Nat) : Nat :=
  (groups.takeWhile (· == 0)).length

/-- The place and length of the first longest run of zeros, of two at least. -/
def longestRun (place : Nat) : List Nat → Nat × Nat
  | [] => (0, 1)
  | g :: gs =>
    let later := longestRun (place + 1) gs
    let here := zeroRun (g :: gs)
    if later.2 ≤ here && 1 < here then (place, here) else later

def groupsText (groups : List Nat) : String :=
  ":".intercalate (groups.map fun g => String.ofList (Nat.toDigits 16 g))

/-- The text of an address: a double colon stands for the first longest run of zeros. -/
def ipv6Text (groups : List Nat) : String :=
  let (place, length) := longestRun 0 groups
  if length ≤ 1 then groupsText groups
  else groupsText (groups.take place) ++ "::" ++ groupsText (groups.drop (place + length))

end OrgClient.Url
