namespace OrgClient.Text.Punycode

/-- The digit of a value below 36: letters, then decimal digits. -/
def digit (value : Nat) : Char :=
  Char.ofNat (if value < 26 then 97 + value else 22 + value)

/-- The least value of a digit behind which more digits follow. -/
def threshold (position bias : Nat) : Nat :=
  min 26 (max 1 (position - bias))

/-- A number of steps as digits, least weight first. -/
def digits (bias position steps : Nat) : List Char :=
  let least := threshold position bias
  if h : steps < least then [digit steps]
  else
    have : (steps - least) / (36 - least) < steps := by
      have h₁ : 1 ≤ threshold position bias := by unfold threshold; omega
      have h₂ := Nat.div_le_self (steps - least) (36 - least)
      omega
    digit (least + (steps - least) % (36 - least)) ::
      digits bias (position + 36) ((steps - least) / (36 - least))
termination_by steps

def scaleDown (n places : Nat) : Nat × Nat :=
  if n ≤ 455 then (n, places) else scaleDown (n / 35) (places + 36)
termination_by n

def adapt (steps count : Nat) (first : Bool) : Nat :=
  let n := if first then steps / 700 else steps / 2
  let (n, places) := scaleDown (n + n / count) 0
  places + 36 * n / (n + 38)

/-- The state of encoding: text written, steps since the last insertion, bias, characters done. -/
structure State where
  out : List Char
  steps : Nat
  bias : Nat
  done : Nat

/-- Passes a character of the label when characters with a code point are inserted. -/
def State.pass (basic code : Nat) (s : State) (c : Char) : State :=
  if c.toNat < code then { s with steps := s.steps + 1 }
  else if c.toNat = code then
    { out := s.out ++ digits s.bias 36 s.steps
      steps := 0
      bias := adapt s.steps (s.done + 1) (s.done == basic)
      done := s.done + 1 }
  else s

/-- Inserts the characters with each of the code points, which increase. -/
def insertAll (label : List Char) (basic : Nat) : Nat → List Nat → State → State
  | _, [], s => s
  | next, code :: codes, s =>
    let s := { s with steps := s.steps + (code - next) * (s.done + 1) }
    let s := label.foldl (State.pass basic code) s
    insertAll label basic (code + 1) codes { s with steps := s.steps + 1 }

/-- A label in Punycode (RFC 3492): its ASCII characters, a hyphen if there are any, and the
insertions of the others, in the order of their code points. -/
def encode (label : List Char) : List Char :=
  let basic := label.filter (·.toNat < 128)
  let codes := ((label.map Char.toNat).filter (128 ≤ ·)).mergeSort.eraseDups
  let start : State := ⟨[], 0, 72, basic.length⟩
  basic ++ (if basic.isEmpty then [] else ['-'])
    ++ (insertAll label basic.length 128 codes start).out

/-- The value of a digit. -/
def value? (c : Char) : Option Nat :=
  if 'a' ≤ c && c ≤ 'z' then some (c.toNat - 97)
  else if c.isDigit then some (c.toNat - 22)
  else none

/-- The number of steps at the start of digits, and the digits behind it. -/
def steps? (bias : Nat) : Nat → Nat → List Char → Option (Nat × List Char)
  | _, _, [] => none
  | position, weight, c :: cs => do
    let v ← value? c
    let least := threshold position bias
    if v < least then return (v * weight, cs)
    else
      let (n, rest) ← steps? bias (position + 36) (weight * (36 - least)) cs
      return (v * weight + n, rest)

/-- Puts the characters that digits stand for into a label, each at its place. -/
def restore (basic : Nat) :
    Nat → List Char → Nat → Nat → Nat → List Char → Option (List Char)
  | _, [], _, _, _, label => some label
  | 0, _ :: _, _, _, _, _ => none
  | fuel + 1, digits, place, code, bias, label => do
    let (n, rest) ← steps? bias 36 1 digits
    let count := label.length + 1
    let code := code + (place + n) / count
    let place := (place + n) % count
    if code.isValidChar then
      restore basic fuel rest (place + 1) code (adapt n count (label.length == basic))
        (label.insertIdx place (Char.ofNat code))
    else none

/-- The label that is written in Punycode. -/
def decode? (cs : List Char) : Option (List Char) :=
  let basic := ((cs.reverse.dropWhile (· ≠ '-')).drop 1).reverse
  let digits := (cs.reverse.takeWhile (· ≠ '-')).reverse
  restore basic.length digits.length digits 0 128 72 basic

end OrgClient.Text.Punycode
