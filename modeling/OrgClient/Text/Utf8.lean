import OrgClient.Text.Percent

namespace OrgClient.Text

/-- The least and greatest second byte, and the number of bytes that follow the first. -/
def utf8Lead (b : UInt8) : Option (UInt8 × UInt8 × Nat) :=
  if 0xC2 ≤ b && b ≤ 0xDF then some (0x80, 0xBF, 1)
  else if b == 0xE0 then some (0xA0, 0xBF, 2)
  else if b == 0xED then some (0x80, 0x9F, 2)
  else if 0xE1 ≤ b && b ≤ 0xEF then some (0x80, 0xBF, 2)
  else if b == 0xF0 then some (0x90, 0xBF, 3)
  else if 0xF1 ≤ b && b ≤ 0xF3 then some (0x80, 0xBF, 3)
  else if b == 0xF4 then some (0x80, 0x8F, 3)
  else none

/-- A character of which bytes are missing: its bits so far, the range of the next byte and the
number of bytes behind that. -/
structure Utf8Pending where
  bits : Nat
  least : UInt8
  greatest : UInt8
  behind : Nat

/-- Begins a character: none stands for a byte that begins no character. -/
def utf8Begin (b : UInt8) : Option (Char ⊕ Utf8Pending) :=
  if b < 0x80 then some (.inl (Char.ofNat b.toNat))
  else
    match utf8Lead b with
    | none => none
    | some (least, greatest, count) =>
      some (.inr ⟨b.toNat % Nat.pow 2 (6 - count), least, greatest, count - 1⟩)

/-- The characters of bytes. A longest beginning of a character that is not completed counts as
one fault, as does a byte that begins none. -/
def utf8Read : Option Utf8Pending → List UInt8 → List (Option Char)
  | none, [] => []
  | some _, [] => [none]
  | none, b :: bs =>
    match utf8Begin b with
    | none => none :: utf8Read none bs
    | some (.inl c) => some c :: utf8Read none bs
    | some (.inr p) => utf8Read (some p) bs
  | some p, b :: bs =>
    if p.least ≤ b && b ≤ p.greatest then
      let bits := p.bits * 64 + b.toNat % 64
      match p.behind with
      | 0 => some (Char.ofNat bits) :: utf8Read none bs
      | n + 1 => utf8Read (some ⟨bits, 0x80, 0xBF, n⟩) bs
    else
      none ::
        match utf8Begin b with
        | none => none :: utf8Read none bs
        | some (.inl c) => some c :: utf8Read none bs
        | some (.inr q) => utf8Read (some q) bs

/-- The text of bytes that are UTF-8. -/
def ofUtf8? (bs : List UInt8) : Option String :=
  ((utf8Read none bs).mapM id).map String.ofList

/-- The text of any bytes, with a replacement character for each fault. -/
def ofUtf8Lossy (bs : List UInt8) : String :=
  String.ofList ((utf8Read none bs).map (·.getD '\uFFFD'))

def digitValue? (base : Nat) (c : Char) : Option Nat :=
  let value :=
    if c.isDigit then c.toNat - 48
    else if 'a' ≤ c && c ≤ 'f' then c.toNat - 87
    else if 'A' ≤ c && c ≤ 'F' then c.toNat - 55
    else base
  if value < base then some value else none

/-- The number that digits in a base stand for; no digits stand for zero. -/
def number? (base : Nat) (cs : List Char) : Option Nat :=
  cs.foldlM (fun n c => do return n * base + (← digitValue? base c)) 0

/-- The bytes of a text in which `%` and two hexadecimal digits stand for a byte. -/
def percentDecode : List Char → List UInt8
  | [] => []
  | '%' :: a :: b :: cs =>
    match digitValue? 16 a, digitValue? 16 b with
    | some x, some y => UInt8.ofNat (x * 16 + y) :: percentDecode cs
    | _, _ => String.utf8EncodeChar '%' ++ percentDecode (a :: b :: cs)
  | c :: cs => String.utf8EncodeChar c ++ percentDecode cs

end OrgClient.Text
