import OrgClient.Json.Numeral
import OrgClient.Text.Utf8

namespace OrgClient.Json

def skipBlanks (cs : List Char) : List Char :=
  cs.dropWhile fun c => c == ' ' || c == '\n' || c == '\t' || c == '\r'

/-- A byte of a string, or a code unit written with `\u`. -/
inductive Piece where
  | byte (c : Char)
  | unit (n : Nat)

def hexValue (c : Char) : Option Nat :=
  if c.isDigit then some (c.toNat - 48)
  else if 'a' ≤ c && c ≤ 'f' then some (c.toNat - 87)
  else if 'A' ≤ c && c ≤ 'F' then some (c.toNat - 55)
  else none

def hexUnit (a b c d : Char) : Option Nat := do
  return (((← hexValue a) * 16 + (← hexValue b)) * 16 + (← hexValue c)) * 16 + (← hexValue d)

/-- The character that stands behind a backslash for another one. -/
def unescapeLetter : Char → Option Char
  | '"' => some '"'
  | '\\' => some '\\'
  | '/' => some '/'
  | 'b' => some '\x08'
  | 'f' => some '\x0c'
  | 'n' => some '\n'
  | 'r' => some '\r'
  | 't' => some '\t'
  | _ => none

/-- The pieces of a string up to its closing quote, and the rest. -/
def scanString : List Char → Option (List Piece × List Char)
  | [] => none
  | '"' :: r => some ([], r)
  | '\\' :: 'u' :: a :: b :: c :: d :: r => do
    let n ← hexUnit a b c d
    let (ps, rest) ← scanString r
    return (.unit n :: ps, rest)
  | '\\' :: e :: r => do
    let c ← unescapeLetter e
    let (ps, rest) ← scanString r
    return (.byte c :: ps, rest)
  | c :: r =>
    if c.toNat < 32 then none
    else do
      let (ps, rest) ← scanString r
      return (.byte c :: ps, rest)

/-- The bytes of a string, in which code units beyond the first plane must come in pairs. -/
def joinPieces : List Piece → Option (List UInt8)
  | [] => some []
  | .byte c :: ps => do return UInt8.ofNat c.toNat :: (← joinPieces ps)
  | .unit n :: .unit m :: ps =>
    if 0xD800 ≤ n && n < 0xDC00 then
      if 0xDC00 ≤ m && m < 0xE000 then do
        let c := Char.ofNat (0x10000 + (n - 0xD800) * 0x400 + (m - 0xDC00))
        return String.utf8EncodeChar c ++ (← joinPieces ps)
      else none
    else if 0xDC00 ≤ n && n < 0xE000 then none
    else do return String.utf8EncodeChar (Char.ofNat n) ++ (← joinPieces (.unit m :: ps))
  | .unit n :: ps =>
    if 0xD800 ≤ n && n < 0xE000 then none
    else do return String.utf8EncodeChar (Char.ofNat n) ++ (← joinPieces ps)

/-- The text of a string, whose bytes must be UTF-8. -/
def piecesText (ps : List Piece) : Option String :=
  (joinPieces ps).bind Text.ofUtf8?

/-- Digits at the start, of which there must be one, and the rest. -/
def takeDigits (cs : List Char) : Option (List Char × List Char) :=
  match cs.takeWhile Char.isDigit with
  | [] => none
  | ds => some (ds, cs.dropWhile Char.isDigit)

def takeWhole (cs : List Char) : Option (List Char × List Char) := do
  let (ds, rest) ← takeDigits cs
  match ds with
  | '0' :: _ :: _ => none
  | _ => some (ds, rest)

def takeFraction : List Char → Option (Option (List Char) × List Char)
  | '.' :: r => do
    let (ds, rest) ← takeDigits r
    return (some ds, rest)
  | cs => some (none, cs)

def takeSigned (negative : Bool) (cs : List Char) :
    Option (Option (Bool × List Char) × List Char) := do
  let (ds, rest) ← takeDigits cs
  return (some (negative, ds), rest)

def takeExponent : List Char → Option (Option (Bool × List Char) × List Char)
  | c :: r =>
    if c = 'e' || c = 'E' then
      match r with
      | '+' :: r => takeSigned false r
      | '-' :: r => takeSigned true r
      | _ => takeSigned false r
    else some (none, c :: r)
  | [] => some (none, [])

def takeNumeral (negative : Bool) (cs : List Char) : Option (Numeral × List Char) := do
  let (whole, r) ← takeWhole cs
  let (fraction, r) ← takeFraction r
  let (exponent, r) ← takeExponent r
  return (⟨negative, whole, fraction, exponent⟩, r)

/-- Containers that are nested deeper are read past, as parts that have no value. -/
def maxDepth : Nat := 127

mutual

/-- A value at some depth of nesting, and the rest of the bytes. -/
def takeValue : Nat → Nat → List Char → Option (Document × List Char)
  | 0, _, _ => none
  | fuel + 1, depth, cs =>
    match skipBlanks cs with
    | 'n' :: 'u' :: 'l' :: 'l' :: r => some (.null, r)
    | 't' :: 'r' :: 'u' :: 'e' :: r => some (.bool true, r)
    | 'f' :: 'a' :: 'l' :: 's' :: 'e' :: r => some (.bool false, r)
    | '"' :: r => do
      let (ps, rest) ← scanString r
      return ((piecesText ps).elim .unreadable .str, rest)
    | '[' :: r => do
      let (items, rest) ← takeItems fuel (depth + 1) true r
      return (if depth < maxDepth then .arr items else .unreadable, rest)
    | '\x7b' :: r => do
      let (members, rest) ← takeMembers fuel (depth + 1) true r
      return (if depth < maxDepth then .obj members else .unreadable, rest)
    | '-' :: r => do
      let (n, rest) ← takeNumeral true r
      return (n.document, rest)
    | r => do
      let (n, rest) ← takeNumeral false r
      return (n.document, rest)

/-- The items of an array up to its end; a comma stands before each but the first. -/
def takeItems : Nat → Nat → Bool → List Char → Option (List Document × List Char)
  | 0, _, _, _ => none
  | fuel + 1, depth, first, cs =>
    match skipBlanks cs with
    | ']' :: r => some ([], r)
    | ',' :: r => if first then none else takeItem fuel depth r
    | r => if first then takeItem fuel depth r else none

def takeItem : Nat → Nat → List Char → Option (List Document × List Char)
  | 0, _, _ => none
  | fuel + 1, depth, cs => do
    let (d, r) ← takeValue fuel depth cs
    let (ds, rest) ← takeItems fuel depth false r
    return (d :: ds, rest)

def takeMembers :
    Nat → Nat → Bool → List Char → Option (List (Option String × Document) × List Char)
  | 0, _, _, _ => none
  | fuel + 1, depth, first, cs =>
    match skipBlanks cs with
    | '\x7d' :: r => some ([], r)
    | ',' :: r => if first then none else takeMember fuel depth r
    | r => if first then takeMember fuel depth r else none

def takeMember : Nat → Nat → List Char → Option (List (Option String × Document) × List Char)
  | 0, _, _ => none
  | fuel + 1, depth, cs =>
    match skipBlanks cs with
    | '"' :: r => do
      let (ps, r) ← scanString r
      match skipBlanks r with
      | ':' :: r => do
        let (d, r) ← takeValue fuel depth r
        let (ms, rest) ← takeMembers fuel depth false r
        return ((piecesText ps, d) :: ms, rest)
      | _ => none
    | _ => none

end

/-- The document that bytes write, of which only the strings that are read have to be UTF-8. Each
byte is read as the character with its number; steps are bounded by the number of bytes. -/
def Document.ofBytes? (bs : List UInt8) : Option Document := do
  let (d, rest) ← takeValue (3 * bs.length + 3) 0 (bs.map fun b => Char.ofNat b.toNat)
  if (skipBlanks rest).isEmpty then some d else none

/-- The document that a text writes. -/
def Document.parse? (text : String) : Option Document :=
  Document.ofBytes? (Text.utf8Bytes text.toList)

def parse? (text : String) : Option Json := do
  (← Document.parse? text).value?

end OrgClient.Json
