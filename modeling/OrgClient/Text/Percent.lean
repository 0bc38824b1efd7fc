import OrgClient.Text.Letters

namespace OrgClient.Text

/-- The UTF-8 bytes of a text. -/
def utf8Bytes (cs : List Char) : List UInt8 :=
  cs.flatMap String.utf8EncodeChar

/-- The upper-case hexadecimal digit of a number below sixteen. -/
def hexDigit (n : Nat) : Char :=
  Char.ofNat (if n < 10 then 48 + n else 55 + n)

/-- A byte as `%` and two hexadecimal digits. -/
def percentByte (b : UInt8) : List Char :=
  ['%', hexDigit (b.toNat / 16), hexDigit (b.toNat % 16)]

/-- Writes the bytes of each character that is not kept. -/
def percentEncode (keep : Char → Bool) (cs : List Char) : List Char :=
  cs.flatMap fun c => if keep c then [c] else (String.utf8EncodeChar c).flatMap percentByte

/-- The unreserved characters of URLs: letters, digits and `-_.~`. -/
def isUnreserved (c : Char) : Bool :=
  isAsciiAlnum c || c == '-' || c == '_' || c == '.' || c == '~'

def encodeComponent (s : String) : String :=
  String.ofList (percentEncode isUnreserved s.toList)

/-- The characters that form data keeps: letters, digits and `*-._`. -/
def isFormChar (c : Char) : Bool :=
  isAsciiAlnum c || c == '*' || c == '-' || c == '.' || c == '_'

/-- A text as a name or value of form data, where a space is a plus sign. -/
def encodeForm (s : String) : String :=
  String.ofList (s.toList.flatMap fun c =>
    if c == ' ' then ['+'] else percentEncode isFormChar [c])

end OrgClient.Text
