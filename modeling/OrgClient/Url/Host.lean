import OrgClient.Text.Letters
import OrgClient.Text.Punycode
import OrgClient.Url.Address
import OrgClient.Url.Defect

namespace OrgClient.Url

open Text

inductive Host where
  | domain (name : String)
  | ipv4 (address : Nat)
  | ipv6 (groups : List Nat)
  deriving DecidableEq, Repr

namespace Host

def text : Host → String
  | .domain name => name
  | .ipv4 address => ipv4Text address
  | .ipv6 groups => "[" ++ ipv6Text groups ++ "]"

/-- The characters that are looked up under a domain's character: capitals and old forms are made
small, wide forms narrow, other full stops are dots, and invisible characters are dropped. -/
def folded (c : Char) : List Char :=
  let n := c.toNat
  if n < 128 then [c.toLower]
  else if n == 0x3002 || n == 0xFF0E || n == 0xFF61 then ['.']
  else if n == 0xAD || n == 0x200B || n == 0x2060 || n == 0xFEFF then []
  else if 0xFF01 ≤ n && n ≤ 0xFF5E then [(Char.ofNat (n - 0xFEE0)).toLower]
  else if (0xC0 ≤ n && n ≤ 0xDE && n != 0xD7) || (0x391 ≤ n && n ≤ 0x3A9)
      || (0x410 ≤ n && n ≤ 0x42F) then [Char.ofNat (n + 32)]
  else if 0x400 ≤ n && n ≤ 0x40F then [Char.ofNat (n + 80)]
  else if n == 0x17F then ['s']
  else if n == 0x212A then ['k']
  else if n == 0x212B then [Char.ofNat 0xE5]
  else [c]

/-- The characters that no host holds. -/
def isForbidden (c : Char) : Bool :=
  "\x00\t\n\r #/:<>?@[\\]^|".toList.contains c

/-- A code point that is kept free of any character. -/
def isNoncharacter (c : Char) : Bool :=
  (0xFDD0 ≤ c.toNat && c.toNat ≤ 0xFDEF) || 0xFFFE ≤ c.toNat % 0x10000

/-- The characters that no domain holds: also controls and the percent sign. -/
def isForbiddenInDomain (c : Char) : Bool :=
  isForbidden c || c < ' ' || ('\x7f' ≤ c && c ≤ '\x9f') || c == '%' || isNoncharacter c

/-- Whether a label that is marked as Punycode is the Punycode of another label. -/
def isSound (label : List Char) : Bool :=
  if "xn--".toList.isPrefixOf label then
    match Punycode.decode? (label.drop 4) with
    | none => false
    | some cs =>
      Punycode.encode cs == label.drop 4 && cs.any (128 ≤ ·.toNat) && cs.flatMap folded == cs &&
        !cs.any isForbiddenInDomain
  else true

/-- A label in ASCII. -/
def labelText (label : List Char) : List Char :=
  if label.all (·.toNat < 128) then label else "xn--".toList ++ Punycode.encode label

/-- A domain in ASCII. -/
def domain? (name : String) : Option (List Char) :=
  let labels := (name.toList.flatMap folded).splitOn '.'
  if labels.any (·.any isForbiddenInDomain) || !labels.all isSound then none
  else some (['.'].intercalate (labels.map labelText))

/-- Whether a text stands in square brackets, as an address of version 6 does. -/
def bracketed? (cs : List Char) : Option (Except Defect Host) :=
  match cs with
  | '[' :: cs =>
    some (match cs.getLast?, ipv6? cs.dropLast with
      | some ']', some groups => .ok (.ipv6 groups)
      | _, _ => .error .ipv6)
  | _ => none

def ofText (cs : List Char) : Except Defect Host :=
  match bracketed? cs with
  | some r => r
  | none =>
    match (ofUtf8? (percentDecode cs)).bind domain? with
    | none => .error .domain
    | some [] => .error .emptyHost
    | some name =>
      if endsInNumber name then
        match ipv4? name with
        | some address => .ok (.ipv4 address)
        | none => .error .ipv4
      else .ok (.domain (String.ofList name))

def ofPlainText (cs : List Char) : Except Defect Host :=
  match bracketed? cs with
  | some r => r
  | none =>
    if cs.any isForbidden then .error .hostCharacter
    else
      .ok (.domain (String.ofList (percentEncode (fun c => ' ' ≤ c && c ≤ '~') cs)))

end Host

end OrgClient.Url
