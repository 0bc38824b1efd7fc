import OrgClient.Number.Decimal

namespace OrgClient.Number

def digitsValue (ds : List Char) : Nat :=
  ds.foldl (fun n c => 10 * n + (c.toNat - 48)) 0

/-- A number written with digits only. -/
def readNat? (cs : List Char) : Option Nat :=
  if cs.isEmpty || !cs.all Char.isDigit then none else some (digitsValue cs)

def readSigned? : List Char → Option Int
  | '-' :: cs => (readNat? cs).map fun n => -n
  | '+' :: cs => (readNat? cs).map fun n => n
  | cs => (readNat? cs).map fun n => n

def readMagnitude? (negative : Bool) (cs : List Char) : Option Double :=
  let word := String.ofList (cs.map Char.toLower)
  if word = "inf" || word = "infinity" then some (.ofMagnitude negative Double.infinityBits)
  else if word = "nan" then some (.ofMagnitude negative (Double.infinityBits + Nat.pow 2 51))
  else
    let (mantissa, rest) := cs.span fun c => c ≠ 'e' && c ≠ 'E'
    let (whole, point) := mantissa.span (· ≠ '.')
    let fraction := point.drop 1
    let exponent : Option Int :=
      match rest with
      | [] => some 0
      | _ :: e => readSigned? e
    if (whole.isEmpty && fraction.isEmpty) || !whole.all Char.isDigit
        || !fraction.all Char.isDigit then none
    else exponent.map fun e =>
      .ofDecimal negative (digitsValue (whole ++ fraction)) (e - fraction.length)

def Double.ofText? (text : String) : Option Double :=
  match text.toList with
  | '-' :: cs => readMagnitude? true cs
  | '+' :: cs => readMagnitude? false cs
  | cs => readMagnitude? false cs

end OrgClient.Number
