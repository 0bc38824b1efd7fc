import OrgClient.Number.Shortest

namespace OrgClient.Number

def natText (n : Nat) : String :=
  String.ofList (Nat.toDigits 10 n)

def intText : Int → String
  | .ofNat n => natText n
  | .negSucc n => "-" ++ natText (n + 1)

/-- A number padded with zeros on the left to a least width. -/
def padded (width n : Nat) : String :=
  let ds := Nat.toDigits 10 n
  String.ofList (List.replicate (width - ds.length) '0' ++ ds)

def Double.bitsText (x : Double) : String :=
  let ds := Nat.toDigits 16 x.bits.toNat
  String.ofList (List.replicate (16 - ds.length) '0' ++ ds)

/-- How the shortest digits of a finite double are laid out. -/
structure Layout where
  tie : Tie
  /-- An integral number ends in `.0`. -/
  pointZero : Bool
  /-- Greatest number of digits before the point in positional notation, if it ends. -/
  positionalAbove : Option Nat
  /-- Greatest number of zeros after the point in positional notation, if it ends. -/
  positionalBelow : Option Nat

/-- SOQL numbers have no exponent and no idle point. -/
def Layout.plain : Layout := ⟨.up, false, none, none⟩

/-- JSON numbers keep a point, and take an exponent from `1e16` and below `1e-5`. -/
def Layout.json : Layout := ⟨.even, true, some 16, some 4⟩

/-- Digits of a decimal, and the position of its point counted from their start. -/
def Decimal.parts (d : Decimal) : List Char × Int :=
  let ds := Nat.toDigits 10 d.digits
  (ds, ds.length + d.exponent)

/-- The text of digits with the point `point` places after their start. -/
def Layout.write (l : Layout) (ds : List Char) (point : Int) : List Char :=
  if 0 < point then
    if l.positionalAbove.all (point ≤ ·) then
      let n := point.toNat
      if ds.length ≤ n then
        ds ++ List.replicate (n - ds.length) '0' ++ (if l.pointZero then ['.', '0'] else [])
      else ds.take n ++ '.' :: ds.drop n
    else exponential ds point
  else if l.positionalBelow.all ((-point).toNat ≤ ·) then
    '0' :: '.' :: List.replicate (-point).toNat '0' ++ ds
  else exponential ds point
where
  /-- One digit before the point, and an exponent. -/
  exponential (ds : List Char) (point : Int) : List Char :=
    let exponent := 'e' :: (intText (point - 1)).toList
    match ds with
    | d :: r :: rs => d :: '.' :: r :: rs ++ exponent
    | _ => ds ++ exponent

/-- The text of a double; an infinite one or NaN has a word. -/
def Layout.text (l : Layout) (x : Double) : String :=
  if x.isNaN then "NaN"
  else
    let sign := if x.isNegative then "-" else ""
    if !x.isFinite then sign ++ "inf"
    else if x.isZero then sign ++ (if l.pointZero then "0.0" else "0")
    else
      let (ds, point) := (x.shortest l.tie).parts
      sign ++ String.ofList (l.write ds point)

end OrgClient.Number
