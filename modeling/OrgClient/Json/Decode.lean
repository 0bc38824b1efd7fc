import OrgClient.Json.Parser

namespace OrgClient.Json

/-- Reads typed data from a document that holds such data. -/
abbrev Decoder (α : Type) := Document → Option α

namespace Decoder

variable {α : Type}

/-- Reads `true` or `false`. -/
def bool : Decoder Bool
  | .bool b => some b
  | _ => none

def string : Decoder String
  | .str s => some s
  | _ => none

/-- Reads an integer of 64 bits with sign. -/
def int64 : Decoder Int
  | .int n => if Int64.minValue.toInt ≤ n && n ≤ Int64.maxValue.toInt then some n else none
  | _ => none

/-- Reads an integer of 64 bits without sign. -/
def uint64 : Decoder Nat
  | .int (.ofNat n) => if n < UInt64.size then some n else none
  | _ => none

def unit : Decoder Unit
  | .null => some ()
  | _ => none

def value : Decoder Json :=
  Document.value?

/-- Reads null as none. -/
def option (d : Decoder α) : Decoder (Option α)
  | .null => some none
  | doc => (d doc).map some

def list (d : Decoder α) : Decoder (List α)
  | .arr items => items.mapM d
  | _ => none

/-- Reads an object with any keys; the last of repeated members counts. -/
def members (d : Decoder α) : Decoder (Members α)
  | .obj ms => (ms.mapM fun (m : Option String × Document) => do
      return (← m.1, ← d m.2)).map Members.ofList
  | _ => none

end Decoder

/-- The known members of a record, and whether they were given by position. -/
structure Fields where
  positional : Bool
  entries : List (String × Document)

namespace Fields

variable {α : Type}

/-- The members under known keys, each of which occurs once at most. -/
def ofMembers (names : List String) :
    List (Option String × Document) → Option (List (String × Document))
  | [] => some []
  | (key, d) :: ms => do
    let name ← key
    let rest ← ofMembers names ms
    if !names.contains name then some rest
    else if (rest.lookup name).isSome then none
    else some ((name, d) :: rest)

/-- The known members of an object, which must not repeat; unknown ones are skipped. An array has
its items in the order of the names. -/
def read? (names : List String) : Document → Option Fields
  | .obj ms => (ofMembers names ms).map (⟨false, ·⟩)
  | .arr items => if items.length ≤ names.length then some ⟨true, names.zip items⟩ else none
  | _ => none

def required (f : Fields) (name : String) (d : Decoder α) : Option α :=
  (f.entries.lookup name).bind d

def defaulted (f : Fields) (name : String) (d : Decoder α) (absent : α) : Option α :=
  match f.entries.lookup name with
  | none => some absent
  | some doc => d doc

def nullable (f : Fields) (name : String) (d : Decoder α) : Option (Option α) :=
  match f.entries.lookup name with
  | none => if f.positional then none else some none
  | some doc => Decoder.option d doc

end Fields

def decodeBytes? {α : Type} (d : Decoder α) (bs : List UInt8) : Option α :=
  (Document.ofBytes? bs).bind d

def decodeText? {α : Type} (d : Decoder α) (text : String) : Option α :=
  (Document.parse? text).bind d

def decodeValue? {α : Type} (d : Decoder α) (j : Json) : Option α :=
  d j.document

end OrgClient.Json
