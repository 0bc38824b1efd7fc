import OrgClient.Json.Members
import OrgClient.Number.Double

namespace OrgClient

/-- A JSON value; the members of an object are in order of their keys. -/
inductive Json where
  | null
  | bool (b : Bool)
  | int (n : Int)
  | float (x : Number.Double)
  | str (s : String)
  | arr (items : List Json)
  | obj (members : List (String × Json))
  deriving Inhabited

namespace Json

/-- The object with these members, of which the last under a key counts. -/
def object (ps : List (String × Json)) : Json :=
  .obj (Members.ofList ps)

def strings (ss : List String) : Json :=
  .arr (ss.map .str)

def ofString? : Option String → Json
  | none => .null
  | some s => .str s

def member? (key : String) : Json → Option Json
  | .obj ms => Members.get? ms key
  | _ => none

def text? : Json → Option String
  | .str s => some s
  | _ => none

def isNull : Json → Bool
  | .null => true
  | _ => false

mutual

/-- Applies a function to all texts of a value; keys stay as they are. -/
def mapText (f : String → String) : Json → Json
  | .str s => .str (f s)
  | .arr items => .arr (mapTextItems f items)
  | .obj members => .obj (mapTextMembers f members)
  | .null => .null
  | .bool b => .bool b
  | .int n => .int n
  | .float x => .float x

def mapTextItems (f : String → String) : List Json → List Json
  | [] => []
  | j :: js => j.mapText f :: mapTextItems f js

/-- Applies a function to all texts of the values of some members. -/
def mapTextMembers (f : String → String) : List (String × Json) → List (String × Json)
  | [] => []
  | (key, j) :: ms => (key, j.mapText f) :: mapTextMembers f ms

end

/-- The types whose values have a form in JSON, or a reason why they have none. -/
class Serialize (ι : Type) where
  serialize : ι → Except String Json

instance : Serialize Json :=
  ⟨.ok⟩

end Json

end OrgClient
