import OrgClient.Json.Value

namespace OrgClient.Json

/-- A document; a key or part is unreadable if it is well formed but stands for no value. -/
inductive Document where
  | null
  | bool (b : Bool)
  | int (n : Int)
  | float (x : Number.Double)
  | str (s : String)
  | arr (items : List Document)
  | obj (members : List (Option String × Document))
  | unreadable
  deriving Inhabited

namespace Document

mutual

/-- The value of a document; the last of repeated members counts. -/
def value? : Document → Option Json
  | .null => some .null
  | .bool b => some (.bool b)
  | .int n => some (.int n)
  | .float x => some (.float x)
  | .str s => some (.str s)
  | .arr items => (values? items).map .arr
  | .obj members => (memberValues? members).map Json.object
  | .unreadable => none

def values? : List Document → Option (List Json)
  | [] => some []
  | d :: ds => do return (← value? d) :: (← values? ds)

def memberValues? : List (Option String × Document) → Option (List (String × Json))
  | [] => some []
  | (key, d) :: ms => do return (← key, ← value? d) :: (← memberValues? ms)

end

end Document

mutual

def document : Json → Document
  | .null => .null
  | .bool b => .bool b
  | .int n => .int n
  | .float x => .float x
  | .str s => .str s
  | .arr items => .arr (documents items)
  | .obj members => .obj (memberDocuments members)

def documents : List Json → List Document
  | [] => []
  | j :: js => document j :: documents js

def memberDocuments : List (String × Json) → List (Option String × Document)
  | [] => []
  | (k, j) :: ms => (some k, document j) :: memberDocuments ms

end

end OrgClient.Json
