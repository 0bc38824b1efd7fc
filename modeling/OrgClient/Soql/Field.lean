import OrgClient.Soql.Function

namespace OrgClient.Soql

/-- What can be selected, compared, grouped and sorted by. -/
inductive FieldRef where
  /-- A field of the queried table. -/
  | plain (name : String)
  /-- A field reached over parent relationships. -/
  | related (path : List String) (field : String)
  /-- A function of fields, with the label it has in a select list. -/
  | call (function : Function) (arguments : List FieldRef) (label : Option String)
  /-- The text of a query on child records, in its parentheses. -/
  | subquery (text : String)
  deriving Repr, Inhabited

namespace FieldRef

mutual

/-- The text of a reference outside select lists, where labels are left out. -/
def render : FieldRef → String
  | .plain name => name
  | .related path field => ".".intercalate path ++ "." ++ field
  | .call function arguments _ =>
    function.name ++ "(" ++ ", ".intercalate (renderAll arguments) ++ ")"
  | .subquery text => text

def renderAll : List FieldRef → List String
  | [] => []
  | f :: fs => render f :: renderAll fs

end

/-- The text of a reference in a select list, where the outermost label follows. -/
def renderSelect : FieldRef → String
  | .call function arguments (some label) =>
    render (.call function arguments (some label)) ++ " " ++ label
  | f => f.render

def count : FieldRef :=
  .call .count [] none

/-- Gives a function a label; other references have none. -/
def withLabel (label : String) : FieldRef → FieldRef
  | .call function arguments _ => .call function arguments (some label)
  | f => f

def wrap (f : FieldRef) (function : Function) : FieldRef :=
  .call function [f] none

end FieldRef

end OrgClient.Soql
