import OrgClient.Soql.Compose

namespace OrgClient.Soql

def composes {α : Type} (r : Except Error α) : Bool :=
  r.toBool

mutual

def Condition.composed : Condition → List String
  | .compare .. => []
  | .oneOf .. => []
  | .within _ _ query => query.composed
  | .group _ children _ => Condition.composedParts children

/-- The texts of the queries composed for the conditions of a group. -/
def Condition.composedParts : List Condition → List String
  | [] => []
  | c :: cs => c.composed ++ (if composes c.render then Condition.composedParts cs else [])

def Grouping.composed : Grouping → List String
  | ⟨_, _, none⟩ => []
  | ⟨fields, _, some condition⟩ => if fields.isEmpty then [] else condition.composed

/-- The texts of all queries composed for a query, its own last. Composing stops at the first
defect, and so does this list. -/
def Query.composed : Query → List String
  | ⟨target, ⟨select, filter, grouping, order, limit, offset, purposes, statistics⟩⟩ =>
    let whole : Query :=
      ⟨target, ⟨select, filter, grouping, order, limit, offset, purposes, statistics⟩⟩
    if select.isEmpty || Text.isBlankText target then []
    else
      (match filter with
        | none => []
        | some condition => condition.composed)
      ++ (if filter.all (composes ·.render) then
            match grouping with
            | none => []
            | some g => g.composed
          else [])
      ++ (match whole.compose with
        | .ok text => [text]
        | .error _ => [])

end

/-- A monad that is told of each query composed in it. -/
class Tracer (m : Type → Type) where
  composed : List String → m Unit

instance : Tracer Id := ⟨fun _ => ()⟩

def Query.composeIn {m : Type → Type} [Monad m] [Tracer m] (q : Query) :
    ExceptT Error m String := do
  ExceptT.lift (Tracer.composed q.composed)
  ExceptT.mk (pure q.compose)

end OrgClient.Soql
