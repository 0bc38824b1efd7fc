import OrgClient.Schema.Table
import OrgClient.Soql.Trace

namespace OrgClient.Schema

open Soql (FieldRef Function Clauses Query)

variable {κ : Type}

/-- A place from which properties are looked up: a table, the path that led there, and whether it
lies in a query on child records. -/
structure Resolver (κ : Type) where
  schema : Schema κ
  key : κ
  path : List String
  inSubquery : Bool

namespace Resolver

def root (schema : Schema κ) (key : κ) : Resolver κ :=
  ⟨schema, key, [], false⟩

def table (r : Resolver κ) : Table κ :=
  r.schema r.key

def invalid (r : Resolver κ) (property reason : String) : Soql.Error :=
  .invalidFieldReference r.table.apiName property reason

def lookup (r : Resolver κ) (property : String) : Except Soql.Error (Field κ) :=
  match r.table.field? property with
  | some f => .ok f
  | none => .error (r.invalid property "unknown field")

/-- The reference to a field of this table from the queried one. -/
def reference (r : Resolver κ) (f : Field κ) : FieldRef :=
  if r.path.isEmpty then .plain f.apiName else .related r.path f.apiName

/-- The reference to the field with a property, which must not be a relationship. -/
def field (r : Resolver κ) (property : String) : Except Soql.Error FieldRef := do
  let f ← r.lookup property
  if f.isRelationship then
    .error (r.invalid property "is a relationship; use parent() or subquery()")
  else .ok (r.reference f)

def select (r : Resolver κ) : List String → Except Soql.Error (List FieldRef)
  | [] => .ok []
  | p :: ps => do return (← r.field p) :: (← r.select ps)

/-- The references to all fields that are no relationships. -/
def all (r : Resolver κ) : List FieldRef :=
  (r.table.fields.filter (!·.isRelationship)).map r.reference

def parent (r : Resolver κ) (property : String) : Except Soql.Error (Resolver κ) := do
  let f ← r.lookup property
  match f.relation with
  | some (.parent target) => .ok ⟨r.schema, target, r.path ++ [f.apiName], r.inSubquery⟩
  | some (.child _) => .error (r.invalid property "is a child relationship; use subquery()")
  | none => .error (r.invalid property "is not a reference field")

def function (r : Resolver κ) (f : Function) (property : String) : Except Soql.Error FieldRef := do
  return .call f [← r.field property] none

/-- The name and place of the child records that a property leads to; only the queried table has
queries on child records. -/
def child (r : Resolver κ) (property : String) : Except Soql.Error (String × Resolver κ) := do
  let f ← r.lookup property
  match f.relation with
  | some (.child target) =>
    if !r.path.isEmpty || r.inSubquery then
      .error (r.invalid property "subqueries are only allowed on the queried entity")
    else .ok (f.apiName, ⟨r.schema, target, [], true⟩)
  | _ => .error (r.invalid property "is not a child relationship")

/-- The query on the child records that a property leads to, with the clauses that `build` gives
for their place. -/
def subquery {m : Type → Type} [Monad m] [Soql.Tracer m] (r : Resolver κ) (property : String)
    (build : Resolver κ → ExceptT Soql.Error m Clauses) : ExceptT Soql.Error m FieldRef := do
  let (name, place) ← ExceptT.mk (pure (r.child property))
  let clauses ← build place
  let text ← Query.composeIn ⟨name, clauses⟩
  return .subquery ("(" ++ text ++ ")")

/-- The query on a table with the clauses that `build` gives for its place. -/
def query {m : Type → Type} [Monad m] (schema : Schema κ) (key : κ)
    (build : Resolver κ → ExceptT Soql.Error m Clauses) : ExceptT Soql.Error m Query := do
  return ⟨(schema key).apiName, ← build (root schema key)⟩

end Resolver

end OrgClient.Schema
