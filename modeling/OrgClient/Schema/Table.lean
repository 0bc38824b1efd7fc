import OrgClient.Schema.FieldType
import OrgClient.Text.Letters

namespace OrgClient.Schema

variable {κ : Type}

/-- Where a relationship field leads: to one parent record or to many child records. -/
inductive Relation (κ : Type) where
  | parent (table : κ)
  | child (table : κ)
  deriving DecidableEq, Repr

def Relation.target : Relation κ → κ
  | .parent t => t
  | .child t => t

/-- A field: callers use its property, and its API name goes over the wire. -/
structure Field (κ : Type) where
  property : String
  apiName : String
  type : FieldType
  required : Bool
  createable : Bool
  updateable : Bool
  externalId : Bool
  relation : Option (Relation κ)
  deriving Repr

def Field.isRelationship (f : Field κ) : Bool :=
  f.relation.isSome

def Field.isChild (f : Field κ) : Bool :=
  match f.relation with
  | some (.child _) => true
  | _ => false

/-- A table with its fields in order. -/
structure Table (κ : Type) where
  apiName : String
  fields : List (Field κ)
  deriving Repr

/-- The first field with a property. -/
def Table.field? (t : Table κ) (property : String) : Option (Field κ) :=
  t.fields.find? (·.property == property)

/-- The first field with an API name, in any case. -/
def Table.fieldByApiName? (t : Table κ) (name : String) : Option (Field κ) :=
  t.fields.find? (Text.equalsIgnoringCase ·.apiName name)

end OrgClient.Schema

namespace OrgClient

/-- A system of tables under keys by which relationships refer to them. -/
abbrev Schema (κ : Type) := κ → Schema.Table κ

/-- The system of the tables of a list, under their places in it. -/
def Schema.ofList (tables : List (Schema.Table Nat)) : Schema Nat :=
  fun place => tables.getD place ⟨"", []⟩

end OrgClient
