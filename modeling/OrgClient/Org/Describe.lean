import OrgClient.Json.Decode
import OrgClient.Schema.FieldType
import OrgClient.Text.Letters

namespace OrgClient.Org

open Json (Decoder Fields)
open Schema (FieldType)

structure FieldDescription where
  name : String
  label : String
  type : String
  createable : Bool
  updateable : Bool
  nillable : Bool
  defaultedOnCreate : Bool
  externalId : Bool
  referenceTo : List String
  relationshipName : Option String

namespace FieldDescription

def decode : Decoder FieldDescription := fun d => do
  let f ← Fields.read? ["name", "label", "type", "createable", "updateable", "nillable",
    "defaultedOnCreate", "externalId", "referenceTo", "relationshipName"] d
  return {
    name := ← f.required "name" .string
    label := ← f.required "label" .string
    type := ← f.required "type" .string
    createable := ← f.defaulted "createable" .bool false
    updateable := ← f.defaulted "updateable" .bool false
    nillable := ← f.defaulted "nillable" .bool false
    defaultedOnCreate := ← f.defaulted "defaultedOnCreate" .bool false
    externalId := ← f.defaulted "externalId" .bool false
    referenceTo := ← f.defaulted "referenceTo" (.list .string) []
    relationshipName := ← f.nullable "relationshipName" .string }

def toJson (f : FieldDescription) : Json :=
  .object [("name", .str f.name), ("label", .str f.label), ("type", .str f.type),
    ("createable", .bool f.createable), ("updateable", .bool f.updateable),
    ("nillable", .bool f.nillable), ("defaultedOnCreate", .bool f.defaultedOnCreate),
    ("externalId", .bool f.externalId), ("referenceTo", .strings f.referenceTo),
    ("relationshipName", Json.ofString? f.relationshipName)]

def fieldType? (f : FieldDescription) : Option FieldType :=
  FieldType.ofName? f.type

def isRequired (f : FieldDescription) : Bool :=
  f.createable && !f.nillable && !f.defaultedOnCreate

end FieldDescription

/-- The description of a relationship from child records. -/
structure ChildDescription where
  table : String
  field : String
  relationshipName : Option String
  cascadeDelete : Bool

namespace ChildDescription

def decode : Decoder ChildDescription := fun d => do
  let f ← Fields.read? ["childSObject", "field", "relationshipName", "cascadeDelete"] d
  return {
    table := ← f.required "childSObject" .string
    field := ← f.required "field" .string
    relationshipName := ← f.nullable "relationshipName" .string
    cascadeDelete := ← f.defaulted "cascadeDelete" .bool false }

def toJson (c : ChildDescription) : Json :=
  .object [("childSObject", .str c.table), ("field", .str c.field),
    ("relationshipName", Json.ofString? c.relationshipName),
    ("cascadeDelete", .bool c.cascadeDelete)]

end ChildDescription

structure Description where
  name : String
  label : String
  labelPlural : Option String
  keyPrefix : Option String
  custom : Bool
  createable : Bool
  updateable : Bool
  deletable : Bool
  queryable : Bool
  fields : List FieldDescription
  childRelationships : List ChildDescription

namespace Description

def decode : Decoder Description := fun d => do
  let f ← Fields.read? ["name", "label", "labelPlural", "keyPrefix", "custom", "createable",
    "updateable", "deletable", "queryable", "fields", "childRelationships"] d
  return {
    name := ← f.required "name" .string
    label := ← f.required "label" .string
    labelPlural := ← f.nullable "labelPlural" .string
    keyPrefix := ← f.nullable "keyPrefix" .string
    custom := ← f.defaulted "custom" .bool false
    createable := ← f.defaulted "createable" .bool false
    updateable := ← f.defaulted "updateable" .bool false
    deletable := ← f.defaulted "deletable" .bool false
    queryable := ← f.defaulted "queryable" .bool false
    fields := ← f.required "fields" (.list FieldDescription.decode)
    childRelationships := ← f.defaulted "childRelationships" (.list ChildDescription.decode) [] }

def toJson (t : Description) : Json :=
  .object [("name", .str t.name), ("label", .str t.label),
    ("labelPlural", Json.ofString? t.labelPlural), ("keyPrefix", Json.ofString? t.keyPrefix),
    ("custom", .bool t.custom), ("createable", .bool t.createable),
    ("updateable", .bool t.updateable), ("deletable", .bool t.deletable),
    ("queryable", .bool t.queryable), ("fields", .arr (t.fields.map FieldDescription.toJson)),
    ("childRelationships", .arr (t.childRelationships.map ChildDescription.toJson))]

/-- The first field with a name, in any case. -/
def field? (t : Description) (name : String) : Option FieldDescription :=
  t.fields.find? (Text.equalsIgnoringCase ·.name name)

def externalIdFields (t : Description) : List FieldDescription :=
  t.fields.filter (·.externalId)

end Description

end OrgClient.Org
