import OrgClient.Json.Decode

namespace OrgClient.Schema

inductive FieldType where
  | date
  | datetime
  | boolean
  | double
  | integer
  | currency
  | reference
  | string
  | picklist
  | textarea
  | address
  | phone
  | url
  | multipicklist
  | percent
  | email
  | int
  | location
  | id
  | base64
  | anytype
  | time
  | encryptedstring
  | combobox
  deriving DecidableEq, Repr

namespace FieldType

def all : List FieldType :=
  [.date, .datetime, .boolean, .double, .integer, .currency, .reference, .string, .picklist,
    .textarea, .address, .phone, .url, .multipicklist, .percent, .email, .int, .location, .id,
    .base64, .anytype, .time, .encryptedstring, .combobox]

def name : FieldType → String
  | .date => "date"
  | .datetime => "datetime"
  | .boolean => "boolean"
  | .double => "double"
  | .integer => "integer"
  | .currency => "currency"
  | .reference => "reference"
  | .string => "string"
  | .picklist => "picklist"
  | .textarea => "textarea"
  | .address => "address"
  | .phone => "phone"
  | .url => "url"
  | .multipicklist => "multipicklist"
  | .percent => "percent"
  | .email => "email"
  | .int => "int"
  | .location => "location"
  | .id => "id"
  | .base64 => "base64"
  | .anytype => "anytype"
  | .time => "time"
  | .encryptedstring => "encryptedstring"
  | .combobox => "combobox"

def ofName? (name : String) : Option FieldType :=
  all.find? (·.name == name)

/-- Reads the name of a type, given as a text or as the only key of an object that holds null. -/
def decode : Json.Decoder FieldType
  | .str name => ofName? name
  | .obj [(some name, .null)] => ofName? name
  | _ => none

/-- Compound values can be read but not written. -/
def isCompound : FieldType → Bool
  | .address | .location => true
  | _ => false

end FieldType

end OrgClient.Schema
