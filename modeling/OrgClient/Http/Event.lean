import OrgClient.Json.Value

namespace OrgClient.Http

inductive Level where
  | trace
  | debug
  | info
  | warn
  deriving DecidableEq, Repr

def Level.text : Level → String
  | .trace => "TRACE"
  | .debug => "DEBUG"
  | .info => "INFO"
  | .warn => "WARN"

inductive Datum where
  | flag (b : Bool)
  | count (n : Nat)
  | text (s : String)
  deriving DecidableEq, Repr

def Datum.toJson : Datum → Json
  | .flag b => .bool b
  | .count n => .int n
  | .text s => .str s

structure Event where
  level : Level
  message : String
  data : List (String × Datum)
  deriving DecidableEq, Repr

def Event.toJson (e : Event) : Json :=
  .object [("level", .str e.level.text), ("message", .str e.message),
    ("fields", .object (e.data.map fun d => (d.1, d.2.toJson)))]

end OrgClient.Http
