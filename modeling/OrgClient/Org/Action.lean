import OrgClient.Record.Result

namespace OrgClient.Org

open Json (Decoder Fields)
open Record (Refusal)

/-- The outcome of an action for one input. -/
structure ActionResult where
  actionName : String
  errors : Option (List Refusal)
  isSuccess : Bool
  outputValues : Option Json

namespace ActionResult

def decode : Decoder ActionResult := fun d => do
  let f ← Fields.read? ["actionName", "errors", "isSuccess", "outputValues"] d
  return {
    actionName := ← f.required "actionName" .string
    errors := ← f.defaulted "errors" (.option (.list Refusal.decode)) none
    isSuccess := ← f.required "isSuccess" .bool
    outputValues := ← f.nullable "outputValues" .value }

def toJson (r : ActionResult) : Json :=
  .object [("actionName", .str r.actionName),
    ("errors",
      match r.errors with
      | none => .null
      | some es => .arr (es.map Refusal.toJson)),
    ("isSuccess", .bool r.isSuccess), ("outputValues", r.outputValues.getD .null)]

end ActionResult

/-- The content of a call of an action, if all inputs have a form in JSON. -/
def actionInputs {ι : Type} [Json.Serialize ι] (inputs : List ι) : Except String Json := do
  return .object [("inputs", .arr (← inputs.mapM Json.Serialize.serialize))]

end OrgClient.Org
