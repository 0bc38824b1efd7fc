import OrgClient.Client.Work
import OrgClient.Org.Action
import OrgClient.Org.Describe
import OrgClient.Org.Limit
import OrgClient.Record.Type
import OrgClient.Text.Name

namespace OrgClient.Connection

variable {κ α : Type}

def limits (c : Connection) : Work Org.Limits :=
  .ofCall (c.restGet Org.Limits.decode "limits")

/-- Refuses texts that are no names. -/
def checkName (name : String) : Except Error Unit :=
  if Text.isName name then .ok () else .error (.of (.invalidName name))

def describeTable (c : Connection) (name : String) : Work Org.Description := do
  checkName name
  .ofCall (c.restGet Org.Description.decode ("sobjects/" ++ name ++ "/describe"))

def describe (c : Connection) (T : RecordType κ α) : Work Org.Description :=
  c.describeTable T.name

/-- Calls an action once for each input. -/
def invoke {ι : Type} [Json.Serialize ι] (c : Connection) (action : String) (inputs : List ι) :
    Work (List Org.ActionResult) := do
  checkName action
  .ofCall do
    let body ← (Org.actionInputs inputs).mapError fun text => Http.Error.causedBy (.json text)
    c.restSubmit .post (.list Org.ActionResult.decode) ("actions/custom/apex/" ++ action) body

end OrgClient.Connection
