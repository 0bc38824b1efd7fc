import OrgClient.Client.Connection
import OrgClient.Http.Session

namespace OrgClient.Connection

open Http (Call Request Response)
open Json (Decoder)

variable {α : Type}

def request (c : Connection) (method : Http.Method) (url : String) : Request :=
  { method, url, token := some c.token }

def keepUsage (c : Connection) (r : Response) : StateM Http.Session Unit :=
  match r.usage? with
  | none => pure ()
  | some u => do
    c.config.note .debug "API usage" [("used", .count u.used), ("limit", .count u.limit)]
    modify fun s => { s with usage := some u }

def execute (c : Connection) (r : Request) : Call Response := do
  let response ← c.config.execute r
  c.keepUsage response
  return response

def sendJson (c : Connection) (d : Decoder α) (r : Request) : Call α := do
  (← c.execute r).json d

def getJson (c : Connection) (d : Decoder α) (path : String) : Call α :=
  c.sendJson d (c.request .get (c.url path))

def submitJson (c : Connection) (method : Http.Method) (d : Decoder α) (path : String)
    (body : Json) : Call α :=
  c.sendJson d ((c.request method (c.url path)).json body)

def restGet (c : Connection) (d : Decoder α) (path : String) : Call α :=
  c.getJson d (c.restUrl path)

def restSubmit (c : Connection) (method : Http.Method) (d : Decoder α) (path : String)
    (body : Json) : Call α :=
  c.submitJson method d (c.restUrl path) body

end OrgClient.Connection
