import OrgClient.Client.Call
import OrgClient.Error
import OrgClient.Soql.Trace

namespace OrgClient

/-- Work in a session, which may fail. -/
abbrev Work := ExceptT Error (StateM Http.Session)

namespace Work

variable {α : Type}

def ofCall (call : Http.Call α) : Work α :=
  call.adapt Error.ofHttp

def ofQuery (q : ExceptT Soql.Error (StateM Http.Session) α) : Work α :=
  q.adapt Error.ofQuery

def note (level : Http.Level) (message : String) (data : List (String × Http.Datum)) : Work Unit :=
  ExceptT.lift (Http.note level message data)

end Work

instance : Soql.Tracer (StateM Http.Session) where
  composed texts := texts.forM fun _ => Http.note .trace "composed query" []

end OrgClient
