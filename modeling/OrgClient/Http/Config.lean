import OrgClient.Http.Error
import OrgClient.Http.Header

namespace OrgClient.Http

/-- Settings of an HTTP client. Times are in milliseconds. -/
structure Config where
  timeout : Nat := 30000
  connectTimeout : Nat := 10000
  idleTimeout : Nat := 90000
  maxIdle : Nat := 10
  userAgent : String := "busbar-sf-typed/0.0.3"
  compression : Bool := true
  tracing : Bool := true
  deriving DecidableEq, Repr

/-- Settings that a client can work with; the name it gives itself has to fit a header. -/
def Config.checked (c : Config) : Except Error Config :=
  if isHeaderValue c.userAgent then .ok c else .error (.causedBy (.config "builder error"))

end OrgClient.Http
