import OrgClient.Client.Connection

namespace OrgClient

open Text

/-- The values of environment variables. -/
abbrev Environment := String → Option String

namespace Environment

/-- The first value under some names that is not blank. -/
def first? (env : Environment) (names : List String) : Option String :=
  (names.filterMap env).find? (!isBlankText ·)

def required (env : Environment) (names : List String) : Except Http.Error String :=
  match env.first? names with
  | some value => .ok value
  | none => .error (.of (.config (names.headD "" ++ " is not set")))

def connection (env : Environment) : Except Http.Error Connection := do
  let url ← env.required ["SF_INSTANCE_URL", "SALESFORCE_INSTANCE_URL"]
  let token ← env.required ["SF_ACCESS_TOKEN", "SALESFORCE_ACCESS_TOKEN"]
  let c ← Connection.toInstance url token {}
  match env.first? ["SF_API_VERSION", "SALESFORCE_API_VERSION"] with
  | some version => return c.withVersion version
  | none => return c

end Environment

end OrgClient
