import OrgClient.Http.Config
import OrgClient.Text.Blank
import OrgClient.Text.Shown
import OrgClient.Url.Parser

namespace OrgClient

open Text

structure Connection where
  instanceUrl : String
  token : String
  version : String
  config : Http.Config

namespace Connection

/-- The version of the API that is used if no other is asked for. -/
def defaultVersion : String := "62.0"

def dropEndSlashes (s : String) : String :=
  String.ofList (dropEndWhile (· == '/') s.toList)

/-- Drops a character at the start of a text as often as it is there. -/
def dropStart (c : Char) (s : String) : String :=
  String.ofList (s.toList.dropWhile (· == c))

/-- A connection to the org at a URL, which has to be one of HTTP. -/
def toInstance (url token : String) (config : Http.Config) : Except Http.Error Connection :=
  let instanceUrl := dropEndSlashes url
  match Url.parse instanceUrl with
  | .error d => .error (.causedBy (.invalidUrl d.message))
  | .ok u =>
    if u.scheme ≠ "http" ∧ u.scheme ≠ "https" then
      .error (.of (.invalidUrl ("unsupported scheme '" ++ u.scheme ++ "' in instance URL")))
    else config.checked.map fun config => ⟨instanceUrl, token, defaultVersion, config⟩

/-- Asks for a version of the API, with or without a leading `v`. -/
def withVersion (c : Connection) (version : String) : Connection :=
  { c with version := dropStart 'v' version }

/-- The URL of a path; a whole URL stands for itself. -/
def url (c : Connection) (path : String) : String :=
  if startsWith path "http://" || startsWith path "https://" then path
  else if startsWith path "/" then c.instanceUrl ++ path
  else c.instanceUrl ++ "/" ++ path

/-- The URL of a resource of the REST API. -/
def restUrl (c : Connection) (path : String) : String :=
  c.instanceUrl ++ "/services/data/v" ++ c.version ++ "/" ++ dropStart '/' path

/-- A description of a connection that does not tell its token. -/
def description (c : Connection) : String :=
  "SalesforceClient \x7b instance_url: " ++ shown c.instanceUrl
    ++ ", access_token: " ++ shown "[REDACTED]" ++ ", api_version: " ++ shown c.version
    ++ ", .. \x7d"

end Connection

end OrgClient
