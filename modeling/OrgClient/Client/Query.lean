import OrgClient.Client.Work
import OrgClient.Org.Query
import OrgClient.Record.Type
import OrgClient.Schema.Resolver
import OrgClient.Text.Percent

namespace OrgClient.Connection

open Json (Decoder)
open Org (Page SearchResult)

variable {κ α : Type}

/-- The URL of a resource that is asked with a text. -/
def askUrl (c : Connection) (resource text : String) : String :=
  c.restUrl (resource ++ "?q=" ++ Text.encodeComponent text)

/-- The first page of a query. -/
def query (c : Connection) (row : Decoder α) (soql : String) : Work (Page α) :=
  .ofCall (c.getJson (Page.decode row) (c.askUrl "query" soql))

/-- The first page of a query that also finds deleted records. -/
def queryIncludingDeleted (c : Connection) (row : Decoder α) (soql : String) : Work (Page α) :=
  .ofCall (c.getJson (Page.decode row) (c.askUrl "queryAll" soql))

def queryMore (c : Connection) (row : Decoder α) (url : String) : Work (Page α) :=
  .ofCall (c.getJson (Page.decode row) url)

/-- The rows of a page and of the pages behind it, of which no more than a number are read. -/
def followPages (c : Connection) (row : Decoder α) : Nat → Page α → Work (List α)
  | 0, page => pure page.records
  | pages + 1, page =>
    match page.next? with
    | none => pure page.records
    | some url => do
      let next ← c.queryMore row url
      Work.note .debug "Fetched query page"
        [("fetched", .count next.records.length), ("total", .count next.totalSize)]
      return page.records ++ (← c.followPages row pages next)

/-- The rows of all pages of a query. A page takes an answer from the script of the network, and
behind its end there are only failures, so its length bounds the number of pages. -/
def queryAll (c : Connection) (row : Decoder α) (soql : String) : Work (List α) := do
  let first ← c.query row soql
  let session ← (get : StateM Http.Session Http.Session)
  c.followPages row (session.network.script.length + 1) first

def queryRows (c : Connection) (row : Decoder α) (q : Soql.Query) : Work (List α) := do
  c.queryAll row (← Work.ofQuery q.composeIn)

/-- The records of a type that a query finds, with the clauses that `build` gives. -/
def retrieve (c : Connection) (T : RecordType κ α)
    (build : Schema.Resolver κ → ExceptT Soql.Error (StateM Http.Session) Soql.Clauses) :
    Work (List α) := do
  let soql ← Work.ofQuery (do (← Schema.Resolver.query T.schema T.key build).composeIn)
  Work.note .debug "Retrieving records" []
  c.queryAll T.decode soql

def search (c : Connection) (row : Decoder α) (sosl : String) : Work (SearchResult α) :=
  .ofCall (c.getJson (SearchResult.decode row) (c.askUrl "search" sosl))

end OrgClient.Connection
