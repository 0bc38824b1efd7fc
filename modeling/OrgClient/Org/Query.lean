import OrgClient.Json.Decode

namespace OrgClient.Org

open Json (Decoder Fields)

variable {α : Type}

structure Page (α : Type) where
  totalSize : Nat
  done : Bool
  nextUrl : Option String
  records : List α
  deriving DecidableEq

namespace Page

def decode (row : Decoder α) : Decoder (Page α) := fun d => do
  let f ← Fields.read? ["totalSize", "done", "nextRecordsUrl", "records"] d
  return {
    totalSize := ← f.required "totalSize" .uint64
    done := ← f.required "done" .bool
    nextUrl := ← f.defaulted "nextRecordsUrl" (.option .string) none
    records := ← f.required "records" (.list row) }

def toJson (row : α → Json) (p : Page α) : Json :=
  .object [("totalSize", .int p.totalSize), ("done", .bool p.done),
    ("nextRecordsUrl", Json.ofString? p.nextUrl), ("records", .arr (p.records.map row))]

/-- Where the next page is, if the query is not done. -/
def next? (p : Page α) : Option String :=
  if p.done then none else p.nextUrl

end Page

structure SearchResult (α : Type) where
  records : List α

namespace SearchResult

def decode (row : Decoder α) : Decoder (SearchResult α) := fun d => do
  let f ← Fields.read? ["searchRecords"] d
  return { records := ← f.required "searchRecords" (.list row) }

def toJson (row : α → Json) (r : SearchResult α) : Json :=
  .object [("searchRecords", .arr (r.records.map row))]

end SearchResult

end OrgClient.Org
