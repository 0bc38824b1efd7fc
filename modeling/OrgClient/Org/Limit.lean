import OrgClient.Json.Decode

namespace OrgClient.Org

open Json (Decoder Fields)

structure Limit where
  max : Int
  remaining : Int
  deriving DecidableEq, Repr

namespace Limit

def decode : Decoder Limit := fun d => do
  let f ← Fields.read? ["Max", "Remaining"] d
  return {
    max := ← f.required "Max" .int64
    remaining := ← f.required "Remaining" .int64 }

def toJson (l : Limit) : Json :=
  .object [("Max", .int l.max), ("Remaining", .int l.remaining)]

def used (l : Limit) : Int :=
  l.max - l.remaining

end Limit

abbrev Limits := Members Limit

def Limits.decode : Decoder Limits :=
  .members Limit.decode

def Limits.toJson (ls : Limits) : Json :=
  .obj (ls.map fun l => (l.1, l.2.toJson))

end OrgClient.Org
