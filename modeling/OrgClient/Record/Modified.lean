namespace OrgClient.Record

/-- A set of properties, listed in increasing order. -/
structure Modified where
  properties : List String
  deriving DecidableEq, Repr, Inhabited

namespace Modified

def empty : Modified :=
  ⟨[]⟩

def insertOrdered (p : String) : List String → List String
  | [] => [p]
  | q :: qs =>
    if p < q then p :: q :: qs else if p = q then q :: qs else q :: insertOrdered p qs

def mark (m : Modified) (property : String) : Modified :=
  ⟨insertOrdered property m.properties⟩

def contains (m : Modified) (property : String) : Bool :=
  m.properties.contains property

def size (m : Modified) : Nat :=
  m.properties.length

/-- Whether there is no property. -/
def isEmpty (m : Modified) : Bool :=
  m.properties.isEmpty

def ofList (ps : List String) : Modified :=
  ps.foldl mark empty

end Modified

end OrgClient.Record
