namespace OrgClient

/-- Values under distinct keys, in increasing order of the keys. -/
abbrev Members (α : Type) := List (String × α)

namespace Members

variable {α : Type}

def get? (ms : Members α) (key : String) : Option α :=
  ms.lookup key

def has (ms : Members α) (key : String) : Bool :=
  (ms.get? key).isSome

/-- Puts a value under a key, in place of the one that was there. -/
def insert (key : String) (value : α) : Members α → Members α
  | [] => [(key, value)]
  | (k, v) :: ms =>
    if key < k then (key, value) :: (k, v) :: ms
    else if key = k then (key, value) :: ms
    else (k, v) :: insert key value ms

def erase (key : String) (ms : Members α) : Members α :=
  ms.filter (·.1 ≠ key)

/-- The members of a list of pairs, of which the last under a key counts. -/
def ofList (ps : List (String × α)) : Members α :=
  ps.foldl (fun ms p => insert p.1 p.2 ms) []

end Members

end OrgClient
