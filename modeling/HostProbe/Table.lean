/-!
Tables: associations from text keys to values, kept strictly increasing in the code point order
of the keys. Writing a key again replaces its value.
-/

namespace HostProbe

abbrev Table (α : Type) := List (String × α)

namespace Table

variable {α : Type}

/-- Writes a key at its place in the order. -/
def insert (key : String) (value : α) : Table α → Table α
  | [] => [(key, value)]
  | (k, v) :: t =>
    if key = k then (key, value) :: t
    else if key < k then (key, value) :: (k, v) :: t
    else (k, v) :: insert key value t

/-- The value under a key. -/
def find? (key : String) : Table α → Option α
  | [] => none
  | (k, v) :: t => if key = k then some v else find? key t

/-- Writes the pairs one after another, so the last of several pairs with one key stays. -/
def insertAll (t : Table α) (pairs : List (String × α)) : Table α :=
  pairs.foldl (fun t (key, value) => insert key value t) t

def ofPairs (pairs : List (String × α)) : Table α := insertAll [] pairs

def keys (t : Table α) : List String := t.map Prod.fst

end Table

end HostProbe
