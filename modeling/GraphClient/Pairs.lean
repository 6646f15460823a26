/-!
# Tables in insertion order

A table is a list of pairs. Setting a key that is present keeps its place and changes its value;
a new key goes to the end.
-/

namespace GraphClient.Pairs

variable {κ α : Type} [BEq κ]

/-- The value of a key. -/
def get? (k : κ) : List (κ × α) → Option α
  | [] => none
  | (k', v) :: rest => if k' == k then some v else get? k rest

def contains (k : κ) (table : List (κ × α)) : Bool := (get? k table).isSome

/-- Gives a key a value. -/
def set (k : κ) (v : α) : List (κ × α) → List (κ × α)
  | [] => [(k, v)]
  | (k', v') :: rest => if k' == k then (k', v) :: rest else (k', v') :: set k v rest

/-- Removes a key. -/
def erase (k : κ) : List (κ × α) → List (κ × α)
  | [] => []
  | (k', v') :: rest => if k' == k then rest else (k', v') :: erase k rest

/-- Sets every pair of the second table in the first, in order. -/
def merge (table changes : List (κ × α)) : List (κ × α) :=
  changes.foldl (fun t p => set p.1 p.2 t) table

/-- The table of a list of pairs: the first place and the last value of a repeated key. -/
def ofList (pairs : List (κ × α)) : List (κ × α) := merge [] pairs

end GraphClient.Pairs
