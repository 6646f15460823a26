import GraphClient.Failure.Basic

/-!
# Walking through values

`Value.items` lists what a collection holds: a map its keys, a text its characters, bytes their
numbers. `Value.toTable` reads a collection of pairs as a table, and a map as itself.
-/

namespace GraphClient.Value

/-- The items of a collection; other values have none to walk through. -/
def items? : Value → Option (List Value)
  | list items | tuple items | set items => some items
  | map entries => some (entries.map (·.1))
  | text s => some (s.toList.map fun c => text (String.singleton c))
  | bytes data => some (data.map fun b => int b.toNat)
  | _ => none

/-- The items of a collection, or the failure of walking through something else. -/
def items (v : Value) : Except Failure (List Value) :=
  match v.items? with
  | some items => .ok items
  | none => .error (.misuse .type ("'" ++ v.typeName ++ "' object is not iterable"))

/-- The collection of two items at a position as a pair whose first part can be a key. -/
def toPair (position : Nat) (v : Value) : Except Failure (Value × Value) :=
  match v.items? with
  | none => .error (.misuse .type ("cannot convert dictionary update sequence element #"
      ++ toString position ++ " to a sequence"))
  | some [k, x] =>
    if k.isKey then .ok (k, x)
    else .error (.misuse .type ("unhashable type: '" ++ k.typeName ++ "'"))
  | some items => .error (.misuse .value ("dictionary update sequence element #"
      ++ toString position ++ " has length " ++ toString items.length ++ "; 2 is required"))

/-- Sets the pairs from a position on in a table one by one. -/
def setPairs (table : List (Value × Value)) (position : Nat) :
    List Value → Except Failure (List (Value × Value))
  | [] => .ok table
  | item :: rest =>
    match item.toPair position with
    | .error e => .error e
    | .ok (k, v) => setPairs (Pairs.set k v table) (position + 1) rest

/-- A map as a table, or the table of a collection of pairs. -/
def toTable : Value → Except Failure (List (Value × Value))
  | map entries => .ok entries
  | v =>
    match v.items with
    | .error e => .error e
    | .ok items => setPairs [] 0 items

/-- The truth of a value, or the failure of asking one that has none. -/
def decideTruth (v : Value) : Except Failure Bool :=
  match v.truth with
  | .holds => .ok true
  | .fails => .ok false
  | .undecided => .error (.misuse .value "truth value is ambiguous")

/-- The entries of a map, or the failure of asking another value for them. -/
def entries (v : Value) : Except Failure (List (Value × Value)) :=
  match v with
  | map entries => .ok entries
  | _ => .error (.misuse .attribute ("'" ++ v.typeName ++ "' object has no attribute 'items'"))

end GraphClient.Value
