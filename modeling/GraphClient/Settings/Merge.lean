import GraphClient.Value.Iteration

/-!
# Merging settings

`Merge.values` lays one value over another: maps are merged key by key at any depth, everything
else is replaced. `Value.mergedWith` is the same for values of which nothing is known; it fails
on those that cannot be merged.
-/

namespace GraphClient

namespace Merge

mutual

/-- A value laid over another one. -/
def values (base : Value) : Value → Value
  | .map changes =>
    match base with
    | .map entries => .map (tables entries changes)
    | _ => .map changes
  | v => v

/-- The entries of a map laid over those of another one. Keys keep their place, new ones go to the
end. -/
def tables (entries : List (Value × Value)) : List (Value × Value) → List (Value × Value)
  | [] => entries
  | (k, v) :: changes =>
    let merged := match Pairs.get? k entries with
      | some old => values old v
      | none => v
    tables (Pairs.set k merged entries) changes

end

/-- The place in a list of the given length that a key names; negative ones count from the end. -/
def position (length : Nat) (key : Value) : Except Failure Nat :=
  let place (n : Int) : Except Failure Nat :=
    let i := if n < 0 then n + length else n
    if 0 ≤ i ∧ i < length then .ok i.toNat else .error (.misuse .index "index out of range")
  match key with
  | .int n => place n
  | .bool b => place b.toInt
  | _ => .error (.misuse .type
      ("list indices must be integers or slices, not " ++ key.typeName))

/-- Entries laid over the items of a list, each key naming a place. An item is merged only if the
key is also one of the items. -/
def items (members : List Value) : List (Value × Value) → Except Failure (List Value)
  | [] => .ok members
  | (k, v) :: changes =>
    match position members.length k with
    | .error e => .error e
    | .ok i =>
      let merged := if members.contains k then values (members.getD i .null) v else v
      items (members.set i merged) changes

end Merge

/-- One value laid over another; the outermost ones have to be collections that can be copied and
a map. -/
def Value.mergedWith (base changes : Value) : Except Failure Value :=
  match base with
  | .map entries => changes.entries.map fun c => .map (Merge.tables entries c)
  | .list members => changes.entries.bind fun c => (Merge.items members c).map .list
  | .set members =>
    changes.entries.bind fun
      | [] => .ok (.set members)
      | _ => .error (.misuse .type "'set' object does not support item assignment")
  | _ => .error (.misuse .attribute ("'" ++ base.typeName ++ "' object has no attribute 'copy'"))

end GraphClient
