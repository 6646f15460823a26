import GraphClient.Binary64
import GraphClient.Failure.Fault
import GraphClient.Pairs

/-!
# Values

`Value` is the data that callers hand in and get back: selections, argument values, variables,
response data. Besides the usual data it has deferred values, which are computed when a selection
is rendered, and foreign values, of which only the text and the truth are known.

* `Value.truth` is the truth of a value; a foreign value may have none.
* `Value.sameKey` says when two values are the same key of a table: numbers by their number,
  whatever their form.
-/

namespace GraphClient

/-- What asking a value for its truth gives. -/
inductive Truth where
  | holds | fails | undecided
deriving DecidableEq, Inhabited

def Truth.ofBool (b : Bool) : Truth := if b then .holds else .fails

/-- A value of the caller. -/
inductive Value where
  | null
  | bool (b : Bool)
  | int (n : Int)
  | float (x : Binary64)
  | text (s : String)
  | bytes (data : List UInt8)
  | list (items : List Value)
  | tuple (items : List Value)
  | set (items : List Value)
  | map (entries : List (Value × Value))
  | path (p : String)
  /-- A value of which only the text and the truth are known. -/
  | foreign (truth : Truth) (text : String)
  /-- Computed on demand, the same value every time; a label is traced at each computation. -/
  | deferred (label : Option String) (result : Value)
  /-- Computed on demand: the first value the first time, and so on, the last one repeating. -/
  | stepped (slot : Nat) (results : List Value)
  /-- Computing it raises an error. -/
  | failing (error : Raise)
  /-- A field with an alias or arguments, known by its signature. -/
  | field (signature : String)
deriving Inhabited

namespace Value

/-- A table with texts as keys. -/
def ofPairs (pairs : List (String × Value)) : Value := map (pairs.map fun (k, v) => (text k, v))

def ofOption : Option String → Value
  | some s => text s
  | none => null

/-- Whether a value counts as true: numbers unless zero, collections unless empty. -/
def truth : Value → Truth
  | null => .fails
  | bool b => .ofBool b
  | int n => .ofBool (n != 0)
  | float x => .ofBool (!x.isZero)
  | text s => .ofBool (!s.isEmpty)
  | bytes data => .ofBool (!data.isEmpty)
  | list items | tuple items | set items => .ofBool (!items.isEmpty)
  | map entries => .ofBool (!entries.isEmpty)
  | foreign truth _ => truth
  | path _ | deferred .. | stepped .. | failing _ | field _ => .holds

def isTrue (v : Value) : Bool := v.truth == .holds

/-- The name of a value's type. -/
def typeName : Value → String
  | null => "NoneType"
  | bool _ => "bool"
  | int _ => "int"
  | float _ => "float"
  | text _ => "str"
  | bytes _ => "bytes"
  | list _ => "list"
  | tuple _ => "tuple"
  | set _ => "set"
  | map _ => "dict"
  | path _ => "PosixPath"
  | foreign .holds _ => "Opaque"
  | foreign .fails _ => "Falsy"
  | foreign .undecided _ => "Ambiguous"
  | deferred .. | stepped .. | failing _ => "function"
  | field _ => "FieldBuilder"

/-- Whether a value can be called. -/
def isCallable : Value → Bool
  | deferred .. | stepped .. | failing _ | field _ => true
  | _ => false

/-- A number in exact form: an integer, or a double that is none. -/
inductive Number where
  | whole (n : Int)
  | other (x : Binary64)

/-- The number that a value is; truth values are the numbers zero and one. -/
def number? : Value → Option Number
  | bool b => some (.whole b.toInt)
  | int n => some (.whole n)
  | float x => some (match x.toInt? with
    | some n => .whole n
    | none => .other x)
  | _ => none

/-- Whether two numbers are the same. -/
def Number.same : Number → Number → Bool
  | .whole a, .whole b => a == b
  | .other x, .other y => x.eqv y
  | _, _ => false

mutual

/-- Whether two values are the same key: numbers by value, texts, bytes and paths by content,
tuples item by item, everything else never. -/
def sameKey : Value → Value → Bool
  | null, null => true
  | text a, text b => a == b
  | bytes a, bytes b => a == b
  | path a, path b => a == b
  | tuple xs, tuple ys => sameKeys xs ys
  | a, b =>
    match a.number?, b.number? with
    | some m, some n => m.same n
    | _, _ => false

/-- `sameKey` item by item. -/
def sameKeys : List Value → List Value → Bool
  | [], [] => true
  | x :: xs, y :: ys => sameKey x y && sameKeys xs ys
  | _, _ => false

end

mutual

/-- Whether a value can be a key: lists, sets and maps cannot. -/
def isKey : Value → Bool
  | list _ | set _ | map _ => false
  | tuple items => areKeys items
  | _ => true

/-- Whether all items can be keys. -/
def areKeys : List Value → Bool
  | [] => true
  | x :: xs => isKey x && areKeys xs

end

/-- Values are compared as keys of tables. -/
instance : BEq Value := ⟨sameKey⟩

/-- The value of a text key. -/
def lookup? (key : String) (entries : List (Value × Value)) : Option Value :=
  Pairs.get? (text key) entries

end Value

end GraphClient
