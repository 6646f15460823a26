import GraphClient.Selection.Field

/-!
# Operations

An operation is a name, declarations of variables and a selection. `Operation.build` writes one
from a schema, a map in which the key `"$"` holds the declarations and every other key is a
selected field.
-/

namespace GraphClient

/-- The kinds of operations. -/
inductive OperationType where
  | query | mutation
deriving DecidableEq, Inhabited

namespace OperationType

/-- The keyword of a kind of operation. -/
def keyword : OperationType → String
  | query => "query"
  | mutation => "mutation"

/-- The kind that a keyword stands for. -/
def ofKeyword? (s : String) : Option OperationType :=
  if s = "query" then some query else if s = "mutation" then some mutation else none

/-- An operation with its keyword in front. -/
def withKeyword (t : OperationType) (operation : String) : String := t.keyword ++ " " ++ operation

end OperationType

namespace Variables

/-- A text without the dollar signs it starts with. -/
def withoutMarks (s : String) : String := String.ofList (s.toList.dropWhile (· = '$'))

/-- One declaration of a variable. -/
def declare (name type : Value) (i : Nat) : Except Failure String :=
  match name with
  | .text s =>
    .ok (Selection.separator i ++ "$" ++ withoutMarks s ++ ":" ++ type.display)
  | .bytes _ => .error (.misuse .type "a bytes-like object is required, not 'str'")
  | v => .error (.misuse .attribute ("'" ++ v.typeName ++ "' object has no attribute 'lstrip'"))

/-- The declarations of a table of variables, in brackets. -/
def renderTable (table : List (Value × Value)) : Except Failure String :=
  (Selection.joinEntries declare table).map FieldBuilder.inBrackets

/-- The declarations of a map of variables, in brackets. -/
def render (vars : Value) : Except Failure String := vars.entries.bind renderTable

end Variables

namespace Operation

/-- The key of a schema that holds the declarations of variables. -/
def variablesKey : String := "$"

/-- Whether a key of a schema is the key of the declarations. -/
def isVariablesKey (k : Value) : Bool := Value.text variablesKey == k

/-- The table of variables that a schema declares. -/
def declared (schema : List (Value × Value)) : Except Failure (List (Value × Value)) := do
  let given := (Value.lookup? variablesKey schema).getD .null
  if ← given.decideTruth then given.toTable else return []

/-- The selected fields of a schema. -/
def selected (schema : List (Value × Value)) : List (Value × Value) :=
  schema.filter fun (k, _) => !isVariablesKey k

/-- The name of an operation as text: nothing when there is none. -/
def nameText (name : Value) : Except Failure String := do
  return if ← name.decideTruth then name.display else ""

/-- The operation of a schema, without its keyword. -/
def build (schema name : Value) : Recording String := do
  let .map entries := schema
    | throw (.failure (.misuse .attribute
        ("'" ++ schema.typeName ++ "' object has no attribute 'get'")))
  let vars ← Recording.ofExcept (declared entries)
  let name ← Recording.ofExcept (nameText name)
  let declarations ← Recording.ofExcept (Variables.renderTable vars)
  let fields ← Selection.render (.map (selected entries))
  return name ++ declarations ++ fields

end Operation

end GraphClient
