import GraphClient.Selection.Render

/-!
# Fields with an alias and arguments

`Arguments.render` writes an argument specification: a collection of names binds each argument to
the variable of the same name, a map gives values, `"$"` standing for the variable of the same
name. A `FieldBuilder` keeps an alias and arguments and the signature they make.
-/

namespace GraphClient

namespace Arguments

/-- The value that binds an argument to the variable of its name. -/
def bindMark : String := "$"

/-- A value as a literal of the query language; nested values are shown as values. -/
def literal : Value → String
  | .bool true => "true"
  | .bool false => "false"
  | .null => "null"
  | v => v.display

/-- One argument of a map. -/
def renderEntry (k v : Value) (i : Nat) : Except Failure String :=
  let name := k.display
  let lead := Selection.separator i ++ name ++ ":"
  match v with
  | .text s => .ok (lead ++ if s = bindMark then "$" ++ name else s)
  | v => .ok (lead ++ literal v)

/-- One argument bound to the variable of its name. -/
def renderName (v : Value) : String := v.display ++ ":$" ++ v.display

/-- An argument specification without its brackets. -/
def render (spec : Value) : Except Failure String := do
  if !(← spec.decideTruth) then return ""
  match spec with
  | .map entries => Selection.joinEntries renderEntry entries
  | .text _ => throw (.complaint .argumentsGivenAsText)
  | spec => return ",".intercalate ((← spec.items).map renderName)

end Arguments

/-- A field with an alias and arguments. -/
structure FieldBuilder where
  alias? : Option String
  arguments : Value
  signature : String

namespace FieldBuilder

/-- A text between round brackets, nothing if it is empty. -/
def inBrackets (s : String) : String := if s.isEmpty then "" else "(" ++ s ++ ")"

/-- The signature of an alias and rendered arguments. -/
def signatureOf (alias? : Option String) (arguments : String) : String :=
  (match alias? with
  | some a => if a.isEmpty then "" else ":" ++ a
  | none => "") ++ inBrackets arguments

/-- A builder of an alias and an argument specification, both as they should be. -/
def ofParts (alias? : Option String) (spec : Value) : Except Failure FieldBuilder :=
  (Arguments.render spec).map fun rendered => ⟨alias?, spec, signatureOf alias? rendered⟩

/-- A builder of an alias and an argument specification. An alias that is no text is taken as
the specification when none is given. -/
def make (name spec : Value) : Except Failure FieldBuilder :=
  match name with
  | .null => ofParts none spec
  | .text a => ofParts (some a) spec
  | other =>
    match spec with
    | .null => ofParts none other
    | _ => .error (.complaint (.aliasNotText other.typeName))

/-- A builder with an alias. -/
def aliased (name spec : Value) : Except Failure FieldBuilder := make name spec

/-- A builder with arguments only. -/
def withArguments (spec : Value) : Except Failure FieldBuilder := make .null spec

/-- The builder as a value of a selection. -/
def toValue (b : FieldBuilder) : Value := .field b.signature

/-- The field with a selection below it. -/
def render (b : FieldBuilder) (selection : Value) : Recording String := do
  return b.signature ++ (← Selection.render selection)

end FieldBuilder

end GraphClient
