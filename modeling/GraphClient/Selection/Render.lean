import GraphClient.Journal
import GraphClient.Value.Iteration

/-!
# Rendering selections

A selection is any value: texts are fields, lists are groups, maps are fields with selections
below them, deferred values stand for what they compute. `Selection.render` writes a selection in
compact form and records every deferred value it computes and every value it cannot render. The
items of a group and the entries of a map are rendered inside of a generator.
-/

namespace GraphClient

/-- The shapes of a selection. -/
inductive FieldKind where
  | string | empty | sequence | thunk | mapping | unsupported
deriving DecidableEq, Inhabited

/-- The name of a shape. -/
def FieldKind.name : FieldKind → String
  | string => "string"
  | empty => "empty"
  | sequence => "sequence"
  | thunk => "thunk"
  | mapping => "mapping"
  | unsupported => "unsupported"

namespace Selection

/-- Whether a value selects nothing: it counts as false or is not a number. -/
def isEmpty : Value → Bool
  | .float .nan => true
  | v => v.truth == .fails

/-- The shape of a selection. Lists are groups even when empty. -/
def kindOf (v : Value) : FieldKind :=
  match v with
  | .list _ | .tuple _ => .sequence
  | _ =>
    if isEmpty v then .empty
    else match v with
      | .text _ => .string
      | .map _ => .mapping
      | _ => if v.isCallable then .thunk else .unsupported

/-- Joins what each entry of a map becomes, in order. -/
def joinEntries (combine : Value → Value → Nat → Except Failure String)
    (entries : List (Value × Value)) : Except Failure String :=
  go 0 entries
where
  /-- Joins the entries from the given position on. -/
  go : Nat → List (Value × Value) → Except Failure String
  | _, [] => .ok ""
  | i, (k, v) :: rest =>
    match combine k v i with
    | .error e => .error e
    | .ok s => (go (i + 1) rest).map (s ++ ·)

/-- A comma before every entry but the first. -/
def separator (i : Nat) : String := if 0 < i then "," else ""

/-- Texts between braces. -/
def braces (body : String) : String := "\x7b" ++ body ++ "\x7d"

/-- The logger of selections. -/
def loggerName : String := "gql_fetch.query.serializer"

/-- Records a value that cannot be rendered. -/
def ignore (v : Value) : Recording String := do
  Recording.log ⟨10, loggerName, "Ignoring unsupported field descriptor of type " ++ v.typeName⟩
  return ""

/-- Traces the computation of a labelled deferred value. -/
def traceLabel : Option String → Recording Unit
  | some label => Recording.trace ("thunk:" ++ label)
  | none => pure ()

mutual

/-- A selection in compact form. -/
def render : Value → Recording String
  | .list items | .tuple items => do
    let texts ← (renderItems items).inGenerator
    return braces (",".intercalate (texts.filter (!·.isEmpty)))
  | .text s => return s
  | .map entries => do
    let body ← (renderEntries 0 entries).inGenerator
    return if body.isEmpty then "" else braces body
  | .deferred label result => do
    traceLabel label
    render result
  | .stepped slot results => do
    renderStep (← Recording.countUp slot) results
  | .failing error => throw error.toThrown
  | .field signature => return signature
  | v => if isEmpty v then return "" else ignore v

/-- The items of a group, one by one. -/
def renderItems : List Value → Recording (List String)
  | [] => return []
  | item :: items => do
    let s ← render item
    return s :: (← renderItems items)

/-- The entries of a map from the given position on: each key and the selection below it. -/
def renderEntries (i : Nat) : List (Value × Value) → Recording String
  | [] => return ""
  | (k, v) :: entries => do
    let s ← render v
    return separator i ++ k.display ++ s ++ (← renderEntries (i + 1) entries)

/-- The result with the given number, or the last one if there are fewer. -/
def renderStep : Nat → List Value → Recording String
  | _, [] => return ""
  | _, [v] => render v
  | 0, v :: _ => render v
  | n + 1, _ :: rest => renderStep n rest

end

end Selection

end GraphClient
