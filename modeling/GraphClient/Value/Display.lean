import GraphClient.Decimal.Layout
import GraphClient.Text.Quoted
import GraphClient.Value.Basic

/-!
# Values as text

`Value.display` is a value as it stands alone, a text being itself; `Value.shown` is the value
inside another one, where texts are quoted.
-/

namespace GraphClient.Value

/-- A truth value as text. -/
def boolText (b : Bool) : String := if b then "True" else "False"

mutual

/-- A value as part of another one. -/
def shown : Value → String
  | null => "None"
  | bool b => boolText b
  | int n => toString n
  | float x => Decimal.Layout.plain.write x
  | text s => Text.quoted s
  | bytes data => Text.quotedBytes data
  | list items => "[" ++ shownItems items ++ "]"
  | tuple [item] => "(" ++ shown item ++ ",)"
  | tuple items => "(" ++ shownItems items ++ ")"
  | set [] => "set()"
  | set (item :: items) => "\x7b" ++ shownItems (item :: items) ++ "\x7d"
  | map entries => "\x7b" ++ shownEntries entries ++ "\x7d"
  | path p => "PosixPath(" ++ Text.quoted p ++ ")"
  | foreign _ label => label
  | deferred .. | stepped .. | failing _ => "<function>"
  | field signature => "FieldBuilder(signature=" ++ Text.quoted signature ++ ")"

/-- Items with commas between them. -/
def shownItems : List Value → String
  | [] => ""
  | [item] => shown item
  | item :: items => shown item ++ ", " ++ shownItems items

/-- Entries with commas between them, a colon after each key. -/
def shownEntries : List (Value × Value) → String
  | [] => ""
  | [(k, v)] => shown k ++ ": " ++ shown v
  | (k, v) :: entries => shown k ++ ": " ++ shown v ++ ", " ++ shownEntries entries

end

/-- A value on its own: a text or a path is itself, anything else as inside another value. -/
def display : Value → String
  | text s => s
  | path p => p
  | v => v.shown

end GraphClient.Value
