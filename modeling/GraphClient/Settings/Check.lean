import GraphClient.Decimal.Numeral
import GraphClient.Failure.Basic

/-!
# Checking settings

The lenient rules by which a value becomes a number, a truth value, a text or a path. Each rule
either gives the value of the setting or names what it demands. `Checked` collects the violations
of all settings of a group in order.
-/

namespace GraphClient

/-- The violations found so far, and the value if there is one. -/
structure Checked (α : Type) where
  violations : List Violation
  value? : Option α

namespace Checked

variable {α β : Type}

instance : Functor Checked := ⟨fun f c => ⟨c.violations, c.value?.map f⟩, fun a c =>
  ⟨c.violations, c.value?.map fun _ => a⟩⟩

instance : Applicative Checked where
  pure a := ⟨[], some a⟩
  seq f c := let c := c (); ⟨f.violations ++ c.violations, f.value?.bind fun f => c.value?.map f⟩

/-- Adds violations that no value of the group stands for. -/
def also (c : Checked α) (violations : List Violation) : Checked α :=
  ⟨c.violations ++ violations, c.value?⟩

/-- The value, if nothing is violated. -/
def toExcept (c : Checked α) : Except (List Violation) α :=
  match c.violations, c.value? with
  | [], some a => .ok a
  | violations, _ => .error violations

/-- The same violations one level further out. -/
def within (outer : Value) (c : Except (List Violation) α) : Checked α :=
  match c with
  | .ok a => ⟨[], some a⟩
  | .error violations => ⟨violations.map (·.within outer), none⟩

/-- A setting of a group: its value is checked if it is given, otherwise the default stands. -/
def field (entries : List (Value × Value)) (name : String) (default? : Option α)
    (check : Value → Except (List Violation) α) : Checked α :=
  match Value.lookup? name entries, default? with
  | some v, _ => within (.text name) (check v)
  | none, some a => ⟨[], some a⟩
  | none, none => ⟨[⟨[.text name], .missing⟩], none⟩

end Checked

namespace Check

/-- The result of checking a value against a rule. -/
abbrev Result := Except Violation.Rule

/-- A broken rule as the only violation, at the value itself. -/
def here {α : Type} (check : Value → Result α) (v : Value) : Except (List Violation) α :=
  match check v with
  | .ok a => .ok a
  | .error rule => .error [⟨[], rule⟩]

/-- A text as a double: a decimal number or a special value in ASCII. -/
def floatOfText? (s : String) : Option Binary64 :=
  match Decimal.ungroup false (Text.trimBy Decimal.isNumeralBlank s.toList) with
  | none => none
  | some cs => (Decimal.decimalNumber? cs).orElse fun _ => Decimal.specialNumber? cs

/-- A number, a truth value or the text of a number. -/
def float : Value → Result Binary64
  | .float x => .ok x
  | .bool b => .ok (Binary64.ofInt b.toInt)
  | .int n =>
    match Binary64.ofInt n with
    | .infinite _ => .error .floatType
    | x => .ok x
  | .text s =>
    match floatOfText? s with
    | some x => .ok x
    | none => .error .floatParsing
  | _ => .error .floatType

/-- A double that is not below a bound; NaN is below every bound. -/
def floatFrom (bound : Int) (v : Value) : Result Binary64 :=
  match float v with
  | .error rule => .error rule
  | .ok .nan => .error .atLeast
  | .ok x => if x.ltInt bound then .error .atLeast else .ok x

/-- The text of a whole number without its fraction, which has zeros only and at least one. -/
def withoutZeroFraction (cs : List Char) : List Char :=
  let whole := cs.takeWhile (· ≠ '.')
  match cs.drop whole.length with
  | '.' :: zeros => if !zeros.isEmpty && zeros.all (· = '0') then whole else cs
  | _ => cs

/-- A text as a whole number in ASCII. -/
def intOfText? (s : String) : Option Int :=
  (Decimal.ungroup false
    (withoutZeroFraction (Text.trimBy Decimal.isNumeralBlank s.toList))).bind Decimal.wholeNumber?

/-- Whether an integer fits a signed word of 64 bits. -/
def isWord (n : Int) : Bool := -9223372036854775808 ≤ n && n < 9223372036854775808

/-- A whole number, a truth value, a double without fraction or the text of a whole number. -/
def int : Value → Result Int
  | .int n => .ok n
  | .bool b => .ok b.toInt
  | .float x =>
    if !x.isFinite then .error .finiteNumber
    else match x.toInt? with
      | some n => if isWord n then .ok n else .error .intFromFloat
      | none => .error .intFromFloat
  | .text s =>
    match intOfText? s with
    | some n => .ok n
    | none => .error .intParsing
  | _ => .error .intType

/-- A whole number that is not below a bound. -/
def intFrom (bound : Int) (v : Value) : Result Int :=
  match int v with
  | .error rule => .error rule
  | .ok n => if n < bound then .error .atLeast else .ok n

/-- The words for true, in lower case. -/
def trueWords : List String := ["1", "on", "t", "true", "y", "yes"]

/-- The words for false, in lower case. -/
def falseWords : List String := ["0", "off", "f", "false", "n", "no"]

/-- A word in any letter case as a truth value. -/
def boolOfText? (s : String) : Option Bool :=
  let word := String.ofList (s.toList.map Char.toLower)
  if word ∈ trueWords then some true else if word ∈ falseWords then some false else none

/-- Zero or one as a truth value. -/
def boolOfInt (n : Int) : Result Bool :=
  if n = 0 then .ok false else if n = 1 then .ok true
  else if isWord n then .error .boolParsing else .error .boolType

/-- A truth value, zero or one, or a word for one. -/
def bool : Value → Result Bool
  | .bool b => .ok b
  | .int n => boolOfInt n
  | .float x =>
    match x.toInt? with
    | some n => boolOfInt n
    | none => .error .boolType
  | .text s =>
    match boolOfText? s with
    | some b => .ok b
    | none => .error .boolParsing
  | _ => .error .boolType

/-- A text and nothing else. -/
def text : Value → Result String
  | .text s => .ok s
  | _ => .error .stringType

/-- A map whose keys are texts, every value checked by the same rule. Each entry is reported on
its own, the key before the value. -/
def mapOf {α : Type} (check : Value → Result α) :
    Value → Except (List Violation) (List (String × α))
  | .map entries => (entry entries).toExcept
  | _ => .error [⟨[], .dictType⟩]
where
  /-- Checks entry after entry. -/
  entry : List (Value × Value) → Checked (List (String × α))
    | [] => pure []
    | (k, v) :: rest =>
      let key : Checked String :=
        Checked.within k (Checked.within (.text "[key]") (here text k)).toExcept
      (fun k v rest => (k, v) :: rest) <$> key <*> Checked.within k (here check v) <*> entry rest

end Check

end GraphClient
