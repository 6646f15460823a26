import GraphClient.Template.Directive
import GraphClient.Value.Conversion

/-!
# Filling templates

`Template.fill` writes values in place of the directives of a template. The arguments are the
items of a tuple in order, or one value; a value that can be asked for keys also serves the
directives that name one. Every argument has to be used, keys aside.
-/

namespace GraphClient

namespace Template

/-- Where the values of directives come from: the arguments not used yet, and the values of keys
where there are keys. -/
structure Source where
  pending : List Value
  entry? : Option (String → Except Failure Value)

/-- The value of a key in a collection. -/
def entryOf (v : Value) (key : String) : Except Failure Value :=
  match v with
  | .map entries =>
    match Value.lookup? key entries with
    | some x => .ok x
    | none => .error (.misuse .key (Text.quoted key))
  | _ => .error (.misuse .type ("'" ++ v.typeName ++ "' indices must be integers or slices"))

/-- The source that arguments are. -/
def Source.ofValue : Value → Source
  | .tuple items => ⟨items, none⟩
  | v@(.map _) | v@(.list _) | v@(.bytes _) => ⟨[v], some (entryOf v)⟩
  | v => ⟨[v], none⟩

/-- The next argument. -/
def takeArgument : List Value → Except Failure (Value × List Value)
  | v :: rest => .ok (v, rest)
  | [] => .error (.misuse .type "not enough arguments for format string")

/-! ## Widths and precisions -/

/-- The greatest width. -/
def widthLimit : Nat := 9223372036854775807

/-- The greatest precision. -/
def precisionLimit : Nat := 2147483647

/-- The number of an amount, below a limit. -/
def amountOf (limit : Nat) (pending : List Value) :
    Option Amount → Except Failure (Option Int × List Value)
  | none => .ok (none, pending)
  | some (.given n) =>
    if limit < n then .error (.misuse .value "number too big in format string")
    else .ok (some n, pending)
  | some .argument =>
    match takeArgument pending with
    | .error e => .error e
    | .ok (v, rest) =>
      let checked (n : Int) : Except Failure (Option Int × List Value) :=
        if n.natAbs ≤ limit then .ok (some n, rest)
        else .error (.misuse .overflow "number too big in format string")
      match v with
      | .int n => checked n
      | .bool b => checked b.toInt
      | _ => .error (.misuse .type "* wants int")

/-- How wide a value is written, and how precisely. -/
structure Measure where
  flags : Flags
  width : Nat
  precision? : Option Nat

/-- The measures of a directive. A negative width means the left side, a negative precision is
zero. -/
def measure (d : Directive) (pending : List Value) : Except Failure (Measure × List Value) :=
  match amountOf widthLimit pending d.width? with
  | .error e => .error e
  | .ok (width, pending) =>
    match amountOf precisionLimit pending d.precision? with
    | .error e => .error e
    | .ok (precision, pending) =>
      let width := width.getD 0
      .ok (⟨{ d.flags with left := d.flags.left || width < 0 }, width.natAbs,
        precision.map Int.toNat⟩, pending)

/-! ## Writing one value -/

/-- As many times a character as asked for. -/
def repeated (c : Char) (n : Nat) : String := String.ofList (List.replicate n c)

/-- A text, padded with spaces. -/
def Measure.padText (m : Measure) (s : String) : String :=
  let fill := repeated ' ' (m.width - s.length)
  if m.flags.left then s ++ fill else fill ++ s

/-- A number with its sign and the mark of its base, padded with spaces, or with zeros behind
sign and mark. -/
def Measure.padNumber (m : Measure) (negative : Bool) (mark digits : String) : String :=
  let sign := if negative then "-" else if m.flags.sign then "+" else if m.flags.blank then " "
    else ""
  let fill := m.width - (sign.length + mark.length + digits.length)
  if m.flags.left then sign ++ mark ++ digits ++ repeated ' ' fill
  else if m.flags.zero then sign ++ mark ++ repeated '0' fill ++ digits
  else repeated ' ' fill ++ sign ++ mark ++ digits

/-- A text cut to the precision. -/
def Measure.text (m : Measure) (s : String) : String :=
  m.padText (match m.precision? with
    | some n => String.ofList (s.toList.take n)
    | none => s)

/-- An integer in a base, with at least as many digits as the precision says. -/
def Measure.integer (m : Measure) (mark : String) (base : Nat) (n : Int) : String :=
  let digits := String.ofList (Nat.toDigits base n.natAbs)
  let digits := repeated '0' (m.precision?.getD 0 - digits.length) ++ digits
  m.padNumber (decide (n < 0)) (if m.flags.alternate then mark else "") digits

/-- A double in a style, six digits being the usual precision. -/
def Measure.double (m : Measure) (style : Decimal.Style) (x : Binary64) : String :=
  m.padNumber x.isNegative "" (style.write m.flags.alternate (m.precision?.getD 6) x)

/-- The integer for a conversion that cuts off fractions. -/
def toWhole (v : Value) : Except Failure Int :=
  match v with
  | .int n => .ok n
  | .bool b => .ok b.toInt
  | .float x =>
    match x.truncate? with
    | some n => .ok n
    | none =>
      if x.isNaN then .error (.misuse .value "cannot convert float NaN to integer")
      else .error (.misuse .overflow "cannot convert float infinity to integer")
  | _ => .error (.misuse .type ("a real number is required, not " ++ v.typeName))

/-- The integer for a conversion to a base of two's power. -/
def toInteger (v : Value) : Except Failure Int :=
  match v with
  | .int n => .ok n
  | .bool b => .ok b.toInt
  | _ => .error (.misuse .type ("an integer is required, not " ++ v.typeName))

/-- The double for a conversion to one. -/
def toReal (v : Value) : Except Failure Binary64 :=
  match v with
  | .float x => .ok x
  | .int n => Value.intToDouble n
  | .bool b => Value.intToDouble b.toInt
  | _ => .error (.misuse .type ("must be real number, not " ++ v.typeName))

/-- The character of a code point or of a text of one character. -/
def toCharacter (v : Value) : Except Failure String :=
  let ofCode (n : Int) : Except Failure String :=
    if 0 ≤ n ∧ n < 0x110000 then .ok (String.singleton (Char.ofNat n.toNat))
    else .error (.misuse .overflow "%c arg not in range(0x110000)")
  match v with
  | .int n => ofCode n
  | .bool b => ofCode b.toInt
  | .text s =>
    if s.length = 1 then .ok s else .error (.misuse .type "%c requires int or char")
  | _ => .error (.misuse .type "%c requires int or char")

/-- A text in ASCII, all else escaped. -/
def escapeBeyondAscii (s : String) : String :=
  String.join (s.toList.map fun c =>
    if c.toNat < 0x80 then String.singleton c else Text.codePointEscape c.toNat)

/-- A value by a conversion. -/
def Measure.write (m : Measure) (conversion : Char) (v : Value) : Except Failure String :=
  match conversion with
  | 's' => .ok (m.text v.display)
  | 'r' => .ok (m.text v.shown)
  | 'a' => .ok (m.text (escapeBeyondAscii v.shown))
  | 'd' | 'i' | 'u' => (toWhole v).map (m.integer "" 10)
  | 'o' => (toInteger v).map (m.integer "0o" 8)
  | 'x' => (toInteger v).map (m.integer "0x" 16)
  | 'X' => (toInteger v).map fun n => (m.integer "0x" 16 n).toUpper
  | 'f' => (toReal v).map (m.double .fixed)
  | 'F' => (toReal v).map fun x => (m.double .fixed x).toUpper
  | 'e' => (toReal v).map (m.double .exponential)
  | 'E' => (toReal v).map fun x => (m.double .exponential x).toUpper
  | 'g' => (toReal v).map (m.double .general)
  | 'G' => (toReal v).map fun x => (m.double .general x).toUpper
  | 'c' => (toCharacter v).map m.padText
  | _ => .error (.misuse .value "unsupported format character")

/-! ## Filling -/

/-- The arguments that a directive chooses from: the value of its key, or those not used yet. -/
def Source.chosen (source : Source) (d : Directive) : Except Failure (List Value) :=
  match d.key?, source.entry? with
  | none, _ => .ok source.pending
  | some _, none => .error (.misuse .type "format requires a mapping")
  | some key, some entry => (entry key).map ([·])

/-- Writes a directive, and gives the arguments that are left. -/
def Source.write (source : Source) (d : Directive) : Except Failure (String × List Value) :=
  match source.chosen d with
  | .error e => .error e
  | .ok pending =>
    match measure d pending with
    | .error e => .error e
    | .ok (m, pending) =>
      match d.conversion? with
      | none => .error (.misuse .value "incomplete format")
      | some conversion =>
        match takeArgument pending with
        | .error e => .error e
        | .ok (v, rest) => (m.write conversion v).map (·, rest)

/-- The failure of leaving arguments unused. -/
def unused : Failure := .misuse .type "not all arguments converted during string formatting"

/-- Writes pieces. A source with keys has nothing left after any directive, one without them
nothing at the end. -/
def Source.fill (source : Source) : List Piece → Except Failure String
  | [] => if source.entry?.isNone && !source.pending.isEmpty then .error unused else .ok ""
  | .char c :: pieces => (source.fill pieces).map (String.singleton c ++ ·)
  | .openKey :: _ =>
    if source.entry?.isNone then .error (.misuse .type "format requires a mapping")
    else .error (.misuse .value "incomplete format key")
  | .directive d :: pieces =>
    match source.write d with
    | .error e => .error e
    | .ok (s, pending) =>
      if source.entry?.isSome && !pending.isEmpty then .error unused
      else (Source.fill { source with pending := pending } pieces).map (s ++ ·)

end Template

/-- A template with values in place of its directives. -/
def Template.fill (template : String) (arguments : Value) : Except Failure String :=
  (Template.Source.ofValue arguments).fill (Template.pieces template)

end GraphClient
