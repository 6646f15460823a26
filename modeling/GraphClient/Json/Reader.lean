import GraphClient.Decimal.Numeral
import GraphClient.Json.Basic

/-!
# Reading JSON

`Json.parse` takes a whole text as one document. White space is the space, the tab and the two
line ends; strings hold no raw control characters; the names `NaN`, `Infinity` and `-Infinity`
are numbers; of a repeated member the last value counts, in the place of the first.

An integer may have as many digits as the given limit says. The first integer with more ends the
reading, as the first malformed part does: `Json.load` reads with the limit `Decimal.digitLimit`,
`Json.read?` reads integers of any size.
-/

namespace GraphClient.Json

/-- Why a text is not read as a document. -/
inductive Refusal where
  | malformed
  /-- An integer has that many digits, which is more than are read. -/
  | tooManyDigits (count : Nat)
deriving DecidableEq, Inhabited

/-- White space between the parts of a document. -/
def isSpace (c : Char) : Bool := c = ' ' || c = '\t' || c = '\n' || c = '\r'

def skipSpace (cs : List Char) : List Char := cs.dropWhile isSpace

/-- The rest of a text after the given beginning. -/
def afterWord? (word : String) (cs : List Char) : Option (List Char) :=
  if word.toList.isPrefixOf cs then some (cs.drop word.length) else none

/-- The value of a hexadecimal digit. -/
def hexDigit? (c : Char) : Option Nat :=
  if '0' ≤ c ∧ c ≤ '9' then some (c.toNat - 48)
  else if 'a' ≤ c ∧ c ≤ 'f' then some (c.toNat - 87)
  else if 'A' ≤ c ∧ c ≤ 'F' then some (c.toNat - 55)
  else none

/-- The unit that four hexadecimal digits denote, and the rest. -/
def hexUnit? : List Char → Option (Nat × List Char)
  | a :: b :: c :: d :: rest =>
    match hexDigit? a, hexDigit? b, hexDigit? c, hexDigit? d with
    | some a, some b, some c, some d => some (((a * 16 + b) * 16 + c) * 16 + d, rest)
    | _, _, _, _ => none
  | _ => none

/-- The character of the two units of a surrogate pair. -/
def pairChar? (high low : Nat) : Option Char :=
  if 0xd800 ≤ high ∧ high < 0xdc00 ∧ 0xdc00 ≤ low ∧ low < 0xe000 then
    some (Char.ofNat (0x10000 + (high - 0xd800) * 0x400 + (low - 0xdc00)))
  else none

/-- The character of an escape that starts with the given unit, and the rest. A lone surrogate is
no character and becomes the replacement character. -/
def unitChar (unit : Nat) (rest : List Char) : Char × List Char :=
  let alone := if 0xd800 ≤ unit ∧ unit < 0xe000 then Char.ofNat 0xfffd else Char.ofNat unit
  match rest with
  | '\\' :: 'u' :: more =>
    match hexUnit? more with
    | some (low, rest') =>
      match pairChar? unit low with
      | some c => (c, rest')
      | none => (alone, rest)
    | none => (alone, rest)
  | _ => (alone, rest)

/-- The character of a one-letter escape. -/
def letterEscape? (c : Char) : Option Char :=
  match c with
  | '"' => some '"'
  | '\\' => some '\\'
  | '/' => some '/'
  | 'b' => some (Char.ofNat 0x8)
  | 'f' => some (Char.ofNat 0xc)
  | 'n' => some '\n'
  | 'r' => some '\r'
  | 't' => some '\t'
  | _ => none

/-- The characters of a string up to its closing quote, and the rest. The first argument bounds
the number of characters. -/
def readString : Nat → List Char → Option (List Char × List Char)
  | 0, _ => none
  | _, [] => none
  | _, '"' :: rest => some ([], rest)
  | bound + 1, '\\' :: 'u' :: rest =>
    match hexUnit? rest with
    | none => none
    | some (unit, rest) =>
      let (c, rest) := unitChar unit rest
      (readString bound rest).map fun (cs, rest) => (c :: cs, rest)
  | bound + 1, '\\' :: e :: rest =>
    match letterEscape? e with
    | none => none
    | some c => (readString bound rest).map fun (cs, rest) => (c :: cs, rest)
  | bound + 1, c :: rest =>
    if c.toNat < 0x20 ∨ c = '\\' then none
    else (readString bound rest).map fun (cs, rest) => (c :: cs, rest)

/-- A fraction part, empty if there is none, and the rest. -/
def splitFraction (cs : List Char) : List Char × List Char :=
  match cs with
  | '.' :: rest =>
    let digits := rest.takeWhile Decimal.isPlainDigit
    if digits.isEmpty then ([], cs) else (digits, rest.drop digits.length)
  | _ => ([], cs)

/-- An exponent part, if there is one, and the rest. -/
def splitExponent (cs : List Char) : Option Int × List Char :=
  match cs with
  | e :: rest =>
    if e = 'e' ∨ e = 'E' then
      let (negative, more) := Decimal.splitSign rest
      let digits := more.takeWhile Decimal.isPlainDigit
      if digits.isEmpty then (none, cs)
      else
        let n : Int := Decimal.digitsValue digits
        (some (if negative then -n else n), more.drop digits.length)
    else (none, cs)
  | [] => (none, cs)

/-- An integer with the given digits, unless there are more than the limit. -/
def ofDigits (limit? : Option Nat) (negative : Bool) (digits : List Char) : Except Refusal Json :=
  if Decimal.isWithin limit? digits then
    let n : Int := Decimal.digitsValue digits
    .ok (int (if negative then -n else n))
  else .error (.tooManyDigits digits.length)

/-- A number and the rest. Without fraction and exponent it is an integer. -/
def readNumber (limit? : Option Nat) (cs : List Char) : Except Refusal (Json × List Char) :=
  let (negative, rest) := match cs with
    | '-' :: rest => (true, rest)
    | _ => (false, cs)
  let whole := match rest with
    | '0' :: _ => ['0']
    | _ => rest.takeWhile Decimal.isPlainDigit
  if whole.isEmpty then .error .malformed
  else
    let (fraction, rest) := splitFraction (rest.drop whole.length)
    let (exponent?, rest) := splitExponent rest
    if fraction.isEmpty && exponent?.isNone then
      (ofDigits limit? negative whole).map (·, rest)
    else
      let digits := Decimal.digitsValue (whole ++ fraction)
      .ok (float (Binary64.ofDecimal negative digits (exponent?.getD 0 - fraction.length)), rest)

/-- The named values. -/
def names : List (String × Json) :=
  [("null", null), ("true", bool true), ("false", bool false), ("NaN", float .nan),
   ("Infinity", float (.infinite false)), ("-Infinity", float (.infinite true))]

/-- A named value or a number, and the rest. -/
def readScalar (limit? : Option Nat) (cs : List Char) : Except Refusal (Json × List Char) :=
  match names.findSome? fun (word, v) => (afterWord? word cs).map (v, ·) with
  | some found => .ok found
  | none => readNumber limit? cs

/-- A string behind its opening quote, and the rest. -/
def readText (cs : List Char) : Except Refusal (String × List Char) :=
  match readString cs.length.succ cs with
  | none => .error .malformed
  | some (s, rest) => .ok (String.ofList s, rest)

mutual

/-- A document and the rest. The second argument bounds the nesting and the number of parts. -/
def readValue (limit? : Option Nat) : Nat → List Char → Except Refusal (Json × List Char)
  | 0, _ => .error .malformed
  | bound + 1, cs =>
    match cs with
    | '"' :: rest => (readText rest).map fun (s, rest) => (text s, rest)
    | '[' :: rest =>
      match skipSpace rest with
      | ']' :: rest => .ok (array [], rest)
      | rest => (readItems limit? bound rest).map fun (items, rest) => (array items, rest)
    | '{' :: rest =>
      match skipSpace rest with
      | '}' :: rest => .ok (object [], rest)
      | rest => (readMembers limit? bound rest).map fun (members, rest) =>
        (object (Pairs.ofList members), rest)
    | cs => readScalar limit? cs

/-- The items of an array up to its closing bracket. -/
def readItems (limit? : Option Nat) : Nat → List Char → Except Refusal (List Json × List Char)
  | 0, _ => .error .malformed
  | bound + 1, cs =>
    match readValue limit? bound (skipSpace cs) with
    | .error e => .error e
    | .ok (item, rest) =>
      match skipSpace rest with
      | ',' :: rest => (readItems limit? bound rest).map fun (items, rest) => (item :: items, rest)
      | ']' :: rest => .ok ([item], rest)
      | _ => .error .malformed

/-- The members of an object up to its closing brace. -/
def readMembers (limit? : Option Nat) :
    Nat → List Char → Except Refusal (List (String × Json) × List Char)
  | 0, _ => .error .malformed
  | bound + 1, cs =>
    match skipSpace cs with
    | '"' :: rest =>
      match readText rest with
      | .error e => .error e
      | .ok (key, rest) =>
        match skipSpace rest with
        | ':' :: rest =>
          match readValue limit? bound (skipSpace rest) with
          | .error e => .error e
          | .ok (member, rest) =>
            match skipSpace rest with
            | ',' :: rest => (readMembers limit? bound rest).map fun (members, rest) =>
              ((key, member) :: members, rest)
            | '}' :: rest => .ok ([(key, member)], rest)
            | _ => .error .malformed
        | _ => .error .malformed
    | _ => .error .malformed

end

/-- The document that a whole text denotes, with integers up to the given number of digits. -/
def parse (limit? : Option Nat) (s : String) : Except Refusal Json :=
  match readValue limit? (2 * s.length + 2) (skipSpace s.toList) with
  | .ok (v, rest) => if (skipSpace rest).isEmpty then .ok v else .error .malformed
  | .error e => .error e

/-- The document that a whole text denotes, with integers of any size. -/
def read? (s : String) : Option Json := (parse none s).toOption

/-- The document that a whole text denotes, with integers that can be converted. -/
def load (s : String) : Except Refusal Json := parse (some Decimal.digitLimit) s

end GraphClient.Json
