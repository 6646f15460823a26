import GraphClient.Binary64
import GraphClient.Text.Blank
import GraphClient.Text.Digit

/-!
# Reading numbers from text

The lenient reading of numbers: white space around, a sign, decimal digits of any script, single
underscores between digits. `readInt?` takes whole numbers, `readFloat?` also a fraction, an
exponent and the names of the special values.
-/

namespace GraphClient

/-- The double nearest to `± coefficient · 10 ^ exponent`. Exponents that no double reaches are
decided without computing the power. -/
def Binary64.ofDecimal (negative : Bool) (coefficient : Nat) (exponent : Int) : Binary64 :=
  let digits : Int := (toString coefficient).length
  if coefficient = 0 ∨ digits + exponent < -400 then finite negative 0 minExponent
  else if 400 < digits + exponent then infinite negative
  else if 0 ≤ exponent then ofRatio negative (coefficient * Nat.pow 10 exponent.toNat) 1
  else ofRatio negative coefficient (Nat.pow 10 (-exponent).toNat)

namespace Decimal

/-- The white space allowed around a number: the information separators do not count. -/
def isNumeralBlank (c : Char) : Bool :=
  Text.isBlank c && !(0x1c ≤ c.toNat && c.toNat ≤ 0x1f)

def isPlainDigit (c : Char) : Bool := '0' ≤ c && c ≤ '9'

/-- The text without its underscores, each of which stands between two digits. The flag says
whether the character before was a digit. -/
def ungroup : Bool → List Char → Option (List Char)
  | _, [] => some []
  | afterDigit, '_' :: c :: rest =>
    if afterDigit && isPlainDigit c then (ungroup true rest).map (c :: ·) else none
  | _, c :: rest => if c = '_' then none else (ungroup (isPlainDigit c) rest).map (c :: ·)

/-- The value of a row of ASCII digits. -/
def digitsValue (digits : List Char) : Nat :=
  digits.foldl (fun n c => n * 10 + (c.toNat - 48)) 0

/-- The most digits of an integer that is converted from text or to text. -/
def digitLimit : Nat := 4300

/-- Whether there are no more digits than the limit, if there is one. -/
def isWithin (limit? : Option Nat) (digits : List Char) : Bool :=
  limit?.all (digits.length ≤ ·)

/-- A sign, if there is one, and the rest; true means minus. -/
def splitSign : List Char → Bool × List Char
  | '-' :: rest => (true, rest)
  | '+' :: rest => (false, rest)
  | rest => (false, rest)

/-- A whole number in ASCII digits, with a sign. -/
def wholeNumber? (cs : List Char) : Option Int :=
  let (negative, digits) := splitSign cs
  if digits.isEmpty || !digits.all isPlainDigit then none
  else some (if negative then -(digitsValue digits : Int) else digitsValue digits)

/-- An exponent part: nothing, or `e` and a whole number. -/
def exponentPart? : List Char → Option Int
  | [] => some 0
  | c :: rest => if c = 'e' ∨ c = 'E' then wholeNumber? rest else none

/-- A decimal number in ASCII characters: digits with or without a point, at least one of them,
and an exponent part. -/
def decimalNumber? (cs : List Char) : Option Binary64 :=
  let (negative, cs) := splitSign cs
  let whole := cs.takeWhile isPlainDigit
  let rest := cs.dropWhile isPlainDigit
  let (fraction, rest) := match rest with
    | '.' :: more => (more.takeWhile isPlainDigit, more.dropWhile isPlainDigit)
    | _ => ([], rest)
  if whole.isEmpty && fraction.isEmpty then none
  else (exponentPart? rest).map fun e =>
    Binary64.ofDecimal negative (digitsValue (whole ++ fraction)) (e - fraction.length)

/-- The name of a special value in any letter case, with a sign. -/
def specialNumber? (cs : List Char) : Option Binary64 :=
  let (negative, name) := splitSign cs
  let name := String.ofList (name.map Char.toLower)
  if name = "inf" ∨ name = "infinity" then some (.infinite negative)
  else if name = "nan" then some .nan
  else none

/-- The characters of a number: no white space around, plain digits, no underscores. -/
def numeralChars? (s : String) : Option (List Char) :=
  ungroup false ((Text.trimBy isNumeralBlank s.toList).map Text.plainDigit)

/-- The whole number that a text denotes. -/
def readInt? (s : String) : Option Int := (numeralChars? s).bind wholeNumber?

/-- The double that a text denotes. -/
def readFloat? (s : String) : Option Binary64 :=
  (numeralChars? s).bind fun cs => (decimalNumber? cs).orElse fun _ => specialNumber? cs

end Decimal

end GraphClient
