import GraphClient.Decimal.Numeral
import GraphClient.Value.Iteration

/-!
# Values as numbers and by position

`Value.toDouble` reads a number or the text of one; `Value.first` is the item at position zero.
-/

namespace GraphClient.Value

/-- The double nearest to an integer; integers that no double reaches are refused. -/
def intToDouble (n : Int) : Except Failure Binary64 :=
  match Binary64.ofInt n with
  | .infinite _ => .error (.misuse .overflow "int too large to convert to float")
  | x => .ok x

/-- The double that a text denotes. -/
def textToDouble (s : String) : Except Failure Binary64 :=
  match Decimal.readFloat? s with
  | some x => .ok x
  | none => .error (.misuse .value ("could not convert string to float: " ++ Text.quoted s))

/-- The double that ASCII characters denote. Other bytes denote none. -/
def bytesToDouble (data : List UInt8) : Except Failure Binary64 :=
  if data.all (· < 0x80) then textToDouble (String.ofList (data.map fun b => Char.ofNat b.toNat))
  else .error (.misuse .value ("could not convert string to float: " ++ Text.quotedBytes data))

/-- The double that a value denotes: a number, or the text of one. -/
def toDouble : Value → Except Failure Binary64
  | float x => .ok x
  | int n => intToDouble n
  | bool b => intToDouble b.toInt
  | text s => textToDouble s
  | bytes data => bytesToDouble data
  | v => .error (.misuse .type
      ("float() argument must be a string or a real number, not '" ++ v.typeName ++ "'"))

/-- The item at position zero of a sequence, or the value of the key zero of a map. -/
def first : Value → Except Failure Value
  | list (v :: _) | tuple (v :: _) => .ok v
  | text s =>
    match s.toList with
    | c :: _ => .ok (text (String.singleton c))
    | [] => .error (.misuse .index "string index out of range")
  | bytes (b :: _) => .ok (int b.toNat)
  | list [] | tuple [] | bytes [] => .error (.misuse .index "index out of range")
  | map entries =>
    match Pairs.get? (int 0) entries with
    | some v => .ok v
    | none => .error (.misuse .key "0")
  | v => .error (.misuse .type ("'" ++ v.typeName ++ "' object is not subscriptable"))

/-- The given value, or another one in place of a value that counts as false. -/
def orElse (v fallback : Value) : Except Failure Value :=
  v.decideTruth.map fun holds => if holds then v else fallback

end GraphClient.Value
