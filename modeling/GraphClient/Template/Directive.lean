/-!
# Templates

A template is a text with directives, each begun by a percent sign: a key in brackets, flags, a
width, a precision and a conversion, of which only the conversion has to be there. Two percent
signs are one percent sign. `Template.pieces` splits a text into its characters and directives.
-/

namespace GraphClient.Template

/-- A width or a precision: given, or taken from the arguments. -/
inductive Amount where
  | given (n : Nat)
  | argument
deriving DecidableEq, Inhabited

/-- The flags of a directive. -/
structure Flags where
  left : Bool
  sign : Bool
  blank : Bool
  alternate : Bool
  zero : Bool
deriving DecidableEq, Inhabited

/-- A directive; it has no conversion if the text ends before it. -/
structure Directive where
  key? : Option String
  flags : Flags
  width? : Option Amount
  precision? : Option Amount
  conversion? : Option Char
deriving DecidableEq, Inhabited

/-- A piece of a template. -/
inductive Piece where
  | char (c : Char)
  | directive (d : Directive)
  /-- A key whose bracket is not closed. -/
  | openKey
deriving DecidableEq, Inhabited

/-- Reads up to the bracket that closes the ones open, which are `depth + 1`. -/
def readKey : Nat → List Char → Option (List Char × List Char)
  | _, [] => none
  | depth, c :: cs =>
    if c = ')' then
      match depth with
      | 0 => some ([], cs)
      | depth + 1 => (readKey depth cs).map fun (key, rest) => (c :: key, rest)
    else (readKey (if c = '(' then depth + 1 else depth) cs).map fun (key, rest) => (c :: key, rest)

def isFlag (c : Char) : Bool := "-+ #0".toList.contains c

/-- The flags that a text begins with. -/
def readFlags (cs : List Char) : Flags × List Char :=
  let given := cs.takeWhile isFlag
  (⟨given.contains '-', given.contains '+', given.contains ' ', given.contains '#',
    given.contains '0'⟩, cs.dropWhile isFlag)

/-- The natural that decimal digits denote. -/
def numberOf (digits : List Char) : Nat := digits.foldl (fun n c => 10 * n + (c.toNat - 48)) 0

/-- An amount that a text may begin with. -/
def readAmount (cs : List Char) : Option Amount × List Char :=
  match cs with
  | '*' :: rest => (some .argument, rest)
  | _ =>
    let digits := cs.takeWhile Char.isDigit
    if digits.isEmpty then (none, cs)
    else (some (.given (numberOf digits)), cs.dropWhile Char.isDigit)

/-- A precision, which is zero if nothing follows the point. -/
def readPrecision (cs : List Char) : Option Amount × List Char :=
  match cs with
  | '.' :: rest =>
    let (amount, rest) := readAmount rest
    (some (amount.getD (.given 0)), rest)
  | _ => (none, cs)

/-- A text without one letter for the size of a number, which says nothing. -/
def skipSize : List Char → List Char
  | 'h' :: cs | 'l' :: cs | 'L' :: cs => cs
  | cs => cs

/-- The parts of a directive behind its key. -/
def readDirective (key? : Option String) (cs : List Char) : Piece × List Char :=
  let (flags, cs) := readFlags cs
  let (width, cs) := readAmount cs
  let (precision, cs) := readPrecision cs
  let cs := skipSize cs
  (.directive ⟨key?, flags, width, precision, cs.head?⟩, cs.drop 1)

/-- The piece behind a percent sign. -/
def readPiece : List Char → Piece × List Char
  | '%' :: cs => (.char '%', cs)
  | '(' :: cs =>
    match readKey 0 cs with
    | some (key, cs) => readDirective (some (String.ofList key)) cs
    | none => (.openKey, [])
  | cs => readDirective none cs

/-- The pieces of a text whose first `skip` characters belong to a piece already. -/
def piecesFrom : Nat → List Char → List Piece
  | _, [] => []
  | skip + 1, _ :: cs => piecesFrom skip cs
  | 0, c :: cs =>
    if c = '%' then
      let (piece, rest) := readPiece cs
      piece :: piecesFrom (cs.length - rest.length) cs
    else .char c :: piecesFrom 0 cs

/-- The pieces of a text. -/
def pieces (s : String) : List Piece := piecesFrom 0 s.toList

end GraphClient.Template
