/-!
# Blank characters

The white space of Unicode text: the separators, the control characters that move the position,
and the four information separators.
-/

namespace GraphClient.Text

/-- The ranges of blank characters by code point, both ends included. -/
def blankRanges : List (Nat × Nat) :=
  [(0x9, 0xd), (0x1c, 0x20), (0x85, 0x85), (0xa0, 0xa0), (0x1680, 0x1680), (0x2000, 0x200a),
   (0x2028, 0x2029), (0x202f, 0x202f), (0x205f, 0x205f), (0x3000, 0x3000)]

/-- Whether a character is white space. -/
def isBlank (c : Char) : Bool :=
  blankRanges.any fun (low, high) => low ≤ c.toNat && c.toNat ≤ high

/-- Characters without the leading and trailing ones that satisfy `p`. -/
def trimBy (p : Char → Bool) (cs : List Char) : List Char :=
  ((cs.dropWhile p).reverse.dropWhile p).reverse

/-- A text without leading and trailing white space. -/
def trim (s : String) : String := String.ofList (trimBy isBlank s.toList)

end GraphClient.Text
