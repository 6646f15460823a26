import GraphClient.Decimal.Shortest

/-!
# Writing a double as text

`Layout` holds the choices of a written form: which magnitudes are written without an exponent
and how NaN and the infinities are spelled. `Layout.write` writes the shortest digits that way.
`fixed` and `Style.write` write a given number of digits, a half going to the even digit of the
exact binary value.
-/

namespace GraphClient.Decimal

/-- The choices of a written form of a double. -/
structure Layout where
  /-- The least decimal exponent that is written without an exponent. -/
  leastPlain : Int
  /-- The first decimal exponent above that is written with one again. -/
  firstLarge : Int
  nan : String
  infinity : String

/-- Plain values: `0.0001` and `1e-05`, `1000000000000000.0` and `1e+16`. -/
def Layout.plain : Layout := ⟨-4, 16, "nan", "inf"⟩

/-- The JSON spellings of the special values. -/
def Layout.json : Layout := ⟨-4, 16, "NaN", "Infinity"⟩

/-- As many zeros as asked for. -/
def zeros (n : Int) : String := String.ofList (List.replicate n.toNat '0')

/-- A decimal exponent with its sign and at least two digits. -/
def exponentText (e : Int) : String :=
  let digits := toString e.natAbs
  "e" ++ (if e < 0 then "-" else "+") ++ (if digits.length < 2 then "0" ++ digits else digits)

/-- Digits with a point after the first one, unless there is only one. -/
def pointAfterFirst (digits : String) : String :=
  match digits.toList with
  | [] => ""
  | [c] => String.ofList [c]
  | c :: rest => String.ofList (c :: '.' :: rest)

/-- A positive decimal in the given layout, with `.0` when it has no other fraction. -/
def Layout.writeScientific (l : Layout) (s : Scientific) : String :=
  let digits := toString s.coefficient
  let n : Int := digits.length
  let point := s.exponent + n
  if l.leastPlain < point ∧ point ≤ l.firstLarge then
    if point ≤ 0 then "0." ++ zeros (-point) ++ digits
    else if n ≤ point then digits ++ zeros (point - n) ++ ".0"
    else String.ofList (digits.toList.take point.toNat) ++ "."
      ++ String.ofList (digits.toList.drop point.toNat)
  else pointAfterFirst digits ++ exponentText (point - 1)

/-- The shortest text that reads back as the double. -/
def Layout.write (l : Layout) : Binary64 → String
  | .nan => l.nan
  | .infinite negative => (if negative then "-" else "") ++ l.infinity
  | .finite negative m e =>
    (if negative then "-" else "")
      ++ (if m = 0 then "0.0" else l.writeScientific (shortest m e))

/-- The digits of a natural with a point before the last `places` of them. -/
def withPoint (n places : Nat) : String :=
  let digits := (toString n).toList
  let padded := List.replicate (places + 1 - digits.length) '0' ++ digits
  if places = 0 then String.ofList padded
  else String.ofList (padded.take (padded.length - places)) ++ "."
    ++ String.ofList (padded.drop (padded.length - places))

/-- The magnitude `mantissa · 2 ^ exponent · 10 ^ places`, rounded to a natural. -/
def scaledMagnitude (mantissa : Nat) (exponent places : Int) : Nat :=
  roundDiv (mantissa * Nat.pow 2 exponent.toNat * Nat.pow 10 places.toNat)
    (Nat.pow 2 (-exponent).toNat * Nat.pow 10 (-places).toNat)

/-- The magnitude of a double with a fixed number of places; signs are left to the caller. -/
def fixedMagnitude (places : Nat) : Binary64 → String
  | .nan => "nan"
  | .infinite _ => "inf"
  | .finite _ m e => withPoint (scaledMagnitude m e places) places

/-- A double with a fixed number of places. -/
def fixed (places : Nat) (x : Binary64) : String :=
  (if x.isNegative then "-" else "") ++ fixedMagnitude places x

/-- The first `places + 1` significant digits of a positive magnitude, rounded, and the decimal
exponent of the first of them. -/
def significant (places m : Nat) (e : Int) : Nat × Int :=
  let lead := magnitude m e - 1
  let c := scaledMagnitude m e (places - lead)
  if Nat.pow 10 (places + 1) ≤ c then (c / 10, lead + 1) else (c, lead)

/-- The ways of writing a double with a given precision: so many places, one digit before the
point and an exponent, or whichever suits so many significant digits. -/
inductive Style where
  | fixed | exponential | general
deriving DecidableEq, Inhabited

/-- The digits and the exponent of a finite magnitude in a style. -/
def Style.parts (style : Style) (precision m : Nat) (e : Int) : String × String :=
  let leading (places : Nat) : Nat × Int := if m = 0 then (0, 0) else significant places m e
  match style with
  | .fixed => (withPoint (scaledMagnitude m e precision) precision, "")
  | .exponential =>
    let (c, lead) := leading precision
    (withPoint c precision, exponentText lead)
  | .general =>
    let places := max precision 1 - 1
    let (c, lead) := leading places
    if -4 ≤ lead ∧ lead ≤ places then (withPoint c (places - lead).toNat, "")
    else (withPoint c places, exponentText lead)

/-- Digits with a point, at their end if there is none yet. -/
def ensurePoint (digits : String) : String :=
  if digits.toList.contains '.' then digits else digits ++ "."

/-- Digits without the zeros that end a fraction, and without the point of an empty one. -/
def dropFractionZeros (digits : String) : String :=
  if digits.toList.contains '.' then
    let kept := digits.toList.reverse.dropWhile (· = '0')
    String.ofList (if kept.head? = some '.' then kept.drop 1 else kept).reverse
  else digits

/-- The magnitude of a double in a style. The full form keeps the point and the zeros that the
usual one drops. -/
def Style.write (style : Style) (full : Bool) (precision : Nat) : Binary64 → String
  | .nan => "nan"
  | .infinite _ => "inf"
  | .finite _ m e =>
    let (digits, exponent) := style.parts precision m e
    (if full then ensurePoint digits
      else if style = .general then dropFractionZeros digits else digits) ++ exponent

end GraphClient.Decimal
