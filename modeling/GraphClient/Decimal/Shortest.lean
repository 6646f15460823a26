import GraphClient.Binary64

/-!
# The shortest decimal that reads back

A finite double owns the interval of numbers that round to it; the ends belong to it when its
mantissa is even. `Decimal.shortest` tries one digit, then two, and so on: the first power of ten
with a multiple in the interval decides the number of digits, and of two multiples the nearer is
taken. Only the two multiples next to the double need to be tried.
-/

namespace GraphClient.Decimal

/-- The decimal `coefficient · 10 ^ exponent`. -/
structure Scientific where
  coefficient : Nat
  exponent : Int
deriving DecidableEq, Inhabited

/-- Drops at most `bound` trailing zeros of a coefficient. -/
def Scientific.dropZeros : Nat → Scientific → Scientific
  | 0, s => s
  | bound + 1, s =>
    if s.coefficient ≠ 0 ∧ s.coefficient % 10 = 0 then
      dropZeros bound ⟨s.coefficient / 10, s.exponent + 1⟩
    else s

/-- The same number without trailing zeros in the coefficient. -/
def Scientific.trim (s : Scientific) : Scientific := s.dropZeros (Nat.log2 s.coefficient)

/-- A double on an integer grid: the value, the ends of its interval, and the grid's unit, a
multiple of which is `coefficient · 10 ^ exponent`. -/
structure Interval where
  low : Nat
  value : Nat
  high : Nat
  closed : Bool
  step : Nat

/-- The interval of `mantissa · 2 ^ exponent` on the grid of the multiples of `10 ^ g`. -/
def interval (mantissa : Nat) (exponent g : Int) : Interval :=
  let up := Nat.pow 2 (exponent - 2).toNat * Nat.pow 10 (-g).toNat
  let lowGap := if mantissa = Binary64.fullMantissa ∧ Binary64.minExponent < exponent then 1 else 2
  { low := (4 * mantissa - lowGap) * up
    value := 4 * mantissa * up
    high := (4 * mantissa + 2) * up
    closed := mantissa % 2 == 0
    step := Nat.pow 2 (2 - exponent).toNat * Nat.pow 10 g.toNat }

/-- Whether a multiple of the grid's unit lies in the interval. -/
def Interval.holds (i : Interval) (c : Nat) : Bool :=
  if i.closed then i.low ≤ c * i.step && c * i.step ≤ i.high
  else i.low < c * i.step && c * i.step < i.high

/-- The multiple of the unit that lies in the interval and is nearest to the value, if any; a
tie goes to the even multiple. -/
def Interval.nearest (i : Interval) : Option Nat :=
  let c := i.value / i.step
  match i.holds c, i.holds (c + 1) with
  | true, true =>
    let below := i.value - c * i.step
    let above := (c + 1) * i.step - i.value
    some (if below < above then c else if above < below then c + 1 else c + c % 2)
  | true, false => some c
  | false, true => some (c + 1)
  | false, false => none

/-- The number of decimal digits before the point of `mantissa · 2 ^ exponent`, which is the
exponent of the least power of ten above it. -/
def magnitude (mantissa : Nat) (exponent : Int) : Int :=
  let guess : Int := (((Nat.log2 mantissa : Int) + exponent) * 30103).fdiv 100000
  let below (p : Int) : Bool :=
    Nat.pow 10 p.toNat * Nat.pow 2 (-exponent).toNat
      ≤ mantissa * Nat.pow 2 exponent.toNat * Nat.pow 10 (-p).toNat
  if below (guess + 1) then guess + 2 else if below guess then guess + 1 else guess

/-- The shortest decimal that reads back as `mantissa · 2 ^ exponent`, with no more than 17
digits. -/
def shortest (mantissa : Nat) (exponent : Int) : Scientific :=
  let k := magnitude mantissa exponent
  let rec search : Nat → Int → Scientific
    | 0, g => ⟨(interval mantissa exponent g).value / (interval mantissa exponent g).step, g⟩
    | left + 1, g =>
      match (interval mantissa exponent g).nearest with
      | some c => Scientific.trim ⟨c, g⟩
      | none => search left (g - 1)
  search 17 (k - 1)

end GraphClient.Decimal
