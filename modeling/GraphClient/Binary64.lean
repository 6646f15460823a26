/-!
# Double-precision numbers, exactly

A double is a sign, a natural mantissa and a power of two, so every question about it is one
about integers and rationals.

* `Binary64.ofRatio` and `Binary64.ofRat` round a quotient to the nearest double, a tie to the
  even mantissa.
* `Binary64.toRat?` is the exact value of a finite double.
* `Binary64.compare?` orders by exact value; NaN compares with nothing, itself included.
-/

namespace GraphClient

/-- A double-precision number: not a number, an infinity, or `± mantissa · 2 ^ exponent`. -/
inductive Binary64 where
  | nan
  | infinite (negative : Bool)
  | finite (negative : Bool) (mantissa : Nat) (exponent : Int)
deriving DecidableEq, Inhabited

/-- The quotient of two naturals rounded to the nearest natural, a tie to the even one. -/
def roundDiv (n d : Nat) : Nat :=
  let q := n / d
  let twice := 2 * (n % d)
  if twice < d then q else if d < twice then q + 1 else q + q % 2

namespace Binary64

/-- The least exponent, that of the subnormal numbers. -/
def minExponent : Int := -1074

/-- The greatest exponent of a finite number with a full mantissa. -/
def maxExponent : Int := 971

/-- A full mantissa has 53 binary digits, so it is at least this. -/
def fullMantissa : Nat := 4503599627370496

def zero : Binary64 := finite false 0 minExponent

/-- `n / d / 2 ^ e` as a pair of naturals. -/
def scaleDown (n d : Nat) (e : Int) : Nat × Nat :=
  if 0 ≤ e then (n, d * Nat.pow 2 e.toNat) else (n * Nat.pow 2 (-e).toNat, d)

/-- The exponent at which `n / d` has a full mantissa, or the least one below that. -/
def exponentOf (n d : Nat) : Int :=
  let e : Int := (Nat.log2 n : Int) - (Nat.log2 d : Int) - 52
  let (a, b) := scaleDown n d e
  max (if a / b < fullMantissa then e - 1 else e) minExponent

/-- `± n / d` rounded to the nearest double; beyond the largest one it is an infinity. -/
def ofRatio (negative : Bool) (n d : Nat) : Binary64 :=
  if n = 0 then finite negative 0 minExponent
  else
    let e := exponentOf n d
    let (a, b) := scaleDown n d e
    let m := roundDiv a b
    let (m, e) := if m = 2 * fullMantissa then (fullMantissa, e + 1) else (m, e)
    if maxExponent < e then infinite negative else finite negative m e

/-- The double nearest to a rational. -/
def ofRat (q : Rat) : Binary64 := ofRatio (decide (q.num < 0)) q.num.natAbs q.den

/-- The double nearest to an integer. -/
def ofInt (n : Int) : Binary64 := ofRatio (decide (n < 0)) n.natAbs 1

/-- The exact value of a finite double. -/
def toRat? : Binary64 → Option Rat
  | finite negative m e =>
    let magnitude : Rat := (m : Rat) * (2 : Rat) ^ e
    some (if negative then -magnitude else magnitude)
  | _ => none

def isNaN : Binary64 → Bool
  | nan => true
  | _ => false

def isZero : Binary64 → Bool
  | finite _ m _ => m == 0
  | _ => false

def isFinite : Binary64 → Bool
  | finite .. => true
  | _ => false

/-- Whether the sign is minus; NaN has none. -/
def isNegative : Binary64 → Bool
  | nan => false
  | infinite n => n
  | finite n _ _ => n

/-- The order of two doubles by exact value, none when either is NaN. -/
def compare? : Binary64 → Binary64 → Option Ordering
  | nan, _ => none
  | _, nan => none
  | infinite a, infinite b => some (compare b.toNat a.toNat)
  | infinite a, finite .. => some (if a then .lt else .gt)
  | finite .., infinite b => some (if b then .gt else .lt)
  | x@(finite ..), y@(finite ..) =>
    match x.toRat?, y.toRat? with
    | some p, some q => some (if p < q then .lt else if p = q then .eq else .gt)
    | _, _ => none

/-- Numeric equality: both zeros are equal, and NaN equals nothing. -/
def eqv (x y : Binary64) : Bool := x.compare? y == some .eq

/-- The integer that a double denotes exactly, if it denotes one. -/
def toInt? (x : Binary64) : Option Int :=
  match x.toRat? with
  | some q => if q.den = 1 then some q.num else none
  | none => none

/-- The integer next to a finite double on the side of zero. -/
def truncate? : Binary64 → Option Int
  | finite negative m e =>
    let magnitude : Nat := m * Nat.pow 2 e.toNat / Nat.pow 2 (-e).toNat
    some (if negative then -(magnitude : Int) else magnitude)
  | _ => none

/-- Whether a double lies strictly below an integer. -/
def ltInt (x : Binary64) (n : Int) : Bool :=
  match x with
  | nan => false
  | infinite negative => negative
  | finite .. => match x.toRat? with
    | some q => decide (q < (n : Rat))
    | none => false

/-- The product, rounded once. -/
def mul (x y : Binary64) : Binary64 :=
  let negative := x.isNegative != y.isNegative
  match x, y with
  | nan, _ => nan
  | _, nan => nan
  | finite _ m e, finite _ m' e' =>
    let product := m * m'
    let scale := e + e'
    if 0 ≤ scale then ofRatio negative (product * Nat.pow 2 scale.toNat) 1
    else ofRatio negative product (Nat.pow 2 (-scale).toNat)
  | a, b => if a.isZero || b.isZero then nan else infinite negative

end Binary64

end GraphClient
