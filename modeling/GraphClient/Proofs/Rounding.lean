import Mathlib.Algebra.Order.Field.Basic
import Mathlib.Algebra.Order.Ring.Rat
import Mathlib.Data.Nat.Log
import Mathlib.Tactic.Ring
import GraphClient.Binary64

/-!
# Rounded quotients

A quotient of two naturals is rounded to a double.

* `Binary64.ofRatio_share`: rounding does not lead past a natural (`roundDiv_le`), so a part of a
  whole is rounded to a number between zero and one.
* `Binary64.ofRatio_whole`: naturals of up to 53 binary digits are not changed.
-/

namespace GraphClient

/-- Rounding does not lead past a natural. -/
theorem roundDiv_le {n d c : Nat} (positive : 0 < d) (le : n ≤ c * d) : roundDiv n d ≤ c := by
  have split := Nat.div_add_mod n d
  have rest := Nat.mod_lt n positive
  rcases Nat.lt_or_ge (n / d) c with below | above
  · unfold roundDiv
    simp only
    split
    · exact below.le
    · split
      · exact below
      · have := Nat.mod_lt (n / d) Nat.two_pos
        omega
  · -- The quotient is exact, so nothing is rounded.
    have whole : n / d * d + n % d ≤ c * d := by rwa [Nat.mul_comm (n / d), split]
    have least : c * d ≤ n / d * d := Nat.mul_le_mul_right d above
    have exact' : n % d = 0 := by omega
    have quotient : n / d = c :=
      Nat.le_antisymm (Nat.le_of_mul_le_mul_right (by omega) positive) above
    unfold roundDiv
    simp only [exact', Nat.mul_zero, if_pos positive, quotient, Nat.le_refl]

namespace Binary64

variable {n d : Nat}

/-- A part of a whole has a full mantissa only below the point. -/
theorem exponentOf_le (le : n ≤ d) : exponentOf n d ≤ -52 := by
  have logs : Nat.log2 n ≤ Nat.log2 d := by
    rw [Nat.log2_eq_log_two, Nat.log2_eq_log_two]
    exact Nat.log_mono_right le
  unfold exponentOf
  simp only
  refine max_le ?_ (by decide)
  split <;> omega

/-- A part of a whole is rounded to a number between zero and one. -/
theorem ofRatio_share (le : n ≤ d) (positive : 0 < d) :
    ∃ q, (ofRatio false n d).toRat? = some q ∧ 0 ≤ q ∧ q ≤ 1 := by
  by_cases none' : n = 0
  · refine ⟨0, ?_, le_refl 0, zero_le_one⟩
    simp only [ofRatio, none', if_true, toRat?, Nat.cast_zero, zero_mul, Bool.false_eq_true, if_false]
  · have low := exponentOf_le le
    obtain ⟨k, hk⟩ : ∃ k : Nat, exponentOf n d = -(k : Int) := ⟨(-exponentOf n d).toNat, by omega⟩
    have down : scaleDown n d (exponentOf n d) = (n * Nat.pow 2 k, d) := by
      rw [scaleDown, if_neg (by omega), hk]
      simp only [Int.neg_neg, Int.toNat_natCast]
    have rounded : roundDiv (n * Nat.pow 2 k) d ≤ 2 ^ k :=
      roundDiv_le positive (by rw [Nat.mul_comm]; exact Nat.mul_le_mul_left _ le)
    have value : (ofRatio false n d).toRat? =
        some ((roundDiv (n * Nat.pow 2 k) d : Nat) * (2 : Rat) ^ exponentOf n d) := by
      unfold ofRatio
      simp only [if_neg none', down]
      split
      · -- A carry leaves the value as it is.
        rename_i carry
        have small : ¬ maxExponent < exponentOf n d + 1 := by unfold maxExponent; omega
        simp only [if_neg small, toRat?, Bool.false_eq_true, if_false, carry]
        rw [zpow_add₀ two_ne_zero, zpow_one, Nat.cast_mul, Nat.cast_two]
        exact congrArg some (by ring)
      · have small : ¬ maxExponent < exponentOf n d := by unfold maxExponent; omega
        simp only [if_neg small, toRat?, Bool.false_eq_true, if_false]
    have unit : (0 : Rat) ≤ 2 ^ exponentOf n d := zpow_nonneg zero_le_two _
    refine ⟨_, value, mul_nonneg (Nat.cast_nonneg _) unit, ?_⟩
    rw [hk, zpow_neg, zpow_natCast, ← div_eq_mul_inv]
    exact div_le_one_of_le₀ (by exact_mod_cast rounded) (pow_nonneg zero_le_two k)

/-! ### Whole numbers -/

@[simp] theorem roundDiv_one (n : Nat) : roundDiv n 1 = n := by
  simp [roundDiv, Nat.mod_one]

theorem scaleDown_whole (n k : Nat) : scaleDown n 1 (-(k : Int)) = (n * 2 ^ k, 1) := by
  rw [scaleDown]
  cases k with
  | zero => simp
  | succ k =>
    rw [if_neg (by omega), Int.neg_neg, Int.toNat_natCast]
    rfl

/-- A natural is scaled up until it has a full mantissa. -/
theorem exponentOf_whole {k : Nat} (digits : Nat.log2 n + k = 52) (positive : n ≠ 0) :
    exponentOf n 1 = -(k : Int) := by
  have one : Nat.log2 1 = 0 := by decide
  have exponent : (Nat.log2 n : Int) - (Nat.log2 1 : Int) - 52 = -(k : Int) := by
    rw [one]
    omega
  have full : fullMantissa ≤ n * 2 ^ k := calc
    fullMantissa = 2 ^ Nat.log2 n * 2 ^ k := by rw [← Nat.pow_add, digits]; rfl
    _ ≤ n * 2 ^ k := Nat.mul_le_mul_right _ (Nat.log2_self_le positive)
  unfold exponentOf
  simp only [exponent, scaleDown_whole, Nat.div_one, if_neg (Nat.not_lt.mpr full)]
  refine max_eq_left ?_
  rw [minExponent]
  omega

/-- Naturals of up to 53 binary digits are doubles. -/
theorem ofRatio_whole (small : n < 2 ^ 53) : (ofRatio false n 1).toRat? = some (n : Rat) := by
  by_cases none' : n = 0
  · simp [ofRatio, none', toRat?]
  · have short : Nat.log2 n ≤ 52 :=
      Nat.le_of_lt_succ ((Nat.log2_lt none').mpr small)
    obtain ⟨k, digits⟩ := Nat.exists_eq_add_of_le short
    have noCarry : n * 2 ^ k ≠ 2 * fullMantissa := by
      refine Nat.ne_of_lt ?_
      calc n * 2 ^ k < 2 ^ (Nat.log2 n + 1) * 2 ^ k :=
            Nat.mul_lt_mul_of_pos_right Nat.lt_log2_self (Nat.two_pow_pos k)
        _ = 2 * fullMantissa := by
            rw [← Nat.pow_add, show Nat.log2 n + 1 + k = 53 by omega]
            rfl
    have inRange : ¬ maxExponent < -(k : Int) := by
      rw [maxExponent]
      omega
    unfold ofRatio
    simp only [if_neg none', exponentOf_whole digits.symm none', scaleDown_whole, roundDiv_one,
      if_neg noCarry, if_neg inRange, toRat?, Bool.false_eq_true, if_false]
    rw [Nat.cast_mul, Nat.cast_pow, Nat.cast_two, zpow_neg, zpow_natCast,
      mul_inv_cancel_right₀ (pow_ne_zero k two_ne_zero)]

end Binary64

end GraphClient
