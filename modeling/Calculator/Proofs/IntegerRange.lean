import Calculator.Number.Arithmetic
import Mathlib.Algebra.Order.Ring.Int
import Mathlib.Algebra.Ring.Parity

/-!
# The range of the integers

Integers are kept if they fit 64 bits with a sign. Powers are decided without computing those that
cannot fit.

Results:
* `Number.inRange_iff`: the bounds of the range.
* `Number.integerPow_eq`: integer powers are exact, and refused only out of range.
-/

namespace Calculator.Number

theorem inRange_iff {n : ℤ} : InRange n ↔ -2 ^ 63 ≤ n ∧ n ≤ 2 ^ 63 - 1 := by
  unfold InRange
  rw [Int64.toInt_minValue, Int64.toInt_maxValue]

/-! ## Powers -/

theorem not_inRange_pow {base : ℤ} {exponent : ℕ} (hb : 2 ≤ base.natAbs) (he : 64 ≤ exponent) :
    ¬InRange (base ^ exponent) := by
  rw [inRange_iff]
  intro ⟨h1, h2⟩
  have h3 : 2 ^ exponent ≤ (base ^ exponent).natAbs := by
    rw [Int.natAbs_pow]
    exact Nat.pow_le_pow_left hb exponent
  have h4 : 2 ^ 64 ≤ 2 ^ exponent := Nat.pow_le_pow_right (by decide) he
  omega

/-- The shortcuts of `integerPow` change nothing: it is the exact power, if that is in range. -/
theorem integerPow_eq (base : ℤ) (exponent : ℕ) :
    integerPow base exponent = ofInt (base ^ exponent) := by
  unfold integerPow
  split
  · rename_i h
    rcases h with rfl | ⟨rfl, h⟩
    · rw [one_pow]
    · rw [zero_pow h]
  · rename_i h
    split
    · rename_i h1
      simp only [h1, neg_one_pow_eq_ite, Nat.even_iff]
    · rename_i h1
      split
      · rename_i h2
        exact (ofInt_of_not_inRange (not_inRange_pow (by omega) h2.1)).symm
      · rfl

end Calculator.Number
