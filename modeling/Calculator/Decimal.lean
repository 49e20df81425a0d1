import Calculator.Binary64

/-!
# Decimals

A decimal is a natural significand times a power of ten. It is what stands between the text of a
float and its value, in both directions.

* `Decimal.reduced`: the form without trailing zeros, one for each value.
* `Decimal.toFloat`: the nearest double.
* `Decimal.ofBinary`: the decimal that is exactly a finite double.
-/

namespace Calculator

/-- The number `significand · 10 ^ exponent`. -/
structure Decimal where
  significand : Nat
  exponent : Int
  deriving DecidableEq, Repr

namespace Decimal

/-! ## One form for each value -/

/-- Moves trailing zeros of the significand into the exponent. -/
def reduced (d : Decimal) : Decimal :=
  if d.significand = 0 then ⟨0, 0⟩
  else if d.significand % 10 = 0 then reduced ⟨d.significand / 10, d.exponent + 1⟩
  else d
termination_by d.significand

/-- Nothing is left to move. -/
theorem reduced_significand (d : Decimal) :
    d.reduced.significand = 0 ∨ d.reduced.significand % 10 ≠ 0 := by
  fun_induction reduced d with
  | case1 => exact .inl rfl
  | case2 _ _ _ ih => exact ih
  | case3 _ _ h => exact .inr h

/-! ## Doubles -/

/-- The nearest double, of two equally near ones the one with even significand; beyond the range of
    the doubles an infinity or zero. -/
def toFloat (d : Decimal) : Float :=
  .ofModel (.ofScientific d.reduced.significand d.reduced.exponent)

/-- The decimal that is exactly `significand · 2 ^ exponent`: a negative power of two is a power of
    five over one of ten. -/
def ofBinary (significand : Nat) (exponent : Int) : Decimal :=
  if 0 ≤ exponent then ⟨significand * Nat.pow 2 exponent.toNat, 0⟩
  else ⟨significand * Nat.pow 5 (-exponent).toNat, exponent⟩

/-! ## Digits -/

/-- The digits of the significand. -/
def digits (d : Decimal) : List Char := Nat.toDigits 10 d.significand

/-- The power of ten of the first digit. -/
def magnitude (d : Decimal) : Int := d.exponent + (d.digits.length - 1 : Nat)

end Decimal

end Calculator
