import Calculator.Binary64
import Calculator.Rejection

/-!
# Numbers

A number is a 64-bit integer or a double. Integers are computed exactly and then checked against
their range, so that an integer result is never wrapped.

* `Number.ofInt`: an integer, if it is in range.
* `Number.asFloat`: the nearest double.
* `Number.isIntegral`: integers and doubles without fractional part.
-/

namespace Calculator

/-- The value of an expression. -/
inductive Number where
  | integer (value : Int64)
  | float (value : Float)
  deriving DecidableEq

namespace Number

/-- The integers that fit 64 bits with a sign. -/
def InRange (n : Int) : Prop := Int64.minValue.toInt ≤ n ∧ n ≤ Int64.maxValue.toInt

instance (n : Int) : Decidable (InRange n) := by
  unfold InRange; infer_instance

/-- The integer `n`, unless it is out of range. -/
def ofInt (n : Int) : Except MathError Number :=
  if InRange n then .ok (.integer (.ofInt n)) else .error .overflow

/-- The nearest double. -/
def asFloat : Number → Float
  | .integer n => Binary64.ofInt n.toInt
  | .float x => x

/-- True of integers, and of finite doubles without fractional part. -/
def isIntegral : Number → Bool
  | .integer _ => true
  | .float x => Binary64.isIntegral x

/-! ## Range -/

theorem inRange_toInt (n : Int64) : InRange n.toInt :=
  ⟨n.minValue_le_toInt, n.toInt_le⟩

theorem toInt_ofInt {n : Int} (h : InRange n) : (Int64.ofInt n).toInt = n := by
  obtain ⟨hmin, hmax⟩ := h
  rw [Int64.toInt_minValue] at hmin
  rw [Int64.toInt_maxValue] at hmax
  exact Int64.toInt_ofInt_of_le hmin (by omega)

theorem ofInt_eq_ok_iff {n : Int} {v : Number} :
    ofInt n = .ok v ↔ ∃ m : Int64, v = .integer m ∧ m.toInt = n := by
  unfold ofInt
  constructor
  · intro h
    split at h
    · rename_i hn
      cases h
      exact ⟨_, rfl, toInt_ofInt hn⟩
    · cases h
  · rintro ⟨m, rfl, rfl⟩
    rw [if_pos (inRange_toInt m), Int64.ofInt_toInt]

theorem ofInt_toInt (n : Int64) : ofInt n.toInt = .ok (.integer n) :=
  ofInt_eq_ok_iff.2 ⟨n, rfl, rfl⟩

theorem ofInt_of_not_inRange {n : Int} (h : ¬InRange n) : ofInt n = .error .overflow :=
  if_neg h

end Number

end Calculator
