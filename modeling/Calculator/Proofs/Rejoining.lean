import Calculator.Proofs.ExactIntegers

/-!
# Quotient and remainder put together again

A number is its floored quotient times the divisor, plus the remainder. Over the unbounded integers
that always holds. Computed step by step, the quotient and the remainder are in range, apart from
the quotient of the least integer and `-1`. But the product of quotient and divisor is the number
less its remainder, a multiple of the divisor below the number or, for a negative divisor, above it,
and near an end of the range it can lie outside. Then the product overflows; otherwise the number
comes out again.

* `Number.rejoin`, `Tree.rejoin`: quotient times divisor, plus remainder, each step checked; and the
  tree that says so.

Results:
* `Number.inRange_fdiv`, `Number.inRange_fmod`: quotients and remainders are in range.
* `rejoin_eq`: what rejoining gives, with `rejoin_overflows` where it is not the number itself.
-/

namespace Calculator

/-! ## Quotients and remainders -/

/-- A remainder lies between zero and the divisor. -/
theorem fmod_between {a b : ℤ} (hb : b ≠ 0) :
    0 ≤ a.fmod b ∧ a.fmod b < b ∨ b < a.fmod b ∧ a.fmod b ≤ 0 := by
  rcases lt_or_gt_of_ne hb with hneg | hpos
  · -- both signs turned round, the divisor is positive
    have hnonneg := Int.fmod_nonneg_of_pos (-a) (Int.neg_pos_of_neg hneg)
    have hlt := Int.fmod_lt_of_pos (-a) (Int.neg_pos_of_neg hneg)
    rw [Int.neg_fmod_neg] at hnonneg hlt
    right
    constructor <;> omega
  · exact .inl ⟨Int.fmod_nonneg_of_pos a hpos, Int.fmod_lt_of_pos a hpos⟩

namespace Number

theorem inRange_fmod {a b : ℤ} (hbound : InRange b) (hb : b ≠ 0) : InRange (a.fmod b) := by
  have hbetween := fmod_between (a := a) hb
  rw [inRange_iff] at hbound ⊢
  omega

/-- A quotient is in range, unless it is that of the least integer and `-1`. -/
theorem inRange_fdiv {a b : ℤ} (ha : InRange a) (hb : b ≠ 0)
    (hleast : ¬(a = -2 ^ 63 ∧ b = -1)) : InRange (a.fdiv b) := by
  have hle : (a.fdiv b).natAbs ≤ a.natAbs := Int.natAbs_fdiv_le_natAbs a b
  rw [inRange_iff] at ha ⊢
  have htop : a.fdiv b ≠ 2 ^ 63 := by
    intro htop
    have hsum : b * a.fdiv b + a.fmod b = a := Int.mul_fdiv_add_fmod a b
    have hbetween := fmod_between (a := a) hb
    rw [htop] at hsum hle
    omega
  omega

/-! ## Rejoining -/

/-- The floored quotient times the divisor, plus the remainder, each step checked. -/
def rejoin (a b : Number) : Except MathError Number := do
  let quotient ← a.floorDiv b
  let product ← quotient.mul b
  let remainder ← a.mod b
  product.add remainder

/-- Rejoining two integers is decided by the product alone. -/
theorem rejoin_integer {a b : Int64} (hb : b ≠ 0) (hleast : ¬(a = Int64.minValue ∧ b = -1)) :
    rejoin (.integer a) (.integer b) =
      if InRange (a.toInt.fdiv b.toInt * b.toInt) then .ok (.integer a) else .error .overflow := by
  have hb' : b.toInt ≠ 0 := by
    intro hzero
    exact hb (Int64.toInt_inj.1 hzero)
  have hleast' : ¬(a.toInt = -2 ^ 63 ∧ b.toInt = -1) := by
    rintro ⟨ha, hminus⟩
    exact hleast ⟨Int64.toInt_inj.1 ha, Int64.toInt_inj.1 hminus⟩
  obtain ⟨quotient, hquotient⟩ : ∃ q : Int64, q.toInt = a.toInt.fdiv b.toInt :=
    ⟨_, toInt_ofInt (inRange_fdiv (inRange_toInt a) hb' hleast')⟩
  obtain ⟨remainder, hremainder⟩ : ∃ r : Int64, r.toInt = a.toInt.fmod b.toInt :=
    ⟨_, toInt_ofInt (inRange_fmod (inRange_toInt b) hb')⟩
  have hdivide : floorDiv (.integer a) (.integer b) = .ok (.integer quotient) := by
    rw [floorDiv, if_neg hb, ← hquotient, ofInt_toInt]
  have hmodulo : mod (.integer a) (.integer b) = .ok (.integer remainder) := by
    rw [mod, if_neg hb, ← hremainder, ofInt_toInt]
  have hmul : mul (.integer quotient) (.integer b) = ofInt (a.toInt.fdiv b.toInt * b.toInt) := by
    rw [mul, hquotient]
  simp only [rejoin, hdivide, hmodulo, bind, Except.bind, hmul]
  by_cases hfits : InRange (a.toInt.fdiv b.toInt * b.toInt)
  · have hsum : a.toInt.fdiv b.toInt * b.toInt + a.toInt.fmod b.toInt = a.toInt := by
      rw [mul_comm]
      exact Int.mul_fdiv_add_fmod a.toInt b.toInt
    rw [if_pos hfits, ofInt, if_pos hfits]
    simp only [add, toInt_ofInt hfits, hremainder, hsum, ofInt_toInt]
  · rw [if_neg hfits, ofInt_of_not_inRange hfits]

end Number

namespace Tree

/-- The floored quotient of two trees times the second one, plus the remainder. -/
def rejoin (a b : Tree) : Tree :=
  .binary (.binary (.binary a .floorDivide b) .multiply b) .add (.binary a .modulo b)

theorem evaluate_rejoin (a b : Int64) :
    (rejoin (.constant (.integer a)) (.constant (.integer b))).evaluate =
      liftMath (Number.rejoin (.integer a) (.integer b)) := by
  have hvalue (t : Tree) : t.evaluate = t.value := run_nil (.tree t)
  rw [hvalue, Number.rejoin]
  simp only [rejoin, value, Constant.toNumber, Operator.apply, bind, Except.bind]
  cases (Number.integer a).floorDiv (.integer b) with
  | error failure => rfl
  | ok quotient =>
    dsimp only [liftMath]
    cases quotient.mul (.integer b) with
    | error failure => rfl
    | ok product => cases (Number.integer a).mod (.integer b) <;> rfl

end Tree

/-- **Quotient and remainder make up the number again, unless their product overflows.** For every
    integer and every divisor but zero, apart from the one quotient that is out of range: the
    result is the number itself if the quotient times the divisor is in range, and an overflow
    otherwise. -/
theorem rejoin_eq {a b : Int64} (hb : b ≠ 0) (hleast : ¬(a = Int64.minValue ∧ b = -1)) :
    (-2 ^ 63 ≤ ⌊(a.toInt : ℚ) / b.toInt⌋ * b.toInt ∧
        ⌊(a.toInt : ℚ) / b.toInt⌋ * b.toInt ≤ 2 ^ 63 - 1 →
      Number.rejoin (.integer a) (.integer b) = .ok (.integer a) ∧
        (Tree.rejoin (.constant (.integer a)) (.constant (.integer b))).evaluate =
          .ok (.integer a)) ∧
    (¬(-2 ^ 63 ≤ ⌊(a.toInt : ℚ) / b.toInt⌋ * b.toInt ∧
        ⌊(a.toInt : ℚ) / b.toInt⌋ * b.toInt ≤ 2 ^ 63 - 1) →
      Number.rejoin (.integer a) (.integer b) = .error .overflow ∧
        (Tree.rejoin (.constant (.integer a)) (.constant (.integer b))).evaluate =
          .error (.math .overflow)) := by
  rw [floor_div_eq_fdiv, ← Number.inRange_iff, Tree.evaluate_rejoin,
    Number.rejoin_integer hb hleast]
  constructor
  · intro hfits
    rw [if_pos hfits]
    exact ⟨rfl, rfl⟩
  · intro hout
    rw [if_neg hout]
    exact ⟨rfl, rfl⟩

/-- The least integer is made up again from its quotient and remainder by `-3`, but not from those
    by `3`. -/
theorem rejoin_eq_least :
    Number.rejoin (.integer Int64.minValue) (.integer (-3)) = .ok (.integer Int64.minValue) ∧
      Number.rejoin (.integer Int64.minValue) (.integer 3) = .error .overflow := by
  obtain ⟨hfits, -⟩ := rejoin_eq (a := Int64.minValue) (b := -3) (by decide) (by decide)
  obtain ⟨-, hout⟩ := rejoin_eq (a := Int64.minValue) (b := 3) (by decide) (by decide)
  refine ⟨(hfits ?_).1, (hout ?_).1⟩
  · rw [floor_div_eq_fdiv]
    decide
  · rw [floor_div_eq_fdiv]
    decide

/-- The quotient of the greatest integer and `-2` is rounded down, and its product with `-2` lies
    just outside of the range. -/
theorem rejoin_overflows :
    ((-2 : Int64) ≠ 0 ∧ ¬(Int64.maxValue = Int64.minValue ∧ (-2 : Int64) = -1)) ∧
      Number.rejoin (.integer Int64.maxValue) (.integer (-2)) ≠ .ok (.integer Int64.maxValue) := by
  decide

end Calculator
