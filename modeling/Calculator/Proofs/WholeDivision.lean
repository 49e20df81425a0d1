import Calculator.Proofs.ExactIntegers
import Calculator.Proofs.NumberValues

/-!
# Floored division of whole numbers

On whole numbers up to `2 ^ 53` the division of doubles is that of integers: each of its steps has
an exact result that is a double, and so nothing is rounded on the way.

* `Binary64.corrected`: quotient and remainder, moved to the sign of the divisor.
* `Binary64.snapped`: the whole number that a quotient stands for.

Results:
* `value?_corrected`, `value?_snapped`: the two halves of floored division.
* `value?_floorDivMod`: floored division of whole doubles.
* `floorDiv_and_mod_of_whole`: floored division of whole numbers, be they integers or doubles.
-/

namespace Calculator

/-! ## Truncated and floored division -/

section

variable {a b : ℤ}

/-- The floored quotient is below the truncated one where the remainder and the divisor are on two
    sides of zero. -/
theorem fdiv_eq_tdiv_ite (hb : b ≠ 0) :
    a.fdiv b =
      if a.tmod b ≠ 0 ∧ ¬(b < 0 ↔ a.tmod b < 0) then a.tdiv b - 1 else a.tdiv b := by
  have hsign := Int.sign_tmod a b
  rw [Int.fdiv_eq_tdiv]
  by_cases hdvd : b ∣ a
  · rw [if_pos hdvd, if_neg (by simp [Int.dvd_iff_tmod_eq_zero.1 hdvd]), Int.sub_zero]
  · have hrest : a.tmod b ≠ 0 := mt Int.dvd_of_tmod_eq_zero hdvd
    have ha : a ≠ 0 := by
      rintro rfl
      exact hdvd (dvd_zero b)
    rw [if_neg hdvd] at hsign ⊢
    have hneg : a.tmod b < 0 ↔ a < 0 := by
      rw [← Int.sign_eq_neg_one_iff_neg, hsign, Int.sign_eq_neg_one_iff_neg]
    simp only [hneg, ne_eq, hrest, not_false_eq_true, true_and]
    rcases lt_or_gt_of_ne hb with hb | hb
    · rw [Int.sign_eq_neg_one_of_neg hb]
      split_ifs <;> omega
    · rw [Int.sign_eq_one_of_pos hb]
      split_ifs <;> omega

/-- The same of the remainders. -/
theorem fmod_eq_tmod_ite (hb : b ≠ 0) :
    a.fmod b =
      if a.tmod b ≠ 0 ∧ ¬(b < 0 ↔ a.tmod b < 0) then a.tmod b + b else a.tmod b := by
  have hrest := Int.tmod_def a b
  rw [Int.fmod_def, fdiv_eq_tdiv_ite hb]
  split
  · rw [hrest]
    ring
  · rw [hrest]

theorem natAbs_tmod_lt (hb : b ≠ 0) : (a.tmod b).natAbs < b.natAbs := by
  rw [Int.natAbs_tmod]
  exact Nat.mod_lt _ (Int.natAbs_pos.2 hb)

theorem natAbs_fmod_le (hb : b ≠ 0) : (a.fmod b).natAbs ≤ b.natAbs := by
  have hrest := natAbs_tmod_lt (a := a) hb
  rw [fmod_eq_tmod_ite hb]
  split
  · omega
  · exact hrest.le

end

/-! ## Doubles -/

namespace Binary64

/-- Quotient and remainder of floored division, where the quotient is not yet made whole. -/
def corrected (a b : Float) : Float × Float :=
  let truncated := remainder a b
  let ratio := (a - truncated) / b
  if truncated != 0 then
    if (b < 0) != (truncated < 0) then (ratio - 1, truncated + b) else (ratio, truncated)
  else (ratio, zeroLike b)

/-- The whole number that a quotient stands for; for zero, the one with the sign of `limit`. -/
def snapped (quotient limit : Float) : Float :=
  if quotient != 0 then
    let below := floor quotient
    if quotient - below > 0.5 then below + 1 else below
  else zeroLike limit

/-- Floored division is corrected truncated division with the quotient made whole. -/
theorem floorDivMod_eq (a b : Float) :
    floorDivMod a b = (snapped (corrected a b).1 (a / b), (corrected a b).2) := rfl

theorem representable_of_natAbs_le {m n : ℤ} (hm : |m| ≤ 2 ^ 53) (h : n.natAbs ≤ m.natAbs) :
    Representable n := by
  refine representable_intCast ?_
  rw [Int.abs_eq_natAbs] at hm ⊢
  omega

/-- A whole quotient stands for itself. -/
theorem value?_snapped {x : Float} {n : ℤ} (h : value? x = some (n : ℚ)) (limit : Float) :
    value? (snapped x limit) = some (n : ℚ) := by
  have hfloor := value?_floor h
  have hbne := bne_zero_iff h
  unfold snapped
  by_cases hzero : n = 0
  · rw [if_neg (by simp [hbne, hzero]), hzero, Int.cast_zero]
    exact value?_zeroLike limit
  · have hdifference : value? (x - floor x) = some 0 := by
      have hexact := value?_sub h hfloor
      rw [sub_self] at hexact
      exact hexact (.inl rfl)
    rw [if_pos (by simp [hbne, hzero])]
    simp only [if_neg (not_half_lt hdifference)]
    exact hfloor

section

variable {x y : Float} {a b : ℤ}

/-- The quotient without the remainder is whole. -/
theorem value?_ratio (hx : value? x = some (a : ℚ)) (hy : value? y = some (b : ℚ)) (hb : b ≠ 0)
    (ha : |a| ≤ 2 ^ 53) (ht : value? (remainder x y) = some ((a.tmod b : ℤ) : ℚ)) :
    value? ((x - remainder x y) / y) = some ((a.tdiv b : ℤ) : ℚ) := by
  have hmultiple : (a : ℚ) - (a.tmod b : ℤ) = (b * a.tdiv b : ℤ) := by
    rw [Int.tmod_def]
    push_cast
    ring
  have hquotient : ((b * a.tdiv b : ℤ) : ℚ) / b = (a.tdiv b : ℤ) := by
    rw [Int.cast_mul, mul_div_cancel_left₀ _ (by exact_mod_cast hb)]
  have hdifference := value?_sub hx ht
  rw [hmultiple] at hdifference
  have hsmaller : (b * a.tdiv b).natAbs ≤ a.natAbs := by
    rw [Int.natAbs_mul, Int.natAbs_tdiv]
    exact Nat.mul_div_le _ _
  have hexact := hdifference (representable_of_natAbs_le ha hsmaller)
  have hratio := value?_div hexact hy (by exact_mod_cast hb)
  rw [hquotient] at hratio
  exact hratio (representable_of_natAbs_le ha (Int.natAbs_tdiv_le_natAbs a b))

/-- Quotient and remainder are moved to those of floored division. -/
theorem value?_corrected (hx : value? x = some (a : ℚ)) (hy : value? y = some (b : ℚ)) (hb : b ≠ 0)
    (ha : |a| ≤ 2 ^ 53) (hb' : |b| ≤ 2 ^ 53) :
    value? (corrected x y).1 = some ((a.fdiv b : ℤ) : ℚ) ∧
      value? (corrected x y).2 = some ((a.fmod b : ℤ) : ℚ) := by
  have ht := value?_remainder hx hy hb (representable_of_natAbs_le hb' (natAbs_tmod_lt hb).le)
  have hratio := value?_ratio hx hy hb ha ht
  have hquotient := representable_of_natAbs_le ha (Int.natAbs_fdiv_le_natAbs a b)
  have hrest := representable_of_natAbs_le hb' (natAbs_fmod_le (a := a) hb)
  have hbne : remainder x y != 0 ↔ a.tmod b ≠ 0 := by
    rw [bne_zero_iff ht, ne_eq, Int.cast_eq_zero]
  have hsides : (decide (y < 0) != decide (remainder x y < 0)) = true ↔
      ¬(b < 0 ↔ a.tmod b < 0) := by
    rw [bne_iff_ne, ne_eq, decide_eq_decide, lt_zero_iff hy, lt_zero_iff ht, Int.cast_lt_zero,
      Int.cast_lt_zero]
  rw [fdiv_eq_tdiv_ite hb] at hquotient ⊢
  rw [fmod_eq_tmod_ite hb] at hrest ⊢
  simp only [corrected, hbne, hsides]
  by_cases hzero : a.tmod b = 0
  · rw [if_neg (not_not.2 hzero)]
    simp only [hzero, ne_eq, not_true_eq_false, false_and, if_false, Int.cast_zero]
    exact ⟨hratio, value?_zeroLike y⟩
  · rw [if_pos hzero]
    by_cases hsame : b < 0 ↔ a.tmod b < 0
    · rw [if_neg (not_not.2 hsame), if_neg (fun h => h.2 hsame), if_neg (fun h => h.2 hsame)]
      exact ⟨hratio, ht⟩
    · rw [if_pos ⟨hzero, hsame⟩] at hquotient hrest
      rw [if_pos hsame, if_pos ⟨hzero, hsame⟩, if_pos ⟨hzero, hsame⟩, Int.cast_sub, Int.cast_add,
        Int.cast_one]
      rw [Int.cast_sub, Int.cast_one] at hquotient
      rw [Int.cast_add] at hrest
      exact ⟨value?_sub hratio value?_one hquotient, value?_add ht hy hrest⟩

/-- Floored division of whole doubles. -/
theorem value?_floorDivMod (hx : value? x = some (a : ℚ)) (hy : value? y = some (b : ℚ))
    (hb : b ≠ 0) (ha : |a| ≤ 2 ^ 53) (hb' : |b| ≤ 2 ^ 53) :
    value? (floorDivMod x y).1 = some ((a.fdiv b : ℤ) : ℚ) ∧
      value? (floorDivMod x y).2 = some ((a.fmod b : ℤ) : ℚ) := by
  obtain ⟨hquotient, hrest⟩ := value?_corrected hx hy hb ha hb'
  rw [floorDivMod_eq]
  exact ⟨value?_snapped hquotient (x / y), hrest⟩

end

theorem value?_two : value? 2 = some (2 : ℤ) := by
  have htwo : parts 2 = .finite .positive (2 ^ 52) (-51) (by decide) := rfl
  rw [value?_of_finite htwo, dyadic_positive]
  norm_num

end Binary64

/-! ## Numbers -/

namespace Number

section

variable {x y : Number}

/-- With a double among the operands, both are divided as doubles. -/
theorem floorDiv_of_isFloat (h : (x.isFloat || y.isFloat) = true) :
    x.floorDiv y =
      if y.asFloat == 0 then .error .floorDivisionByZero
      else .ok (.float (Binary64.floorDivMod x.asFloat y.asFloat).1) := by
  cases x with
  | float _ => cases y <;> rfl
  | integer _ =>
    cases y with
    | float _ => rfl
    | integer _ => cases h

theorem mod_of_isFloat (h : (x.isFloat || y.isFloat) = true) :
    x.mod y =
      if y.asFloat == 0 then .error .moduloByZero
      else .ok (.float (Binary64.floorDivMod x.asFloat y.asFloat).2) := by
  cases x with
  | float _ => cases y <;> rfl
  | integer _ =>
    cases y with
    | float _ => rfl
    | integer _ => cases h

theorem exists_integer_of_value? {a : ℤ} (hx : x.value? = some (a : ℚ)) (h : x.isFloat = false) :
    ∃ n : Int64, x = .integer n ∧ n.toInt = a := by
  cases x with
  | integer n => exact ⟨n, rfl, by exact_mod_cast Option.some.inj hx⟩
  | float _ => cases h

/-- An integer that is no larger than one up to `2 ^ 53` is in range. -/
theorem exists_ofInt_of_natAbs_le {m n : ℤ} (hm : |m| ≤ 2 ^ 53) (h : n.natAbs ≤ m.natAbs) :
    ∃ v, ofInt n = .ok v ∧ v.value? = some (n : ℚ) ∧ v.isFloat = false := by
  have hrange : InRange n := by
    rw [Int.abs_eq_natAbs] at hm
    rw [inRange_iff]
    omega
  refine ⟨.integer (.ofInt n), if_pos hrange, ?_, rfl⟩
  rw [value?, toInt_ofInt hrange]

/-- **Whole numbers are divided alike as integers and as doubles.** For whole numbers up to
    `2 ^ 53`, floored division succeeds with the floor of their quotient and the remainder that
    belongs to it, and the results are doubles exactly if an operand is one. -/
theorem floorDiv_and_mod_of_whole {a b : ℤ} (ha : |a| ≤ 2 ^ 53) (hb : |b| ≤ 2 ^ 53)
    (hzero : b ≠ 0) (hx : x.value? = some (a : ℚ)) (hy : y.value? = some (b : ℚ)) :
    ∃ q r : Number, x.floorDiv y = .ok q ∧ x.mod y = .ok r ∧
      q.value? = some (⌊(a : ℚ) / b⌋ : ℚ) ∧ r.value? = some ((a : ℚ) - b * ⌊(a : ℚ) / b⌋) ∧
      q.isFloat = (x.isFloat || y.isFloat) ∧ r.isFloat = (x.isFloat || y.isFloat) := by
  have hrest : (a : ℚ) - b * ⌊(a : ℚ) / b⌋ = (a.fmod b : ℤ) := by
    rw [floor_div_eq_fdiv, Int.fmod_def]
    push_cast
    rfl
  rw [hrest, floor_div_eq_fdiv]
  cases hfloat : x.isFloat || y.isFloat with
  | false =>
    obtain ⟨hx', hy'⟩ := Bool.or_eq_false_iff.1 hfloat
    obtain ⟨m, rfl, rfl⟩ := exists_integer_of_value? hx hx'
    obtain ⟨n, rfl, rfl⟩ := exists_integer_of_value? hy hy'
    have hn : n ≠ 0 := by
      rintro rfl
      exact hzero rfl
    obtain ⟨q, hq, hvalue, hinteger⟩ :=
      exists_ofInt_of_natAbs_le ha (Int.natAbs_fdiv_le_natAbs m.toInt n.toInt)
    obtain ⟨r, hr, hvalue', hinteger'⟩ :=
      exists_ofInt_of_natAbs_le hb (natAbs_fmod_le (a := m.toInt) hzero)
    exact ⟨q, r, (if_neg hn).trans hq, (if_neg hn).trans hr, hvalue, hvalue', hinteger, hinteger'⟩
  | true =>
    have hx' := value?_asFloat hx ha
    have hy' := value?_asFloat hy hb
    have hdivisor : ¬y.asFloat == 0 := by
      rw [Binary64.beq_zero_iff hy']
      exact_mod_cast hzero
    obtain ⟨hquotient, hremainder⟩ := Binary64.value?_floorDivMod hx' hy' hzero ha hb
    refine ⟨.float _, .float _, ?_, ?_, hquotient, hremainder, rfl, rfl⟩
    · rw [floorDiv_of_isFloat hfloat, if_neg hdivisor]
    · rw [mod_of_isFloat hfloat, if_neg hdivisor]

/-- The integer `-7` by the double `2.0`, whose truncated quotient is corrected. -/
theorem floorDiv_and_mod_neg_seven_two :
    |(-7 : ℤ)| ≤ 2 ^ 53 ∧ |(2 : ℤ)| ≤ 2 ^ 53 ∧ (2 : ℤ) ≠ 0 ∧
      (Number.integer (-7)).value? = some ((-7 : ℤ) : ℚ) ∧
      (Number.float 2).value? = some ((2 : ℤ) : ℚ) ∧
      ∃ q r : Number, (Number.integer (-7)).floorDiv (.float 2) = .ok q ∧
        (Number.integer (-7)).mod (.float 2) = .ok r ∧
        q.value? = some (⌊((-7 : ℤ) : ℚ) / (2 : ℤ)⌋ : ℚ) ∧
        r.value? = some (((-7 : ℤ) : ℚ) - (2 : ℤ) * ⌊((-7 : ℤ) : ℚ) / (2 : ℤ)⌋) ∧
        q.isFloat = true ∧ r.isFloat = true :=
  have hseven : (Number.integer (-7)).value? = some ((-7 : ℤ) : ℚ) := rfl
  ⟨by decide, by decide, by decide, hseven, Binary64.value?_two,
    floorDiv_and_mod_of_whole (by decide) (by decide) (by decide) hseven Binary64.value?_two⟩

end

end Number

end Calculator
