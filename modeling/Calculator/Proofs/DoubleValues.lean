import Calculator.Proofs.Rounding

/-!
# The values of doubles

A finite double is a rational number, and its comparisons with zero and whether it is whole are
those of that number.

* `Binary64.dyadic`: the number of a sign, a significand and an exponent.
* `Binary64.value?`: the number that a double is, if it is finite.
* `Binary64.Representable`: the numbers that are doubles.

Results:
* `value?_eq_some_iff`: the value of a double against its parts.
* `lt_zero_iff`, `beq_zero_iff`, `isIntegral_iff`: what is asked of doubles, said of their values.
* `representable_intCast`: the integers up to `2 ^ 53` are doubles.
-/

namespace Calculator.Binary64

open Float.Model (UnpackedFloat Format)
open Float.Model.UnpackedFloat

/-- The number of a sign, a significand and an exponent. -/
def dyadic (sign : Sign) (significand : ℕ) (exponent : ℤ) : ℚ :=
  (sign.apply significand : ℤ) * 2 ^ exponent

/-- The number that a double is, if it is finite. -/
def value? (x : Float) : Option ℚ :=
  match parts x with
  | .zero _ => some 0
  | .finite sign significand exponent _ => some (dyadic sign significand exponent)
  | .infinity _ | .notANumber => none

/-- The numbers that are doubles. -/
def Representable (q : ℚ) : Prop :=
  q = 0 ∨ ∃ sign m e, Canonical m e ∧ q = dyadic sign m e

section

variable {x : Float} {q : ℚ} {sign : Sign} {m : ℕ} {e : ℤ}

/-! ## Signs -/

theorem dyadic_positive : dyadic .positive m e = m * 2 ^ e := rfl

theorem dyadic_negative : dyadic .negative m e = -(m * 2 ^ e) := by
  simp [dyadic, Sign.apply]

/-- A change of sign. -/
theorem dyadic_neg : dyadic (-sign) m e = -dyadic sign m e := by
  cases sign with
  | positive => exact dyadic_negative
  | negative => exact (neg_eq_iff_eq_neg.2 dyadic_negative).symm

theorem dyadic_mul (s t : Sign) (m n : ℕ) (e f : ℤ) :
    dyadic s m e * dyadic t n f = dyadic (s * t) (m * n) (e + f) := by
  have hsigned : (s * t).apply (m * n : ℕ) = s.apply m * t.apply n := by
    rw [Nat.cast_mul]
    cases s <;> cases t
    · exact (neg_mul_neg _ _).symm
    · exact (neg_mul _ _).symm
    · exact (mul_neg _ _).symm
    · rfl
  rw [dyadic, dyadic, dyadic, hsigned, zpow_add₀ two_ne_zero, Int.cast_mul]
  ring

theorem dyadic_ne_zero (hm : 0 < m) : dyadic sign m e ≠ 0 := by
  have hpos : (0 : ℚ) < m * 2 ^ e := mul_pos (by exact_mod_cast hm) (zpow_pos_two e)
  cases sign with
  | positive => exact hpos.ne'
  | negative =>
    rw [dyadic_negative]
    exact (neg_lt_zero.2 hpos).ne

/-- The sign of a number is that of its parts. -/
theorem dyadic_neg_iff (hm : 0 < m) : dyadic sign m e < 0 ↔ sign = .negative := by
  have hpos : (0 : ℚ) < m * 2 ^ e := mul_pos (by exact_mod_cast hm) (zpow_pos_two e)
  cases sign with
  | positive =>
    simp only [dyadic_positive, reduceCtorEq, iff_false]
    exact hpos.not_gt
  | negative =>
    simp only [dyadic_negative, iff_true]
    exact neg_lt_zero.2 hpos

/-- The sign and the size of a number are those of its parts. -/
theorem dyadic_inj {sign' : Sign} {m' : ℕ} {e' : ℤ} (hm : 0 < m) (hm' : 0 < m')
    (h : dyadic sign m e = dyadic sign' m' e') : sign = sign' ∧ (m : ℚ) * 2 ^ e = m' * 2 ^ e' := by
  have hneg : sign = .negative ↔ sign' = .negative := by
    rw [← dyadic_neg_iff hm, h, dyadic_neg_iff hm']
  cases sign <;> cases sign' <;> simp_all [dyadic_positive, dyadic_negative]

/-! ## Values and parts -/

theorem value?_of_zero (h : parts x = .zero sign) : value? x = some 0 := by
  rw [value?, h]

theorem value?_of_finite {hm : 0 < m} (h : parts x = .finite sign m e hm) :
    value? x = some (dyadic sign m e) := by
  rw [value?, h]

theorem value?_eq_some_iff :
    value? x = some q ↔
      (∃ sign, parts x = .zero sign ∧ q = 0) ∨
        ∃ sign m e, ∃ hm : 0 < m, parts x = .finite sign m e hm ∧ q = dyadic sign m e := by
  constructor
  · intro h
    unfold value? at h
    cases hparts : parts x with
    | zero sign => simp_all
    | finite sign m e hm => exact .inr ⟨sign, m, e, hm, rfl, by simp_all⟩
    | _ => simp_all
  · rintro (⟨sign, hparts, rfl⟩ | ⟨sign, m, e, hm, hparts, rfl⟩)
    · exact value?_of_zero hparts
    · exact value?_of_finite hparts

/-- The value of a double is one of their numbers. -/
theorem representable_of_value? (h : value? x = some q) : Representable q := by
  rcases value?_eq_some_iff.1 h with ⟨-, -, rfl⟩ | ⟨sign, m, e, hm, hparts, rfl⟩
  · exact .inl rfl
  · exact .inr ⟨sign, m, e, canonical_of_parts hparts, rfl⟩

theorem isFinite_iff : x.isFinite ↔ ∃ q, value? x = some q := by
  show (parts x).isFinite ↔ _
  unfold value?
  cases parts x <;> simp [UnpackedFloat.isFinite]

/-- A double that is neither infinite nor not a number has a value. -/
theorem exists_value? (hinf : ¬x.isInf) (hnan : ¬x.isNaN) : ∃ q, value? x = some q := by
  have hinf' : ¬(parts x).isInf := hinf
  have hnan' : ¬(parts x).isNaN := hnan
  unfold value?
  cases hparts : parts x <;> simp_all [UnpackedFloat.isInf, UnpackedFloat.isNaN]

theorem parts_pack_zero (sign : Sign) : parts (pack (.zero sign)) = .zero sign :=
  unpack_packedZero

theorem value?_pack (h : Canonical m e) :
    value? (pack (.finite sign m e h.pos)) = some (dyadic sign m e) :=
  value?_of_finite (parts_pack h)

theorem value?_one : value? 1 = some 1 := by
  have hparts : parts 1 = .finite .positive (2 ^ 52) (-52) (by decide) := rfl
  rw [value?_of_finite hparts, dyadic_positive]
  norm_num

/-- Zero with the sign of a double is zero. -/
theorem value?_zeroLike (x : Float) : value? (zeroLike x) = some 0 :=
  value?_of_zero (parts_pack_zero (signOf x))

/-! ## Comparisons -/

theorem lt_iff {x y : Float} : x < y ↔ (parts x).lt (parts y) = true := decide_eq_true_iff

theorem parts_zero : parts 0 = .zero .positive := rfl

/-- Below zero are the numbers with a negative sign. -/
theorem lt_zero_iff (h : value? x = some q) : x < 0 ↔ q < 0 := by
  rw [lt_iff, parts_zero]
  rcases value?_eq_some_iff.1 h with ⟨sign, hparts, rfl⟩ | ⟨sign, m, e, hm, hparts, rfl⟩
  · rw [hparts]
    simp [UnpackedFloat.lt, UnpackedFloat.compare]
  · rw [hparts, dyadic_neg_iff hm]
    cases sign <;> simp [UnpackedFloat.lt, UnpackedFloat.compare]

/-- Both zeros are zero. -/
theorem beq_zero_iff (h : value? x = some q) : x == 0 ↔ q = 0 := by
  show (parts x).beq (parts 0) = true ↔ _
  rw [parts_zero]
  rcases value?_eq_some_iff.1 h with ⟨sign, hparts, rfl⟩ | ⟨sign, m, e, hm, hparts, rfl⟩
  · rw [hparts]
    simp [UnpackedFloat.beq, UnpackedFloat.compare]
  · rw [hparts, iff_false_right (dyadic_ne_zero hm)]
    cases sign <;> simp [UnpackedFloat.beq, UnpackedFloat.compare]

theorem bne_zero_iff (h : value? x = some q) : x != 0 ↔ q ≠ 0 := by
  rw [bne, Bool.not_eq_true', ← Bool.not_eq_true, beq_zero_iff h]

/-- A zero is not above a half. -/
theorem not_half_lt (h : value? x = some 0) : ¬x > 0.5 := by
  have hhalf : parts 0.5 = .finite .positive (2 ^ 52) (-53) (by decide) := rfl
  show ¬0.5 < x
  rw [lt_iff, hhalf]
  rcases value?_eq_some_iff.1 h with ⟨sign, hparts, -⟩ | ⟨sign, m, e, hm, hparts, hvalue⟩
  · rw [hparts]
    simp [UnpackedFloat.lt, UnpackedFloat.compare]
  · exact absurd hvalue.symm (dyadic_ne_zero hm)

/-! ## Whole numbers -/

/-- Whole numbers on a grid of fractions. -/
theorem dyadic_eq_intCast_iff {k : ℕ} {n : ℤ} :
    dyadic sign m (-k) = n ↔ sign.apply m = n * 2 ^ k := by
  have hpower : (2 : ℚ) ^ k ≠ 0 := by positivity
  rw [dyadic, zpow_neg, zpow_natCast, mul_inv_eq_iff_eq_mul₀ hpower]
  exact_mod_cast Iff.rfl

/-- A significand is a whole number on a grid of whole numbers, or if it is a multiple of the unit
    of a finer one. -/
theorem isIntegral_iff (h : value? x = some q) : isIntegral x ↔ ∃ n : ℤ, q = n := by
  unfold isIntegral
  rcases value?_eq_some_iff.1 h with ⟨sign, hparts, rfl⟩ | ⟨sign, m, e, hm, hparts, rfl⟩
  · rw [hparts]
    exact ⟨fun _ => ⟨0, Int.cast_zero.symm⟩, fun _ => rfl⟩
  · rw [hparts]
    have hdvd : m % Nat.pow 2 (-e).toNat = 0 ↔ (2 : ℤ) ^ (-e).toNat ∣ sign.apply m := by
      rw [← Nat.dvd_iff_mod_eq_zero, ← Int.natCast_dvd_natCast]
      cases sign <;> simp [Sign.apply]
    show (m % Nat.pow 2 (-e).toNat == 0) = true ↔ _
    rw [beq_iff_eq, hdvd]
    rcases Int.le_total 0 e with hnonneg | hneg
    · obtain ⟨k, rfl⟩ := Int.eq_ofNat_of_zero_le hnonneg
      have hunit : (-(k : ℤ)).toNat = 0 := by omega
      rw [hunit, dyadic]
      simp only [pow_zero, one_dvd, true_iff]
      exact ⟨sign.apply m * 2 ^ k, by push_cast; rw [zpow_natCast]⟩
    · obtain ⟨k, hk⟩ := Int.eq_ofNat_of_zero_le (Int.neg_nonneg_of_nonpos hneg)
      obtain rfl : e = -k := by omega
      simp only [neg_neg, Int.toNat_natCast, dyadic_eq_intCast_iff, dvd_iff_exists_eq_mul_left]

/-- The whole part of a whole number is this number. -/
theorem truncated_of_value? {n : ℤ} (h : value? x = some (n : ℚ)) : truncated x = n := by
  rcases value?_eq_some_iff.1 h with ⟨sign, hparts, hzero⟩ | ⟨sign, m, e, hm, hparts, hvalue⟩
  · rw [truncated, hparts, Int.cast_eq_zero.1 hzero]
  · rw [truncated, hparts]
    rcases Int.le_total 0 e with hnonneg | hneg
    · obtain ⟨k, rfl⟩ := Int.eq_ofNat_of_zero_le hnonneg
      have hunit : (-(k : ℤ)).toNat = 0 := by omega
      have hwhole : sign.apply m * 2 ^ k = n := by
        rw [dyadic, zpow_natCast] at hvalue
        exact_mod_cast hvalue.symm
      simp only [hunit, Int.toNat_natCast, Nat.pow_eq, Nat.pow_zero, Nat.div_one]
      rw [← hwhole]
      cases sign <;> simp [Sign.apply]
    · obtain ⟨k, hk⟩ := Int.eq_ofNat_of_zero_le (Int.neg_nonneg_of_nonpos hneg)
      obtain rfl : e = -k := by omega
      have hunit : (-(k : ℤ)).toNat = 0 := by omega
      have hmultiple : sign.apply m = n * 2 ^ k := dyadic_eq_intCast_iff.1 hvalue.symm
      have hquotient : sign.apply (m / 2 ^ k : ℕ) = sign.apply m / 2 ^ k := by
        have hdvd : (2 : ℤ) ^ k ∣ m := by
          cases sign with
          | positive => exact ⟨n, hmultiple.trans (mul_comm _ _)⟩
          | negative => exact (dvd_neg (α := ℤ)).1 ⟨n, hmultiple.trans (mul_comm _ _)⟩
        cases sign with
        | positive => exact Int.natCast_div m (2 ^ k)
        | negative => rw [Sign.apply, Sign.apply, Int.neg_ediv_of_dvd hdvd]; push_cast; rfl
      simp only [hunit, neg_neg, Int.toNat_natCast, Nat.pow_eq, Nat.pow_zero, Nat.mul_one]
      rw [hquotient, hmultiple, Int.mul_ediv_cancel _ (by positivity)]

/-- The natural numbers up to `2 ^ 53` are on a grid of doubles. -/
theorem exists_canonical_natCast {n : ℕ} (hpos : 0 < n) (hle : n ≤ 2 ^ 53) :
    ∃ m e, Canonical m e ∧ (n : ℚ) = m * 2 ^ e := by
  rcases hle.lt_or_eq with hlt | rfl
  · have hlog : n.log2 ≤ 52 := by
      have := (Nat.log2_lt hpos.ne').2 hlt
      omega
    have hlow : 2 ^ n.log2 ≤ n := Nat.log2_self_le hpos.ne'
    have hhigh : n < 2 ^ (n.log2 + 1) := Nat.lt_log2_self
    have hunit : 0 < 2 ^ (52 - n.log2) := Nat.two_pow_pos _
    have hbottom : 2 ^ 52 = 2 ^ n.log2 * 2 ^ (52 - n.log2) := by
      rw [← Nat.pow_add, Nat.add_sub_cancel' hlog]
    have htop : 2 ^ 53 = 2 ^ (n.log2 + 1) * 2 ^ (52 - n.log2) := by
      rw [← Nat.pow_add]
      congr 1
      omega
    refine ⟨n * 2 ^ (52 - n.log2), (n.log2 : ℤ) - 52, ⟨Nat.mul_pos hpos hunit, ?_, by omega,
      by omega, .inl ?_⟩, ?_⟩
    · rw [htop]
      exact Nat.mul_lt_mul_of_pos_right hhigh hunit
    · rw [hbottom]
      exact Nat.mul_le_mul_right _ hlow
    · have hexponent : (n.log2 : ℤ) - 52 = -((52 - n.log2 : ℕ) : ℤ) := by omega
      rw [hexponent, zpow_neg, zpow_natCast]
      push_cast
      field_simp
  · exact ⟨2 ^ 52, 1, ⟨by decide, by decide, by decide, by decide, .inl (by decide)⟩, by norm_num⟩

/-- The integers up to `2 ^ 53` are doubles. -/
theorem representable_intCast {n : ℤ} (h : |n| ≤ 2 ^ 53) : Representable n := by
  rcases eq_or_ne n 0 with rfl | hnonzero
  · exact .inl Int.cast_zero
  · have hle : n.natAbs ≤ 2 ^ 53 := by
      rw [Int.abs_eq_natAbs] at h
      exact_mod_cast h
    obtain ⟨m, e, hcanonical, hvalue⟩ := exists_canonical_natCast (Int.natAbs_pos.2 hnonzero) hle
    refine .inr ?_
    rcases Int.natAbs_eq n with hn | hn
    · refine ⟨.positive, m, e, hcanonical, ?_⟩
      rw [hn, Int.cast_natCast, hvalue, dyadic_positive]
    · refine ⟨.negative, m, e, hcanonical, ?_⟩
      rw [hn, Int.cast_neg, Int.cast_natCast, hvalue, dyadic_negative]

end

end Calculator.Binary64
