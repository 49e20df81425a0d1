import Calculator.Proofs.ExactDoubles
import Calculator.Proofs.IntegerRange

/-!
# The values of numbers

An integer is its own value. The double nearest to it is this integer up to `2 ^ 53`, and an even
integer of the same sign beyond: the grid of the doubles is too coarse for odd ones there.

* `Number.value?`: the number that an integer or a finite double is.
* `Number.isFloat`: whether a number is a double.

Results:
* `Binary64.value?_ofInt`: the integers up to `2 ^ 53` are kept.
* `Binary64.exists_even_value?_ofInt`: the other ones of 64 bits become even.
* `Number.exists_value?_asFloat`: a number and its double have the same sign and are both whole or
  both fractional.
-/

namespace Calculator

namespace Binary64

open Float.Model (UnpackedFloat Format totalExponent)
open Float.Model.UnpackedFloat

/-! ## Small integers -/

/-- The integers up to `2 ^ 53` are kept. -/
theorem value?_ofInt {n : ℤ} (h : |n| ≤ 2 ^ 53) : value? (ofInt n) = some (n : ℚ) := by
  have hunit : (n : ℚ) = (n : ℚ) * 2 ^ (0 : ℤ) := by rw [zpow_zero, mul_one]
  have hrepresentable := representable_intCast h
  rw [hunit] at hrepresentable ⊢
  exact value?_scaled .positive hrepresentable

/-! ## Large integers -/

/-- A significand is halved at each shift. -/
theorem mantissa_shiftRight (m k : ℕ) (roundBit stickyBit : Bool) :
    (ExtendedMantissa.mk m roundBit stickyBit >>> k).mantissa = m / 2 ^ k := by
  induction k with
  | zero => rw [Nat.pow_zero, Nat.div_one]; rfl
  | succ k ih =>
    have hstep : (ExtendedMantissa.mk m roundBit stickyBit >>> (k + 1)) =
        (ExtendedMantissa.mk m roundBit stickyBit >>> k).shiftRightOne := by
      rfl
    rw [hstep, ExtendedMantissa.shiftRightOne, ih, Nat.div_div_eq_div_mul, Nat.pow_succ]

/-- A significand is rounded to itself or to the next one. -/
theorem roundedMantissa_between (extended : ExtendedMantissa) :
    extended.mantissa ≤ extended.roundedMantissa ∧
      extended.roundedMantissa ≤ extended.mantissa + 1 := by
  obtain ⟨m, roundBit, stickyBit⟩ := extended
  cases roundBit <;> cases stickyBit <;>
    simp only [ExtendedMantissa.roundedMantissa, ExtendedMantissa.accuracy,
      Accuracy.roundToNearestEven] <;> omega

/-- A significand of 53 places or the first of 54 is a canonical one. -/
theorem exists_canonical_rounded {r : ℕ} {e : ℤ} (hlow : 2 ^ 52 ≤ r) (hhigh : r ≤ 2 ^ 53)
    (hleast : 1 ≤ e) (hgreatest : e ≤ 970) :
    ∃ (m : ℕ) (f : ℤ) (k : ℕ), Canonical m f ∧ r = m * 2 ^ k ∧ e = f - k ∧ 1 ≤ f := by
  rcases hhigh.lt_or_eq with hlt | rfl
  · exact ⟨r, e, 0, ⟨by omega, hlt, by omega, by omega, .inl hlow⟩, by omega, by omega, hleast⟩
  · exact ⟨2 ^ 52, e + 1, 1, ⟨by decide, by decide, by omega, by omega, .inl (by decide)⟩,
      by decide, by omega, by omega⟩

/-- From `2 ^ 53` on, an integer is rounded to a multiple of two. -/
theorem round_large (sign : Sign) {n : ℕ} (hlow : 2 ^ 53 ≤ n) (hhigh : n < 2 ^ 64) :
    ∃ (m : ℕ) (e : ℤ) (h : Canonical m e), 1 ≤ e ∧
      UnpackedFloat.round Format.binary64 sign n 0 = .finite sign m e h.pos := by
  have hn : n ≠ 0 := by omega
  have hlog : 53 ≤ n.log2 := (Nat.le_log2 hn).2 hlow
  have hlog' : n.log2 < 64 := (Nat.log2_lt hn).2 hhigh
  obtain ⟨k, hk⟩ := Nat.exists_eq_add_of_le (show 52 ≤ n.log2 by omega)
  have htarget : Format.binary64.targetExponent (totalExponent n 0) = k := by
    rw [targetExponent_eq, totalExponent, hk]
    omega
  have hplaces : 2 ^ 52 ≤ n / 2 ^ k ∧ n / 2 ^ k < 2 ^ 53 := by
    have hpower : 2 ^ 52 * 2 ^ k ≤ n := by
      rw [← Nat.pow_add, ← hk]
      exact Nat.log2_self_le hn
    have hpower' : n < 2 ^ 53 * 2 ^ k := by
      have hnext : 2 ^ 53 * 2 ^ k = 2 ^ (n.log2 + 1) := by
        rw [← Nat.pow_add, hk]
        congr 1
        omega
      rw [hnext]
      exact Nat.lt_log2_self
    exact ⟨(Nat.le_div_iff_mul_le (Nat.two_pow_pos k)).2 hpower,
      (Nat.div_lt_iff_lt_mul (Nat.two_pow_pos k)).2 hpower'⟩
  have hshift : shiftToTargetExponent Format.binary64 n 0 .exact =
      (ExtendedMantissa.mk n false false >>> k, (k : ℤ)) := by
    rw [shiftToTargetExponent, htarget, shiftToExponent, Int.sub_zero, Int.toNat_natCast,
      Int.zero_add]
    rfl
  have hrounded := roundedMantissa_between (ExtendedMantissa.mk n false false >>> k)
  rw [mantissa_shiftRight] at hrounded
  generalize hr : (ExtendedMantissa.mk n false false >>> k).roundedMantissa = r at hrounded
  obtain ⟨m, e, j, hcanonical, hmr, hke, he⟩ := exists_canonical_rounded (r := r) (e := k)
    (by omega) (by omega) (by omega) (by omega)
  refine ⟨m, e, hcanonical, he, ?_⟩
  have hagain := shiftToTargetExponent_exact hcanonical j
  have hsame : decreaseExponent n 0 k = (n, 0) := by
    have hamount : (0 - (k : ℤ)).toNat = 0 := by omega
    rw [decreaseExponent, hamount]
    rfl
  rw [UnpackedFloat.round, htarget, hsame]
  unfold roundWithAccuracy
  simp only [hshift, hr, hmr, hke, hagain]
  rw [dif_neg hcanonical.pos.ne']

/-- A number on a grid of even numbers is even. -/
theorem exists_even_dyadic (sign : Sign) (m : ℕ) {e : ℤ} (h : 1 ≤ e) :
    ∃ z : ℤ, dyadic sign m e = z ∧ Even z := by
  obtain ⟨k, hk⟩ := Int.eq_ofNat_of_zero_le (Int.sub_nonneg_of_le h)
  obtain rfl : e = k + 1 := by omega
  refine ⟨sign.apply m * 2 ^ (k + 1), ?_, ⟨sign.apply m * 2 ^ k, by ring⟩⟩
  rw [dyadic]
  push_cast
  rw [← zpow_natCast]
  push_cast
  rfl

/-- From `2 ^ 53` on, the integers become even ones of the same sign. -/
theorem exists_even_value?_ofInt {n : ℤ} (hlow : 2 ^ 53 ≤ |n|) (hhigh : |n| < 2 ^ 64) :
    ∃ z : ℤ, value? (ofInt n) = some (z : ℚ) ∧ Even z ∧ z ≠ 0 ∧ (z < 0 ↔ n < 0) := by
  have hn : n ≠ 0 := by
    rintro rfl
    exact absurd hlow (by decide)
  obtain ⟨sign, k, hk, rfl⟩ := exists_apply hn
  have habs : |sign.apply (k : ℤ)| = k := by
    cases sign with
    | positive => exact Nat.abs_cast k
    | negative => rw [Sign.apply, abs_neg, Nat.abs_cast]
  rw [habs] at hlow hhigh
  obtain ⟨m, e, h, he, hround⟩ :=
    round_large sign (by exact_mod_cast hlow) (by exact_mod_cast hhigh)
  obtain ⟨z, hz, heven⟩ := exists_even_dyadic sign m he
  refine ⟨z, ?_, heven, ?_, ?_⟩
  · rw [ofInt, scaled_apply hk, hround, value?_pack h, hz]
  · have hnonzero : dyadic sign m e ≠ 0 := dyadic_ne_zero h.pos
    rw [hz] at hnonzero
    exact_mod_cast hnonzero
  · have hneg : dyadic sign m e < 0 ↔ sign = .negative := dyadic_neg_iff h.pos
    rw [hz, Int.cast_lt_zero] at hneg
    rw [hneg]
    cases sign <;> simp [Sign.apply, hk]

/-- An integer of 64 bits becomes an integer of the same sign, and stays odd up to `2 ^ 53`. -/
theorem exists_value?_ofInt {n : ℤ} (h : |n| < 2 ^ 64) :
    ∃ z : ℤ, value? (ofInt n) = some (z : ℚ) ∧ (z < 0 ↔ n < 0) ∧ (z = 0 ↔ n = 0) ∧
      (Odd z ↔ Odd n ∧ |n| ≤ 2 ^ 53) := by
  rcases le_or_gt |n| (2 ^ 53) with hle | hgt
  · exact ⟨n, value?_ofInt hle, Iff.rfl, Iff.rfl, (and_iff_left hle).symm⟩
  · obtain ⟨z, hvalue, heven, hz, hneg⟩ := exists_even_value?_ofInt hgt.le h
    have hn : n ≠ 0 := by
      rintro rfl
      exact absurd hgt (by decide)
    refine ⟨z, hvalue, hneg, iff_of_false hz hn, iff_of_false ?_ ?_⟩
    · exact Int.not_odd_iff_even.2 heven
    · exact fun hodd => absurd hodd.2 hgt.not_ge

end Binary64

namespace Number

/-- The number that an integer or a finite double is. -/
def value? : Number → Option ℚ
  | .integer n => some n.toInt
  | .float x => Binary64.value? x

/-- Whether a number is a double. -/
def isFloat : Number → Bool
  | .integer _ => false
  | .float _ => true

theorem abs_toInt_lt (n : Int64) : |n.toInt| < 2 ^ 64 := by
  obtain ⟨hlow, hhigh⟩ := inRange_iff.1 (inRange_toInt n)
  rw [abs_lt]
  omega

variable {a : Number}

/-- The whole numbers up to `2 ^ 53` are kept as doubles. -/
theorem value?_asFloat {n : ℤ} (ha : a.value? = some (n : ℚ)) (h : |n| ≤ 2 ^ 53) :
    Binary64.value? a.asFloat = some (n : ℚ) := by
  cases a with
  | integer k =>
    have hk : k.toInt = n := by exact_mod_cast Option.some.inj ha
    rw [← hk] at h ⊢
    exact Binary64.value?_ofInt h
  | float x => exact ha

/-- A number and its double have the same sign and are both whole or both fractional. -/
theorem exists_value?_asFloat {p : ℚ} (ha : a.value? = some p) :
    ∃ q, Binary64.value? a.asFloat = some q ∧ (q < 0 ↔ p < 0) ∧ (q = 0 ↔ p = 0) ∧
      ((∃ n : ℤ, q = n) ↔ ∃ n : ℤ, p = n) := by
  cases a with
  | integer k =>
    obtain rfl : (k.toInt : ℚ) = p := Option.some.inj ha
    obtain ⟨z, hvalue, hneg, hzero, -⟩ := Binary64.exists_value?_ofInt (abs_toInt_lt k)
    refine ⟨z, hvalue, ?_, ?_, iff_of_true ⟨z, rfl⟩ ⟨k.toInt, rfl⟩⟩
    · exact_mod_cast hneg
    · exact_mod_cast hzero
  | float x => exact ⟨p, ha, Iff.rfl, Iff.rfl, Iff.rfl⟩

end Number

end Calculator
