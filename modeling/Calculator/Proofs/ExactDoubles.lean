import Calculator.Proofs.DoubleValues

/-!
# Exact operations on doubles

An operation on doubles whose exact result is a double gives that result: it is rounded, but there
is nothing to round. Which of the two zeros a zero is does not show in its value.

Results:
* `value?_scaled`: numbers on a grid.
* `value?_add`, `value?_sub`, `value?_div`: sums, differences and quotients.
* `value?_remainder`: the remainder of truncated division of whole numbers.
* `value?_floor`: the floor of a whole number.
-/

namespace Calculator.Binary64

open Float.Model (UnpackedFloat Format totalExponent)
open Float.Model.UnpackedFloat

/-! ## Numbers on a grid -/

section

variable {sign : Sign} {m n : ℕ} {e c : ℤ}

/-- A canonical number is rounded to itself from every grid that it is written on. -/
theorem round_exact (h : Canonical m e) (hv : (n : ℚ) * 2 ^ c = m * 2 ^ e) :
    UnpackedFloat.round Format.binary64 sign n c = .finite sign m e h.pos := by
  rcases Int.le_total c e with hle | hle
  · -- on a finer grid, the significand is shifted back
    obtain ⟨k, rfl, rfl⟩ := exists_units hle hv
    have htotal : totalExponent (m * 2 ^ k) (e - k) = totalExponent m e := by
      rw [totalExponent, totalExponent, log2_mul_two_pow h.pos]
      omega
    have hshift : (e - k - e).toNat = 0 := by omega
    rw [UnpackedFloat.round, htotal, h.target, decreaseExponent, hshift]
    simpa using roundWithAccuracy_exact h k
  · -- from a coarser one, it is shifted to its own first
    obtain ⟨k, rfl, rfl⟩ := exists_units hle hv.symm
    have hn : 0 < n := Nat.pos_of_mul_pos_right h.pos
    have htotal : totalExponent n c = totalExponent (n * 2 ^ k) (c - k) := by
      rw [totalExponent, totalExponent, log2_mul_two_pow hn]
      omega
    have hshift : (c - (c - k)).toNat = k := by omega
    have hround : roundWithAccuracy Format.binary64 sign _ _ _ = _ := roundWithAccuracy_exact h 0
    rw [UnpackedFloat.round, htotal, h.target, decreaseExponent, hshift, Nat.shiftLeft_eq]
    simpa using hround

/-- A number that is not zero is scaled by rounding its size. -/
theorem scaled_apply (hn : 0 < n) (zeroSign : Sign) :
    scaled (sign.apply n) c zeroSign = pack (UnpackedFloat.round Format.binary64 sign n c) := by
  rw [scaled, UnpackedFloat.normalize]
  cases sign with
  | positive =>
    have hcompare : compare (n : ℤ) 0 = .gt := Int.compare_eq_gt.2 (by omega)
    simp only [Sign.apply, hcompare, Int.toNat_natCast]
  | negative =>
    have hcompare : compare (-(n : ℤ)) 0 = .lt := Int.compare_eq_lt.2 (by omega)
    simp only [Sign.apply, hcompare, neg_neg, Int.toNat_natCast]

theorem exists_apply {z : ℤ} (hz : z ≠ 0) : ∃ (sign : Sign) (n : ℕ), 0 < n ∧ z = sign.apply n := by
  rcases Int.natAbs_eq z with h | h
  · exact ⟨.positive, z.natAbs, Int.natAbs_pos.2 hz, h⟩
  · exact ⟨.negative, z.natAbs, Int.natAbs_pos.2 hz, h⟩

/-- A number on a grid that is a double is scaled to this double. -/
theorem value?_scaled {z : ℤ} (zeroSign : Sign) (h : Representable ((z : ℚ) * 2 ^ c)) :
    value? (scaled z c zeroSign) = some ((z : ℚ) * 2 ^ c) := by
  rcases eq_or_ne z 0 with rfl | hz
  · rw [Int.cast_zero, zero_mul]
    exact value?_of_zero (parts_pack_zero zeroSign)
  · obtain ⟨sign, n, hn, rfl⟩ := exists_apply hz
    rcases h with hzero | ⟨sign', m, e, hcanonical, hvalue⟩
    · exact absurd hzero (dyadic_ne_zero hn)
    · obtain ⟨rfl, hsize⟩ := dyadic_inj hn hcanonical.pos hvalue
      rw [scaled_apply hn, round_exact hcanonical hsize, value?_pack hcanonical, hvalue]

end

/-! ## Sums and differences -/

/-- A significand on a finer grid. -/
theorem dyadic_decreaseExponent (sign : Sign) (m : ℕ) {e c : ℤ} (h : c ≤ e) :
    ((sign.apply (decreaseExponent m e c).1 : ℤ) : ℚ) * 2 ^ c = dyadic sign m e := by
  have hsize : (((decreaseExponent m e c).1 : ℕ) : ℚ) * 2 ^ c = m * 2 ^ e := by
    have hshift : ((e - c).toNat : ℤ) = e - c := by omega
    rw [decreaseExponent, Nat.shiftLeft_eq, Nat.cast_mul, Nat.cast_pow, Nat.cast_ofNat,
      ← zpow_natCast, hshift, mul_assoc, ← zpow_add₀ two_ne_zero, sub_add_cancel]
  cases sign with
  | positive => exact hsize
  | negative =>
    rw [dyadic_negative, ← hsize]
    simp [Sign.apply]

section

variable {x y : Float} {p q : ℚ}

/-- A sum that is a double is exact. -/
theorem value?_add (hx : value? x = some p) (hy : value? y = some q) (h : Representable (p + q)) :
    value? (x + y) = some (p + q) := by
  have hsum : x + y = pack (UnpackedFloat.add Format.binary64 (parts x) (parts y)) := rfl
  rcases value?_eq_some_iff.1 hx with ⟨s, hpx, rfl⟩ | ⟨s, m, e, hm, hpx, rfl⟩ <;>
    rcases value?_eq_some_iff.1 hy with ⟨t, hpy, rfl⟩ | ⟨t, n, f, hn, hpy, rfl⟩
  · rw [hsum, hpx, hpy, add_zero]
    cases s <;> cases t <;> exact value?_of_zero (parts_pack_zero _)
  · have hright : UnpackedFloat.add Format.binary64 (.zero s) (.finite t n f hn) = parts y :=
      hpy.symm
    rw [hsum, hpx, hpy, hright, pack_parts, hy, zero_add]
  · have hleft : UnpackedFloat.add Format.binary64 (.finite s m e hm) (.zero t) = parts x :=
      hpx.symm
    rw [hsum, hpx, hpy, hleft, pack_parts, hx, add_zero]
  · have hp := dyadic_decreaseExponent s m (Int.min_le_left e f)
    have hq := dyadic_decreaseExponent t n (Int.min_le_right e f)
    rw [← hp, ← hq, ← add_mul, ← Int.cast_add] at h ⊢
    rw [hsum, hpx, hpy]
    exact value?_scaled .positive h

/-- A difference that is a double is exact. -/
theorem value?_sub (hx : value? x = some p) (hy : value? y = some q) (h : Representable (p - q)) :
    value? (x - y) = some (p - q) := by
  have hdifference : x - y = pack (UnpackedFloat.sub Format.binary64 (parts x) (parts y)) := rfl
  rcases value?_eq_some_iff.1 hx with ⟨s, hpx, rfl⟩ | ⟨s, m, e, hm, hpx, rfl⟩ <;>
    rcases value?_eq_some_iff.1 hy with ⟨t, hpy, rfl⟩ | ⟨t, n, f, hn, hpy, rfl⟩
  · rw [hdifference, hpx, hpy, sub_zero]
    cases s <;> cases t <;> exact value?_of_zero (parts_pack_zero _)
  · rw [hdifference, hpx, hpy, zero_sub, ← dyadic_neg]
    exact value?_pack (canonical_of_parts hpy)
  · have hleft : UnpackedFloat.sub Format.binary64 (.finite s m e hm) (.zero t) = parts x :=
      hpx.symm
    rw [hdifference, hpx, hpy, hleft, pack_parts, hx, sub_zero]
  · have hp := dyadic_decreaseExponent s m (Int.min_le_left e f)
    have hq := dyadic_decreaseExponent t n (Int.min_le_right e f)
    rw [← hp, ← hq, ← sub_mul, ← Int.cast_sub] at h ⊢
    rw [hdifference, hpx, hpy]
    exact value?_scaled .positive h

/-! ## Quotients -/

/-- A quotient that is a double is exact. -/
theorem value?_div (hx : value? x = some p) (hy : value? y = some q) (hq : q ≠ 0)
    (h : Representable (p / q)) : value? (x / y) = some (p / q) := by
  have hquotient : x / y = pack (UnpackedFloat.div Format.binary64 (parts x) (parts y)) := rfl
  rcases value?_eq_some_iff.1 hy with ⟨t, hpy, rfl⟩ | ⟨t, n, f, hn, hpy, rfl⟩
  · exact absurd rfl hq
  · rcases value?_eq_some_iff.1 hx with ⟨s, hpx, rfl⟩ | ⟨s, m, e, hm, hpx, rfl⟩
    · rw [hquotient, hpx, hpy, zero_div]
      exact value?_of_zero (parts_pack_zero _)
    · rcases h with hzero | ⟨u, k, g, hcanonical, hvalue⟩
      · exact absurd hzero (div_ne_zero (dyadic_ne_zero hm) hq)
      · have hproduct := (div_eq_iff hq).1 hvalue
        rw [dyadic_mul] at hproduct
        obtain ⟨rfl, hsize⟩ := dyadic_inj hm (Nat.mul_pos hcanonical.pos hn) hproduct
        have hsign : u * t / t = u := by cases u <;> cases t <;> rfl
        rw [Nat.cast_mul, zpow_add₀ two_ne_zero, mul_mul_mul_comm] at hsize
        rw [hquotient, hpx, hpy, div_exact hcanonical hm hn hsize, hsign, hvalue]
        exact value?_pack hcanonical

/-! ## Whole numbers -/

/-- A remainder is on the grid of its operands. -/
theorem tmod_scaled {m n a b c : ℤ} (hm : (m : ℚ) * 2 ^ c = a) (hn : (n : ℚ) * 2 ^ c = b) :
    ((m.tmod n : ℤ) : ℚ) * 2 ^ c = (a.tmod b : ℤ) := by
  rcases Int.le_total 0 c with hnonneg | hneg
  · obtain ⟨k, rfl⟩ := Int.eq_ofNat_of_zero_le hnonneg
    rw [zpow_natCast] at hm hn ⊢
    have ha : a = 2 ^ k * m := by
      rw [mul_comm]
      exact_mod_cast hm.symm
    have hb : b = 2 ^ k * n := by
      rw [mul_comm]
      exact_mod_cast hn.symm
    rw [ha, hb, Int.mul_tmod_mul_of_pos _ _ (by positivity)]
    push_cast
    ring
  · obtain ⟨k, hk⟩ := Int.eq_ofNat_of_zero_le (Int.neg_nonneg_of_nonpos hneg)
    obtain rfl : c = -k := by omega
    have hpower : (2 : ℚ) ^ k ≠ 0 := by positivity
    rw [zpow_neg, zpow_natCast, mul_inv_eq_iff_eq_mul₀ hpower] at hm hn ⊢
    have hm' : m = 2 ^ k * a := by
      rw [mul_comm]
      exact_mod_cast hm
    have hn' : n = 2 ^ k * b := by
      rw [mul_comm]
      exact_mod_cast hn
    rw [hm', hn', Int.mul_tmod_mul_of_pos _ _ (by positivity)]
    push_cast
    ring

theorem apply_mod (s t : Sign) (m n : ℕ) :
    s.apply (m % n : ℕ) = (s.apply m).tmod (t.apply n) := by
  have hmod : ((m % n : ℕ) : ℤ) = (m : ℤ).tmod n := rfl
  cases s <;> cases t <;> simp only [Sign.apply, hmod, Int.tmod_neg, Int.neg_tmod]

/-- The remainder of truncated division of whole numbers is exact. -/
theorem value?_remainder {a b : ℤ} (hx : value? x = some (a : ℚ)) (hy : value? y = some (b : ℚ))
    (hb : b ≠ 0) (h : Representable (a.tmod b : ℤ)) :
    value? (remainder x y) = some ((a.tmod b : ℤ) : ℚ) := by
  rcases value?_eq_some_iff.1 hy with ⟨t, hpy, hzero⟩ | ⟨t, n, f, hn, hpy, hbv⟩
  · exact absurd (Int.cast_eq_zero.1 hzero) hb
  · rcases value?_eq_some_iff.1 hx with ⟨s, hpx, hzero⟩ | ⟨s, m, e, hm, hpx, hav⟩
    · have hfirst : remainder x y = x := by rw [remainder, hpx, hpy]
      rw [hfirst, hx, Int.cast_eq_zero.1 hzero, Int.zero_tmod]
    · have hp := dyadic_decreaseExponent s m (Int.min_le_left e f)
      have hq := dyadic_decreaseExponent t n (Int.min_le_right e f)
      have hmod := tmod_scaled (hp.trans hav.symm) (hq.trans hbv.symm)
      rw [← apply_mod] at hmod
      rw [← hmod] at h ⊢
      rw [remainder, hpx, hpy]
      exact value?_scaled s h

/-- The floor of a whole number is this number. -/
theorem value?_floor {n : ℤ} (h : value? x = some (n : ℚ)) : value? (floor x) = some (n : ℚ) := by
  have hrepresentable := representable_of_value? h
  rcases value?_eq_some_iff.1 h with ⟨s, hpx, -⟩ | ⟨s, m, e, hm, hpx, hnv⟩
  · have hsame : floor x = x := by rw [floor, hpx]
    rw [hsame, h]
  · rcases Int.lt_or_le e 0 with hneg | hnonneg
    · obtain ⟨k, hk⟩ := Int.eq_ofNat_of_zero_le (Int.neg_nonneg_of_nonpos hneg.le)
      obtain rfl : e = -k := by omega
      have hmultiple : s.apply m = n * (Nat.pow 2 k : ℕ) := by
        rw [dyadic_eq_intCast_iff.1 hnv.symm]
        rfl
      have hscaled : floor x = scaled n 0 s := by
        rw [floor, hpx]
        have hunit : (-(-(k : ℤ))).toNat = k := by omega
        have hfine : ¬0 ≤ -(k : ℤ) := by omega
        simp only [hunit, if_neg hfine, hmultiple]
        rw [Int.mul_ediv_cancel]
        exact_mod_cast (Nat.two_pow_pos k).ne'
      have hunit : (n : ℚ) = (n : ℚ) * 2 ^ (0 : ℤ) := by rw [zpow_zero, mul_one]
      rw [hscaled]
      rw [hunit] at hrepresentable ⊢
      exact value?_scaled s hrepresentable
    · have hsame : floor x = x := by
        rw [floor, hpx]
        exact if_pos hnonneg
      rw [hsame, h]

end

end Calculator.Binary64
