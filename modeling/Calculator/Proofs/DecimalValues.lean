import Calculator.Decimal.Shortest
import Calculator.Proofs.Rounding

/-!
# The values of decimals

Decimals of the same value are read as the same double, since trailing zeros are removed first. So
the decimal that is exactly a double reads back as this double, and the shortest one that is found
does so by the way in which it is found.

* `Decimal.value`: the number that a decimal is.

Results:
* `Decimal.reduced_eq_of_value_eq`: there is one reduced decimal for each value.
* `Decimal.toFloat_exact`: a decimal that is a double is read as this double.
* `Decimal.toFloat_shortest`: the shortest decimal for a double is read as this double.
* `Decimal.bounded_shortest`: how long it can be.
-/

namespace Calculator.Decimal

open Binary64 (Canonical)

/-- The number that a decimal is. -/
def value (d : Decimal) : ℚ := d.significand * 10 ^ d.exponent

/-! ## Reduced decimals -/

theorem ten_zpow_pos (n : ℤ) : (0 : ℚ) < 10 ^ n := zpow_pos (by norm_num) n

theorem value_zero (e : ℤ) : value ⟨0, e⟩ = 0 := by
  rw [value, Nat.cast_zero, zero_mul]

/-- A zero at the end of the significand is a power of ten more. -/
theorem value_mul_ten_pow (n k : ℕ) (e : ℤ) : value ⟨n * 10 ^ k, e⟩ = value ⟨n, e + k⟩ := by
  rw [value, value, Nat.cast_mul, Nat.cast_pow, zpow_add₀ (by norm_num), zpow_natCast]
  push_cast
  ring

theorem value_reduced (d : Decimal) : d.reduced.value = d.value := by
  fun_induction reduced d with
  | case1 d hzero =>
    obtain ⟨significand, exponent⟩ := d
    dsimp only at hzero
    rw [hzero, value_zero, value_zero]
  | case2 d hnonzero hten ih =>
    have hsignificand : d.significand / 10 * 10 ^ 1 = d.significand := by omega
    rw [ih]
    exact (value_mul_ten_pow (d.significand / 10) 1 d.exponent).symm.trans
      (by rw [hsignificand])
  | case3 => rfl

/-- Decimals without trailing zeros are the same if they are the same number. -/
theorem eq_of_value_eq {c d : Decimal} (hc : c.significand % 10 ≠ 0) (hd : d.significand % 10 ≠ 0)
    (hle : c.exponent ≤ d.exponent) (hv : c.value = d.value) : c = d := by
  obtain ⟨m, e⟩ := c
  obtain ⟨n, f⟩ := d
  obtain ⟨k, hk⟩ := Int.eq_ofNat_of_zero_le (Int.sub_nonneg_of_le hle)
  obtain rfl : f = e + k := by
    dsimp only at hk
    omega
  rw [← value_mul_ten_pow] at hv
  have hm : m = n * 10 ^ k := by
    have hcancel := mul_right_cancel₀ (ten_zpow_pos e).ne' hv
    exact_mod_cast hcancel
  cases k with
  | zero => simp [hm]
  | succ k =>
    rw [Nat.pow_succ, ← Nat.mul_assoc] at hm
    dsimp only at hc
    omega

theorem value_eq_zero_iff {d : Decimal} : d.value = 0 ↔ d.significand = 0 := by
  rw [value, mul_eq_zero, Nat.cast_eq_zero, or_iff_left (ten_zpow_pos d.exponent).ne']

/-- There is one reduced decimal for each value. -/
theorem reduced_eq_of_value_eq {c d : Decimal} (h : c.value = d.value) :
    c.reduced = d.reduced := by
  have hzero : c.significand = 0 ↔ d.significand = 0 := by
    rw [← value_eq_zero_iff, h, value_eq_zero_iff]
  by_cases hc : c.significand = 0
  · rw [reduced, if_pos hc, reduced, if_pos (hzero.1 hc)]
  · have htrimmed {b : Decimal} (hb : b.significand ≠ 0) : b.reduced.significand % 10 ≠ 0 := by
      refine b.reduced_significand.resolve_left fun hreduced => hb ?_
      rw [← value_eq_zero_iff, ← b.value_reduced, value_eq_zero_iff, hreduced]
    have hc' := htrimmed hc
    have hd' := htrimmed (mt hzero.2 hc)
    have hv : c.reduced.value = d.reduced.value := by rw [value_reduced, value_reduced, h]
    rcases Int.le_total c.reduced.exponent d.reduced.exponent with hle | hle
    · exact eq_of_value_eq hc' hd' hle hv
    · exact (eq_of_value_eq hd' hc' hle hv.symm).symm

/-! ## Reading -/

/-- Decimals that are the same number are read as the same double. -/
theorem toFloat_eq_of_value_eq {c d : Decimal} (h : c.value = d.value) :
    c.toFloat = d.toFloat := by
  rw [toFloat, toFloat, reduced_eq_of_value_eq h]

theorem toFloat_reduced (d : Decimal) : d.reduced.toFloat = d.toFloat :=
  toFloat_eq_of_value_eq d.value_reduced

section

variable {m : ℕ} {e : ℤ}

/-- A decimal that is a double is read as this double. -/
theorem toFloat_exact (h : Canonical m e) {d : Decimal} (hv : d.value = m * 2 ^ e) :
    d.toFloat = Binary64.pack (.finite .positive m e h.pos) := by
  rw [← value_reduced, value] at hv
  exact congrArg Binary64.pack (Binary64.ofScientific_exact h hv)

theorem value_ofBinary (m : ℕ) (e : ℤ) : (ofBinary m e).value = m * 2 ^ e := by
  unfold ofBinary
  split
  · rename_i hnonneg
    obtain ⟨n, rfl⟩ := Int.eq_ofNat_of_zero_le hnonneg
    simp [value]
  · rename_i hneg
    obtain ⟨n, hn⟩ := Int.eq_ofNat_of_zero_le (by omega : 0 ≤ -e)
    obtain rfl : e = -n := by omega
    have hsplit : (10 : ℚ) ^ n = 5 ^ n * 2 ^ n := by rw [← mul_pow]; norm_num
    simp only [value, neg_neg, Int.toNat_natCast, Nat.pow_eq, Nat.cast_mul, Nat.cast_pow, zpow_neg,
      zpow_natCast, Nat.cast_ofNat, hsplit]
    field_simp

/-! ## The shortest decimal -/

/-- **The shortest decimal for a double is read as this double.** -/
theorem toFloat_shortest (h : Canonical m e) :
    (shortest m e).toFloat = Binary64.pack (.finite .positive m e h.pos) := by
  have hexact := toFloat_exact h (value_ofBinary m e)
  unfold shortest
  rw [toFloat_reduced]
  cases hshortened : shortened? (Binary64.scaled m e .positive) (ofBinary m e)
      (ofBinary 1 e).significand with
  | none => exact hexact
  | some c => exact (toFloat_shortened? hshortened).trans (Binary64.scaled_canonical h .positive)

end

/-! ## Lengths -/

/-- The decimals that the shortest ones are among: not more digits than the exact decimal of a
    double can have, and neither very small nor very large. -/
structure Bounded (d : Decimal) : Prop where
  length : d.digits.length ≤ 801
  least : -1074 ≤ d.exponent
  greatest : d.magnitude ≤ 1600

theorem length_digits_pos (d : Decimal) : 0 < d.digits.length := Nat.length_toDigits_pos

theorem length_digits_le {d : Decimal} {n : ℕ} (hn : 0 < n) (h : d.significand < 10 ^ n) :
    d.digits.length ≤ n :=
  (Nat.length_toDigits_le_iff (by decide) hn).2 h

/-- To remove a zero is to have one digit less. -/
theorem length_digits_div_ten {d : Decimal} (hnonzero : d.significand ≠ 0)
    (hten : d.significand % 10 = 0) :
    d.digits.length = (digits ⟨d.significand / 10, d.exponent + 1⟩).length + 1 := by
  have hge : 10 ≤ d.significand := by omega
  rw [digits, Nat.toDigits_of_base_le (by decide) hge, List.length_append]
  rfl

/-- Nothing gets larger by removing zeros. -/
theorem Bounded.reduced {d : Decimal} (h : d.Bounded) : d.reduced.Bounded := by
  fun_induction Decimal.reduced d with
  | case1 => exact ⟨by decide, by decide, by decide⟩
  | case2 d hnonzero hten ih =>
    obtain ⟨hlength, hleast, hgreatest⟩ := h
    have hdigits := length_digits_div_ten hnonzero hten
    have hpos := length_digits_pos ⟨d.significand / 10, d.exponent + 1⟩
    refine ih ⟨by omega, by dsimp only; omega, ?_⟩
    rw [magnitude] at hgreatest ⊢
    dsimp only at hdigits ⊢
    omega
  | case3 => exact h

theorem significand_ofBinary_lt {m : ℕ} {e : ℤ} (h : Canonical m e) :
    (ofBinary m e).significand < 10 ^ 800 := by
  obtain ⟨-, hlt, hleast, hgreatest, -⟩ := h
  -- the largest power of five stays a variable, so that nothing tries to compute it
  obtain ⟨n, hn⟩ : ∃ n, n = 1074 := ⟨1074, rfl⟩
  have hbound : 2 ^ 53 * 5 ^ n ≤ 10 ^ 800 := by
    rw [hn]
    decide +kernel
  have hfactor (factor : ℕ) (hle : factor ≤ 5 ^ n) : m * factor < 10 ^ 800 := by
    calc m * factor ≤ m * 5 ^ n := Nat.mul_le_mul_left m hle
      _ < 2 ^ 53 * 5 ^ n := Nat.mul_lt_mul_of_pos_right hlt (Nat.pow_pos (by decide))
      _ ≤ 10 ^ 800 := hbound
  unfold ofBinary
  split
  · have hbase : 2 ^ e.toNat ≤ 5 ^ e.toNat := Nat.pow_le_pow_left (by decide) _
    exact hfactor _ (hbase.trans (Nat.pow_le_pow_right (by decide) (by omega)))
  · exact hfactor _ (Nat.pow_le_pow_right (by decide) (by omega))

theorem exponent_ofBinary {m : ℕ} {e : ℤ} (h : Canonical m e) :
    -1074 ≤ (ofBinary m e).exponent ∧ (ofBinary m e).exponent ≤ 0 := by
  have hleast := h.least
  unfold ofBinary
  split <;> dsimp only <;> omega

/-- The neighbours are among the two decimals on the grid around a decimal. -/
theorem eq_of_mem_neighbours {d c : Decimal} {reach dropped : ℕ}
    (hc : c ∈ d.neighbours reach dropped) :
    c = ⟨d.significand / 10 ^ dropped, d.exponent + dropped⟩ ∨
      c = ⟨d.significand / 10 ^ dropped + 1, d.exponent + dropped⟩ := by
  have hlist {near : Prop} [Decidable near] {b : Decimal} (h : c ∈ if near then [b] else []) :
      c = b := by
    split at h
    · exact List.mem_singleton.1 h
    · cases h
  unfold neighbours at hc
  dsimp only at hc
  split at hc
  · rcases List.mem_append.1 hc with hlower | hupper
    · exact .inl (hlist hlower)
    · exact .inr (hlist hupper)
  · rcases List.mem_append.1 hc with hupper | hlower
    · exact .inr (hlist hupper)
    · exact .inl (hlist hlower)

/-- Around a decimal there are none with more digits than one more than it has. -/
theorem bounded_neighbours {d c : Decimal} {reach dropped : ℕ} (hd : d.significand < 10 ^ 800)
    (he : -1074 ≤ d.exponent ∧ d.exponent ≤ 0) (hdropped : dropped ≤ 800)
    (hc : c ∈ d.neighbours reach dropped) : c.Bounded := by
  have hbelow : d.significand / 10 ^ dropped ≤ d.significand := Nat.div_le_self _ _
  have hsignificand : c.significand ≤ d.significand / 10 ^ dropped + 1 := by
    rcases eq_of_mem_neighbours hc with rfl | rfl <;> simp
  have hexponent : c.exponent = d.exponent + dropped := by
    rcases eq_of_mem_neighbours hc with rfl | rfl <;> rfl
  have hpower : 10 ^ 800 + 1 ≤ 10 ^ 801 := by decide +kernel
  have hlength : c.digits.length ≤ 801 := length_digits_le (by decide) (by omega)
  refine ⟨hlength, by omega, ?_⟩
  rw [magnitude]
  omega

/-- The shortest decimal for a double is not longer than the exact one can be. -/
theorem bounded_shortest {m : ℕ} {e : ℤ} (h : Canonical m e) : (shortest m e).Bounded := by
  have hsignificand := significand_ofBinary_lt h
  have hexponent := exponent_ofBinary h
  have hcount := length_digits_le (d := ofBinary m e) (by decide) hsignificand
  unfold shortest
  refine Bounded.reduced ?_
  cases hshortened : shortened? (Binary64.scaled m e .positive) (ofBinary m e)
      (ofBinary 1 e).significand with
  | none =>
    refine ⟨by dsimp only [Option.getD]; omega, hexponent.1, ?_⟩
    dsimp only [Option.getD, magnitude]
    omega
  | some c =>
    obtain ⟨n, -, hn⟩ := List.exists_of_findSome?_eq_some hshortened
    exact bounded_neighbours hsignificand hexponent (by omega) (List.mem_of_find?_eq_some hn)

end Calculator.Decimal
