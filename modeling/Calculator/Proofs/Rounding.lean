import Calculator.Proofs.Packing

/-!
# Numbers that need no rounding

A number that is a double is rounded to that double, however it is written: with a longer
significand on a finer grid, as a product with a power of ten, or as a quotient.

Results:
* `Binary64.roundWithAccuracy_exact`: rounding from a finer grid.
* `Binary64.scaled_canonical`: rounding from the grid of the double.
* `Binary64.ofScientific_exact`: rounding a decimal number.
-/

namespace Calculator.Binary64

open Float.Model (UnpackedFloat Format totalExponent)
open Float.Model.UnpackedFloat

theorem log2_mul_two_pow {m : Nat} (hm : 0 < m) (k : Nat) : (m * 2 ^ k).log2 = m.log2 + k := by
  induction k with
  | zero => rw [Nat.pow_zero, Nat.mul_one, Nat.add_zero]
  | succ k ih =>
    have hpos : m * 2 ^ k ≠ 0 := Nat.ne_of_gt (Nat.mul_pos hm (Nat.two_pow_pos k))
    rw [Nat.pow_succ, ← Nat.mul_assoc, Nat.mul_comm _ 2, Nat.log2_two_mul hpos, ih, Nat.add_assoc]

/-! ## Shifting -/

/-- Zeros are shifted out of a significand without loss. -/
theorem shiftRight_mul_two_pow (m k : Nat) :
    ExtendedMantissa.mk (m * 2 ^ k) false false >>> k = ⟨m, false, false⟩ := by
  induction k generalizing m with
  | zero => rw [Nat.pow_zero, Nat.mul_one]; rfl
  | succ k ih =>
    have hstep : ExtendedMantissa.mk (m * 2 ^ (k + 1)) false false >>> (k + 1) =
        (ExtendedMantissa.mk (m * 2 * 2 ^ k) false false >>> k).shiftRightOne := by
      rw [Nat.pow_succ', ← Nat.mul_assoc]
      rfl
    rw [hstep, ih]
    simp [ExtendedMantissa.shiftRightOne]

theorem targetExponent_eq (total : Int) :
    Format.binary64.targetExponent total = max (total - 53) (-1074) := rfl

section

variable {sign : Sign} {m : Nat} {e : Int}

/-- A canonical number is on the grid that belongs to its size. -/
theorem Canonical.target (h : Canonical m e) :
    Format.binary64.targetExponent (totalExponent m e) = e := by
  obtain ⟨hpos, hlt, hleast, -, hfull⟩ := h
  rw [targetExponent_eq, totalExponent]
  rcases hfull with hfull | rfl
  · rw [log2_of_full hfull hlt]
    omega
  · have hlog : m.log2 < 53 := (Nat.log2_lt (by omega)).2 hlt
    omega

/-- On a finer grid, a canonical number is shifted back to its own. -/
theorem shiftToTargetExponent_exact (h : Canonical m e) (k : Nat) :
    shiftToTargetExponent Format.binary64 (m * 2 ^ k) (e - k) .exact = (⟨m, false, false⟩, e) := by
  have htotal : totalExponent (m * 2 ^ k) (e - k) = totalExponent m e := by
    rw [totalExponent, totalExponent, log2_mul_two_pow h.pos]
    omega
  have hshift : (e - (e - k)).toNat = k := by omega
  rw [shiftToTargetExponent, htotal, h.target, shiftToExponent, hshift]
  exact Prod.ext (shiftRight_mul_two_pow m k) (by dsimp only; omega)

/-! ## Rounding -/

/-- A canonical number on a finer grid is rounded to itself. -/
theorem roundWithAccuracy_exact (h : Canonical m e) (k : Nat) :
    roundWithAccuracy Format.binary64 sign (m * 2 ^ k) (e - k) .exact =
      .finite sign m e h.pos := by
  have hagain := shiftToTargetExponent_exact h 0
  rw [Nat.pow_zero, Nat.mul_one, Nat.cast_zero, Int.sub_zero] at hagain
  have hrounded : (ExtendedMantissa.mk m false false).roundedMantissa = m := rfl
  unfold roundWithAccuracy
  simp only [shiftToTargetExponent_exact h k, hrounded, hagain]
  rw [dif_neg (Nat.ne_of_gt h.pos)]

theorem round_canonical (h : Canonical m e) :
    UnpackedFloat.round Format.binary64 sign m e = .finite sign m e h.pos := by
  have hround : roundWithAccuracy Format.binary64 sign _ _ _ = _ := roundWithAccuracy_exact h 0
  rw [Nat.pow_zero, Nat.mul_one, Nat.cast_zero, Int.sub_zero] at hround
  rw [UnpackedFloat.round, h.target, decreaseExponent, Int.sub_self]
  simpa using hround

/-- A canonical number is the nearest double to itself. -/
theorem scaled_canonical (h : Canonical m e) (zeroSign : Sign) :
    scaled m e zeroSign = pack (.finite .positive m e h.pos) := by
  have hcompare : compare (m : Int) 0 = .gt := by
    have hpos := h.pos
    rw [Int.compare_eq_gt]
    omega
  rw [scaled, UnpackedFloat.normalize, hcompare]
  dsimp only
  rw [Int.toNat_natCast, round_canonical h]

/-! ## Sizes -/

theorem zpow_pos_two (n : ℤ) : (0 : ℚ) < 2 ^ n := zpow_pos two_pos n

theorem Canonical.value_pos (h : Canonical m e) : (0 : ℚ) < m * 2 ^ e :=
  mul_pos (by exact_mod_cast h.pos) (zpow_pos_two e)

/-- The finite doubles are between the least one and the next power of two behind the greatest. -/
theorem Canonical.between (h : Canonical m e) :
    (2 : ℚ) ^ (-1074 : ℤ) ≤ m * 2 ^ e ∧ (m : ℚ) * 2 ^ e < 2 ^ (1024 : ℤ) := by
  obtain ⟨hpos, hlt, hleast, hgreatest, -⟩ := h
  have hm : (1 : ℚ) ≤ m := by exact_mod_cast hpos
  have hm' : (m : ℚ) < 2 ^ (53 : ℤ) := by exact_mod_cast hlt
  constructor
  · calc (2 : ℚ) ^ (-1074 : ℤ) ≤ 2 ^ e := zpow_le_zpow_right₀ one_le_two hleast
      _ ≤ m * 2 ^ e := le_mul_of_one_le_left (zpow_pos_two e).le hm
  · calc (m : ℚ) * 2 ^ e < 2 ^ (53 : ℤ) * 2 ^ e := by gcongr
      _ = 2 ^ (53 + e) := (zpow_add₀ two_ne_zero 53 e).symm
      _ ≤ 2 ^ (1024 : ℤ) := zpow_le_zpow_right₀ one_le_two (by omega)

/-! ## Products and quotients -/

/-- What is on a grid is a multiple of a power of two on every finer one. -/
theorem exists_units {c : ℤ} {n : ℕ} (hc : c ≤ e) (hv : (n : ℚ) * 2 ^ c = m * 2 ^ e) :
    ∃ k : ℕ, n = m * 2 ^ k ∧ c = e - k := by
  obtain ⟨k, hk⟩ := Int.eq_ofNat_of_zero_le (Int.sub_nonneg_of_le hc)
  have he : e = k + c := by omega
  refine ⟨k, ?_, by omega⟩
  rw [he, zpow_add₀ two_ne_zero, ← mul_assoc] at hv
  have hunits := mul_right_cancel₀ (zpow_pos_two c).ne' hv
  exact_mod_cast hunits

/-- A product that is a canonical number, computed on a finer grid. -/
theorem mul_exact (h : Canonical m e) {a b : ℕ} {c : ℤ} (ha : 0 < a) (hb : 0 < b) (hc : c ≤ e)
    (hv : (a * b : ℕ) * (2 : ℚ) ^ c = m * 2 ^ e) :
    UnpackedFloat.mul Format.binary64 (.finite .positive a c ha) (.finite .positive b 0 hb) =
      .finite .positive m e h.pos := by
  obtain ⟨k, hunits, hgrid⟩ := exists_units hc hv
  rw [UnpackedFloat.mul, Int.add_zero, hunits, hgrid]
  exact roundWithAccuracy_exact h k

/-- A quotient is at least on the grid of its value. -/
theorem targetExponent_quotient_le (h : Canonical m e) {a b : ℕ} {c d : ℤ} (ha : 0 < a)
    (hb : 0 < b) (hv : (a : ℚ) * 2 ^ c = m * 2 ^ e * (b * 2 ^ d)) :
    Format.binary64.targetExponent (totalExponent a c - totalExponent b d) ≤ e := by
  have hlog : (a.log2 : ℤ) + c - (b.log2 + d) ≤ m.log2 + 1 + e := by
    have hlow : (2 : ℚ) ^ (a.log2 : ℤ) ≤ a := by
      exact_mod_cast Nat.log2_self_le (Nat.ne_of_gt ha)
    have hm : (m : ℚ) < 2 ^ (m.log2 + 1 : ℤ) := by exact_mod_cast Nat.lt_log2_self
    have hb' : (b : ℚ) < 2 ^ (b.log2 + 1 : ℤ) := by exact_mod_cast Nat.lt_log2_self
    have hb₀ : (0 : ℚ) < b := by exact_mod_cast hb
    have hc := zpow_pos_two c
    have hd := zpow_pos_two d
    have hpower : (2 : ℚ) ^ ((a.log2 : ℤ) + c) <
        2 ^ ((m.log2 + 1 : ℤ) + e + ((b.log2 + 1) + d)) := by
      calc (2 : ℚ) ^ ((a.log2 : ℤ) + c) = 2 ^ (a.log2 : ℤ) * 2 ^ c := zpow_add₀ two_ne_zero _ _
        _ ≤ a * 2 ^ c := by gcongr
        _ = m * 2 ^ e * (b * 2 ^ d) := hv
        _ < 2 ^ (m.log2 + 1 : ℤ) * 2 ^ e * (2 ^ (b.log2 + 1 : ℤ) * 2 ^ d) := by
          have hvalue := h.value_pos.le
          gcongr
        _ = 2 ^ ((m.log2 + 1 : ℤ) + e + ((b.log2 + 1) + d)) := by
          simp only [zpow_add₀ (two_ne_zero (α := ℚ))]
    have hexponent := (zpow_lt_zpow_iff_right₀ one_lt_two).1 hpower
    omega
  have htarget := h.target
  rw [targetExponent_eq, totalExponent] at htarget ⊢
  rw [totalExponent]
  omega

/-- A quotient that is a canonical number. -/
theorem div_exact (h : Canonical m e) {s t : Sign} {a b : ℕ} {c d : ℤ} (ha : 0 < a) (hb : 0 < b)
    (hv : (a : ℚ) * 2 ^ c = m * 2 ^ e * (b * 2 ^ d)) :
    UnpackedFloat.div Format.binary64 (.finite s a c ha) (.finite t b d hb) =
      .finite (s / t) m e h.pos := by
  have htarget := targetExponent_quotient_le h ha hb hv
  rw [UnpackedFloat.div, divCore]
  generalize hgrid : min (c - d) (Format.binary64.targetExponent
    (totalExponent a c - totalExponent b d)) = grid
  have hle : grid ≤ e := by omega
  have hshifted : ((a * 2 ^ (c - d - grid).toNat : ℕ) : ℚ) * 2 ^ grid = (m * b : ℕ) * 2 ^ e := by
    have hshift : ((c - d - grid).toNat : ℤ) = c - d - grid := by omega
    have hd := (zpow_pos_two d).ne'
    refine mul_right_cancel₀ hd ?_
    calc ((a * 2 ^ (c - d - grid).toNat : ℕ) : ℚ) * 2 ^ grid * 2 ^ d
        = a * (2 ^ (c - d - grid) * 2 ^ grid * 2 ^ d) := by
          rw [Nat.cast_mul, Nat.cast_pow, Nat.cast_ofNat, ← zpow_natCast, hshift]
          ring
      _ = a * 2 ^ c := by
          rw [← zpow_add₀ two_ne_zero, ← zpow_add₀ two_ne_zero]
          congr 2
          omega
      _ = (m * b : ℕ) * 2 ^ e * 2 ^ d := by
          rw [hv, Nat.cast_mul]
          ring
  obtain ⟨k, hunits, rfl⟩ := exists_units hle hshifted
  dsimp only
  rw [Nat.shiftLeft_eq, hunits, Nat.mul_right_comm, Nat.mul_div_cancel _ hb, Nat.mul_mod_left]
  exact roundWithAccuracy_exact h k

/-! ## Decimals -/

theorem two_pow_le_ten_pow (n : ℕ) : (2 : ℚ) ^ (n : ℤ) ≤ 10 ^ n := by
  rw [zpow_natCast]
  exact pow_le_pow_left₀ zero_le_two (by norm_num) n

/-- A whole decimal that is a double. -/
theorem ofScientific_whole (h : Canonical m e) {significand n : ℕ} (hpos : 0 < significand)
    (hv : (significand : ℚ) * 10 ^ n = m * 2 ^ e) :
    UnpackedFloat.ofScientific Format.binary64 significand n = .finite .positive m e h.pos := by
  have hone : (1 : ℚ) ≤ significand := by exact_mod_cast hpos
  have hten : (2 : ℚ) ^ (n : ℤ) ≤ significand * 10 ^ n :=
    (two_pow_le_ten_pow n).trans (le_mul_of_one_le_left (by positivity) hone)
  have hn : (n : ℤ) < 1024 := by
    refine (zpow_lt_zpow_iff_right₀ (one_lt_two (α := ℚ))).1 (hten.trans_lt ?_)
    rw [hv]
    exact h.between.2
  have hgrid : (-53 : ℤ) ≤ e := by
    have hm : (m : ℚ) < 2 ^ (53 : ℤ) := by exact_mod_cast h.lt
    have hlow : (2 : ℚ) ^ (n : ℤ) < 2 ^ (53 + e) := by
      calc (2 : ℚ) ^ (n : ℤ) ≤ m * 2 ^ e := hv ▸ hten
        _ < 2 ^ (53 : ℤ) * 2 ^ e := by gcongr
        _ = 2 ^ (53 + e) := (zpow_add₀ two_ne_zero 53 e).symm
    have hexponent := (zpow_lt_zpow_iff_right₀ one_lt_two).1 hlow
    omega
  have hproduct : ((significand <<< 53 * 10 ^ n : ℕ) : ℚ) * 2 ^ (-53 : ℤ) = m * 2 ^ e := by
    rw [← hv, Nat.shiftLeft_eq]
    push_cast
    rw [zpow_neg]
    norm_num
    ring
  have hgreatest : ¬(n : ℤ) > 2 ^ Format.binary64.exponentBits := by
    show ¬(n : ℤ) > 2 ^ 11
    omega
  have hleast : ¬(n : ℤ) < -((2 ^ Format.binary64.exponentBits : ℤ) + significand.log2) := by
    show ¬(n : ℤ) < -(2 ^ 11 + _)
    omega
  rw [UnpackedFloat.ofScientific, dif_neg (Nat.ne_of_gt hpos), if_neg hgreatest, if_neg hleast,
    if_pos (Int.natCast_nonneg n)]
  exact mul_exact h _ _ hgrid hproduct

/-- A decimal fraction that is a double. -/
theorem ofScientific_fraction (h : Canonical m e) {significand n : ℕ} (hpos : 0 < significand)
    (hn : 0 < n) (hv : (significand : ℚ) = m * 2 ^ e * 10 ^ n) :
    UnpackedFloat.ofScientific Format.binary64 significand (-n) =
      .finite .positive m e h.pos := by
  have hlog : -1074 + (n : ℤ) < significand.log2 + 1 := by
    refine (zpow_lt_zpow_iff_right₀ (one_lt_two (α := ℚ))).1 ?_
    calc (2 : ℚ) ^ (-1074 + (n : ℤ)) = 2 ^ (-1074 : ℤ) * 2 ^ (n : ℤ) := zpow_add₀ two_ne_zero _ _
      _ ≤ m * 2 ^ e * 10 ^ n := by
        exact mul_le_mul h.between.1 (two_pow_le_ten_pow n) (zpow_pos_two n).le
          (h.value_pos).le
      _ = significand := hv.symm
      _ < 2 ^ (significand.log2 + 1 : ℤ) := by exact_mod_cast Nat.lt_log2_self
  have hgreatest : ¬-(n : ℤ) > 2 ^ Format.binary64.exponentBits := by
    show ¬-(n : ℤ) > 2 ^ 11
    omega
  have hleast : ¬-(n : ℤ) < -((2 ^ Format.binary64.exponentBits : ℤ) + significand.log2) := by
    show ¬-(n : ℤ) < -(2 ^ 11 + _)
    omega
  have hwhole : (-(-(n : ℤ))).toNat = n := by omega
  rw [UnpackedFloat.ofScientific, dif_neg (Nat.ne_of_gt hpos), if_neg hgreatest, if_neg hleast,
    if_neg (by omega)]
  refine div_exact h hpos _ ?_
  rw [hwhole, hv]
  push_cast
  ring

/-- **A decimal that is a double is read as this double.** -/
theorem ofScientific_exact (h : Canonical m e) {significand : ℕ} {power : ℤ}
    (hv : (significand : ℚ) * 10 ^ power = m * 2 ^ e) :
    UnpackedFloat.ofScientific Format.binary64 significand power = .finite .positive m e h.pos := by
  have hpos : 0 < significand := by
    have hvalue := h.value_pos
    rw [← hv] at hvalue
    rcases Nat.eq_zero_or_pos significand with rfl | hpos
    · rw [Nat.cast_zero, zero_mul] at hvalue
      exact absurd hvalue (lt_irrefl 0)
    · exact hpos
  rcases Int.lt_or_le power 0 with hneg | hnonneg
  · obtain ⟨n, hn⟩ := Int.eq_ofNat_of_zero_le (Int.neg_nonneg_of_nonpos hneg.le)
    obtain rfl : power = -n := by omega
    refine ofScientific_fraction h hpos (by omega) ?_
    rw [← hv, zpow_neg, zpow_natCast]
    field_simp
  · obtain ⟨n, rfl⟩ := Int.eq_ofNat_of_zero_le hnonneg
    refine ofScientific_whole h hpos ?_
    rwa [zpow_natCast] at hv

end

end Calculator.Binary64
