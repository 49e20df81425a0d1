import Calculator.Proofs.NumberValues

/-!
# Powers of finite numbers

A power of two finite numbers is a finite number or an error, and which error is a matter of the
two values: powers that are no real numbers are refused by name, and all others for their size.
The sign of a power of a double is the parity of a double, which is that of the integer exponent
only up to `2 ^ 53`.

How powers of doubles are computed is left open; `DefinedOnReals` and `SignedByParity` say what is
asked of it.

* `PowerOutcome`: what a power of two values may come to.
* `unitPower`: the powers of the units.

Results:
* `powerOutcome_powWith`: powers never leave the finite numbers silently.
* `powWith_negative_exponent`: the sign of a power with a negative integer exponent.
* `exists_positive_odd_power`: beyond `2 ^ 53`, an odd power of a negative number can be positive.
-/

namespace Calculator.Number

open Binary64 (signOf)

/-! ## What is asked of powers -/

/-- The result is a number unless the base is negative and the exponent fractional. -/
def DefinedOnReals (power : Float → Float → Float) : Prop :=
  ∀ (x y : Float) (p q : ℚ), Binary64.value? x = some p → Binary64.value? y = some q →
    (power x y).isNaN → p < 0 ∧ ¬∃ n : ℤ, q = n

/-- The sign of a whole power is that of the parity of its exponent, and no negative power of a base
    of at least one is infinite. -/
structure SignedByParity (power : Float → Float → Float) : Prop where
  sign_iff : ∀ (x y : Float) (p : ℚ) (n : ℤ), Binary64.value? x = some p → p ≠ 0 →
    Binary64.value? y = some (n : ℚ) → (signOf (power x y) = .negative ↔ p < 0 ∧ Odd n)
  bounded : ∀ (x y : Float) (p q : ℚ), Binary64.value? x = some p → 1 ≤ |p| →
    Binary64.value? y = some q → q < 0 → ¬(power x y).isInf

/-- The powers of the units, by the sign of the base and the parity of the exponent. -/
def unitPower (x y : Float) : Float :=
  if x < 0 then
    if Binary64.isIntegral y then if Binary64.truncated y % 2 = 0 then 1 else -1
    else Binary64.nan
  else 1

theorem not_isInf_unitPower (x y : Float) : ¬(unitPower x y).isInf := by
  unfold unitPower
  split_ifs <;> decide

theorem definedOnReals_unitPower : DefinedOnReals unitPower := by
  intro x y p q hx hy hnan
  unfold unitPower at hnan
  rw [← Binary64.lt_zero_iff hx, ← Binary64.isIntegral_iff hy]
  split_ifs at hnan with hneg hwhole hodd
  · exact absurd hnan (by decide)
  · exact absurd hnan (by decide)
  · exact ⟨hneg, hwhole⟩
  · exact absurd hnan (by decide)

theorem signedByParity_unitPower : SignedByParity unitPower where
  sign_iff := by
    intro x y p n hx hp hy
    have hone : signOf 1 ≠ .negative := by
      rw [show signOf 1 = .positive from rfl]
      nofun
    have hwhole : Binary64.isIntegral y := (Binary64.isIntegral_iff hy).2 ⟨n, rfl⟩
    rw [← Binary64.lt_zero_iff hx, ← Int.not_even_iff_odd, Int.even_iff, unitPower,
      Binary64.truncated_of_value? hy, if_pos hwhole]
    by_cases hneg : x < 0
    · rw [if_pos hneg]
      by_cases heven : n % 2 = 0
      · rw [if_pos heven]
        exact iff_of_false hone fun h => h.2 heven
      · rw [if_neg heven]
        exact iff_of_true rfl ⟨hneg, heven⟩
    · rw [if_neg hneg]
      exact iff_of_false hone fun h => hneg h.1
  bounded := fun x y _ _ _ _ _ _ => not_isInf_unitPower x y

/-! ## Guards -/

section

variable {power : Float → Float → Float} {x y : Float} {p q : ℚ}

theorem floatPow_zero (hy : Binary64.value? y = some 0) : floatPow power x y = .ok 1 :=
  if_pos ((Binary64.beq_zero_iff hy).2 rfl)

/-- The guard against powers of zero. -/
theorem zero_base_iff (hx : Binary64.value? x = some p) (hy : Binary64.value? y = some q) :
    (x == 0 && decide (y < 0)) = true ↔ p = 0 ∧ q < 0 := by
  rw [Bool.and_eq_true, decide_eq_true_iff, Binary64.beq_zero_iff hx, Binary64.lt_zero_iff hy]

/-- The guard against complex results. -/
theorem fractional_iff (hx : Binary64.value? x = some p) (hy : Binary64.value? y = some q) :
    (decide (x < 0) && x.isFinite && y.isFinite && !Binary64.isIntegral y) = true ↔
      p < 0 ∧ ¬∃ n : ℤ, q = n := by
  simp only [Bool.and_eq_true, decide_eq_true_iff, Bool.not_eq_true', ← Bool.not_eq_true,
    Binary64.isIntegral_iff hy, Binary64.lt_zero_iff hx, Binary64.isFinite_iff, hx, hy,
    Option.some.injEq, exists_eq', and_true]

/-- Zero has no negative power. -/
theorem floatPow_zero_base (hx : Binary64.value? x = some 0) (hy : Binary64.value? y = some q)
    (hq : q < 0) : floatPow power x y = .error .zeroToNegativePower := by
  rw [floatPow, if_neg (mt (Binary64.beq_zero_iff hy).1 hq.ne),
    if_pos ((zero_base_iff hx hy).2 ⟨rfl, hq⟩)]

/-- A negative number has no fractional power. -/
theorem floatPow_fractional (hx : Binary64.value? x = some p) (hy : Binary64.value? y = some q)
    (hp : p < 0) (hq : ¬∃ n : ℤ, q = n) : floatPow power x y = .error .complexResult := by
  have hexponent : q ≠ 0 := by
    rintro rfl
    exact hq ⟨0, Int.cast_zero.symm⟩
  have hbase : ¬(p = 0 ∧ q < 0) := fun h => hp.ne h.1
  rw [floatPow, if_neg (mt (Binary64.beq_zero_iff hy).1 hexponent),
    if_neg (mt (zero_base_iff hx hy).1 hbase), if_pos ((fractional_iff hx hy).2 ⟨hp, hq⟩)]

/-- All other powers are computed, and refused if they are infinite. -/
theorem floatPow_regular (hx : Binary64.value? x = some p) (hy : Binary64.value? y = some q)
    (hq : q ≠ 0) (hzero : ¬(p = 0 ∧ q < 0)) (hfractional : ¬(p < 0 ∧ ¬∃ n : ℤ, q = n)) :
    floatPow power x y = if (power x y).isInf then .error .overflow else .ok (power x y) := by
  have hfinite : x.isFinite = true ∧ y.isFinite = true :=
    ⟨Binary64.isFinite_iff.2 ⟨p, hx⟩, Binary64.isFinite_iff.2 ⟨q, hy⟩⟩
  rw [floatPow, if_neg (mt (Binary64.beq_zero_iff hy).1 hq),
    if_neg (mt (zero_base_iff hx hy).1 hzero), if_neg (mt (fractional_iff hx hy).1 hfractional)]
  simp only [hfinite, Bool.and_true]

end

/-! ## Outcomes -/

/-- What the power of a base `p` and an exponent `q` may come to: a finite number, or the error that
    belongs to the two values. -/
structure PowerOutcome (p q : ℚ) (result : Except MathError Number) : Prop where
  finite : ∀ v, result = .ok v → ∃ r, v.value? = some r
  zero_iff : result = .error .zeroToNegativePower ↔ p = 0 ∧ q < 0
  complex_iff : result = .error .complexResult ↔ p < 0 ∧ ¬∃ n : ℤ, q = n
  named : ∀ failure, result = .error failure →
    failure = .zeroToNegativePower ∨ failure = .complexResult ∨ failure = .overflow

namespace PowerOutcome

variable {p q : ℚ}

theorem of_ok {v : Number} {r : ℚ} (hv : v.value? = some r) (hzero : ¬(p = 0 ∧ q < 0))
    (hfractional : ¬(p < 0 ∧ ¬∃ n : ℤ, q = n)) : PowerOutcome p q (.ok v) where
  finite := by
    intro w hw
    cases hw
    exact ⟨r, hv⟩
  zero_iff := iff_of_false nofun hzero
  complex_iff := iff_of_false nofun hfractional
  named := nofun

theorem of_overflow (hzero : ¬(p = 0 ∧ q < 0)) (hfractional : ¬(p < 0 ∧ ¬∃ n : ℤ, q = n)) :
    PowerOutcome p q (.error .overflow) where
  finite := nofun
  zero_iff := iff_of_false nofun hzero
  complex_iff := iff_of_false nofun hfractional
  named := by
    intro failure h
    cases h
    exact .inr (.inr rfl)

theorem of_zero (hq : q < 0) : PowerOutcome 0 q (.error .zeroToNegativePower) where
  finite := nofun
  zero_iff := iff_of_true rfl ⟨rfl, hq⟩
  complex_iff := iff_of_false nofun fun h => lt_irrefl 0 h.1
  named := by
    intro failure h
    cases h
    exact .inl rfl

theorem of_fractional (hp : p < 0) (hq : ¬∃ n : ℤ, q = n) :
    PowerOutcome p q (.error .complexResult) where
  finite := nofun
  zero_iff := iff_of_false nofun fun h => hp.ne h.1
  complex_iff := iff_of_true rfl ⟨hp, hq⟩
  named := by
    intro failure h
    cases h
    exact .inr (.inl rfl)

/-- Only the sign of the base and the sign and the wholeness of the exponent count. -/
theorem congr {p' q' : ℚ} {result : Except MathError Number} (h : PowerOutcome p q result)
    (hbase : p < 0 ↔ p' < 0) (hbase' : p = 0 ↔ p' = 0) (hexponent : q < 0 ↔ q' < 0)
    (hwhole : (∃ n : ℤ, q = n) ↔ ∃ n : ℤ, q' = n) : PowerOutcome p' q' result where
  finite := h.finite
  zero_iff := by rw [h.zero_iff, hbase', hexponent]
  complex_iff := by rw [h.complex_iff, hbase, hwhole]
  named := h.named

end PowerOutcome

section

variable {power : Float → Float → Float} {a b : Number} {p q : ℚ}

/-- A power of two finite doubles. -/
theorem powerOutcome_floatPow (hpower : DefinedOnReals power) {x y : Float}
    (hx : Binary64.value? x = some p) (hy : Binary64.value? y = some q) :
    PowerOutcome p q ((floatPow power x y).map .float) := by
  by_cases hq : q = 0
  · subst hq
    rw [floatPow_zero hy]
    have hone : (Number.float 1).value? = some 1 := Binary64.value?_one
    exact .of_ok hone (fun h => lt_irrefl 0 h.2) fun h => h.2 ⟨0, Int.cast_zero.symm⟩
  by_cases hzero : p = 0 ∧ q < 0
  · obtain ⟨rfl, hneg⟩ := hzero
    rw [floatPow_zero_base hx hy hneg]
    exact .of_zero hneg
  by_cases hfractional : p < 0 ∧ ¬∃ n : ℤ, q = n
  · rw [floatPow_fractional hx hy hfractional.1 hfractional.2]
    exact .of_fractional hfractional.1 hfractional.2
  rw [floatPow_regular hx hy hq hzero hfractional]
  by_cases hinf : (power x y).isInf
  · rw [if_pos hinf]
    exact .of_overflow hzero hfractional
  · have hnan : ¬(power x y).isNaN := fun h => hfractional (hpower x y p q hx hy h)
    obtain ⟨r, hr⟩ := Binary64.exists_value? hinf hnan
    rw [if_neg hinf]
    exact .of_ok (v := .float _) hr hzero hfractional

/-- A power of two integers with an exponent that is not negative. -/
theorem powerOutcome_integerPow (m n : Int64) (hn : 0 ≤ n.toInt) :
    PowerOutcome m.toInt n.toInt (integerPow m.toInt n.toInt.toNat) := by
  have hzero : ¬((m.toInt : ℚ) = 0 ∧ (n.toInt : ℚ) < 0) := by
    rintro ⟨-, hneg⟩
    exact absurd (Int.cast_lt_zero.1 hneg) (not_lt.2 hn)
  have hfractional : ¬((m.toInt : ℚ) < 0 ∧ ¬∃ k : ℤ, (n.toInt : ℚ) = k) := fun h => h.2 ⟨_, rfl⟩
  rw [integerPow_eq]
  unfold ofInt
  split
  · exact .of_ok (v := .integer _) rfl hzero hfractional
  · exact .of_overflow hzero hfractional

/-- A power of an integer with a negative exponent is one of doubles. -/
theorem powWith_integer_neg {m n : Int64} (hn : n.toInt < 0) :
    (integer m).powWith power (.integer n) =
      (floatPow power (Binary64.ofInt m.toInt) (Binary64.ofInt n.toInt)).map .float := by
  have hguard : ¬0 ≤ n := by
    rw [Int64.le_iff_toInt_le]
    exact not_le.2 hn
  rw [powWith, if_neg hguard]
  by_cases hm : m = 0
  · -- the refusal of a zero base comes earlier than that of doubles, but is the same
    obtain ⟨z, hz, hneg, -, -⟩ := Binary64.exists_value?_ofInt (abs_toInt_lt n)
    have hbase : Binary64.value? (Binary64.ofInt m.toInt) = some 0 := by
      rw [hm]
      exact Binary64.value?_ofInt (by decide)
    rw [if_pos hm, floatPow_zero_base hbase hz (Int.cast_lt_zero.2 (hneg.2 hn))]
    rfl
  · rw [if_neg hm]

/-- **Powers never leave the finite numbers silently.** A power of two numbers with values, integers
    or finite doubles, is a number with a value or an error: zero has no negative power, a negative
    number no fractional one, and everything else is refused only for its size. -/
theorem powerOutcome_powWith (hpower : DefinedOnReals power) (ha : a.value? = some p)
    (hb : b.value? = some q) : PowerOutcome p q (a.powWith power b) := by
  obtain ⟨p', hp', hbase, hbase', -⟩ := exists_value?_asFloat ha
  obtain ⟨q', hq', hexponent, -, hwhole⟩ := exists_value?_asFloat hb
  have hfloats : PowerOutcome p q ((floatPow power a.asFloat b.asFloat).map .float) :=
    (powerOutcome_floatPow hpower hp' hq').congr hbase hbase' hexponent hwhole
  cases a with
  | float x => cases b <;> exact hfloats
  | integer m =>
    cases b with
    | float y => exact hfloats
    | integer n =>
      rcases lt_or_ge n.toInt 0 with hneg | hnonneg
      · rw [powWith_integer_neg hneg]
        exact hfloats
      · have hguard : 0 ≤ n := Int64.le_iff_toInt_le.2 hnonneg
        obtain rfl : (m.toInt : ℚ) = p := Option.some.inj ha
        obtain rfl : (n.toInt : ℚ) = q := Option.some.inj hb
        rw [powWith, if_pos hguard]
        exact powerOutcome_integerPow m n hnonneg

/-- A negative exponent, by which integers become doubles. -/
theorem powerOutcome_powWith_neg_one :
    DefinedOnReals unitPower ∧ (integer (-1)).value? = some (-1) ∧
      (integer (-3)).value? = some (-3) ∧
      PowerOutcome (-1) (-3) ((integer (-1)).powWith unitPower (.integer (-3))) :=
  have hbase : (integer (-1)).value? = some (-1) := by rfl
  have hexponent : (integer (-3)).value? = some (-3) := by rfl
  ⟨definedOnReals_unitPower, hbase, hexponent,
    powerOutcome_powWith definedOnReals_unitPower hbase hexponent⟩

end

/-! ## Signs -/

/-- **A power with a negative integer exponent** is a double. It is negative exactly if the base is
    negative and the exponent odd, as long as the exponent is a double itself; those below `-2 ^ 53`
    become even on the way. -/
theorem powWith_negative_exponent {power : Float → Float → Float} (hpower : SignedByParity power)
    {b e : Int64} (hb : b ≠ 0) (he : e.toInt < 0) :
    ∃ x, (integer b).powWith power (.integer e) = .ok (.float x) ∧
      (signOf x = .negative ↔ b.toInt < 0 ∧ Odd e.toInt ∧ -2 ^ 53 ≤ e.toInt) := by
  obtain ⟨z, hz, hbase, hbase', -⟩ := Binary64.exists_value?_ofInt (abs_toInt_lt b)
  obtain ⟨n, hn, hexponent, hexponent', hparity⟩ := Binary64.exists_value?_ofInt (abs_toInt_lt e)
  have hb' : b.toInt ≠ 0 := fun h => hb (Int64.toInt_inj.1 h)
  have hznonzero : z ≠ 0 := mt hbase'.1 hb'
  have hnneg : n < 0 := hexponent.2 he
  have hsize : (1 : ℚ) ≤ |(z : ℚ)| := by
    rw [← Int.cast_abs]
    exact_mod_cast Int.one_le_abs hznonzero
  have hinf := hpower.bounded _ _ _ _ hz hsize hn (Int.cast_lt_zero.2 hnneg)
  have hsign := hpower.sign_iff _ _ _ _ hz (Int.cast_ne_zero.2 hznonzero) hn
  refine ⟨power (Binary64.ofInt b.toInt) (Binary64.ofInt e.toInt), ?_, ?_⟩
  · rw [powWith_integer_neg he, floatPow_regular hz hn (Int.cast_ne_zero.2 hnneg.ne)
      (fun h => hznonzero (Int.cast_eq_zero.1 h.1)) (fun h => h.2 ⟨n, rfl⟩), if_neg hinf]
    rfl
  · rw [hsign, Int.cast_lt_zero, hbase, hparity, abs_of_neg he, neg_le]

/-- The power of `-1` and `-3` is negative. -/
theorem powWith_negative_exponent_three :
    SignedByParity unitPower ∧ (-1 : Int64) ≠ 0 ∧ (-3 : Int64).toInt < 0 ∧
      ∃ x, (integer (-1)).powWith unitPower (.integer (-3)) = .ok (.float x) ∧
        (signOf x = .negative ↔
          (-1 : Int64).toInt < 0 ∧ Odd (-3 : Int64).toInt ∧ -2 ^ 53 ≤ (-3 : Int64).toInt) :=
  ⟨signedByParity_unitPower, by decide, by decide,
    powWith_negative_exponent signedByParity_unitPower (by decide) (by decide)⟩

/-- The exponent `-(2 ^ 53 + 1)` is odd and becomes even, so that this odd power of `-1` is
    positive. -/
theorem exists_positive_odd_power :
    SignedByParity unitPower ∧ (-1 : Int64).toInt < 0 ∧ (-9007199254740993 : Int64).toInt < 0 ∧
      Odd (-9007199254740993 : Int64).toInt ∧
      ∃ x, (integer (-1)).powWith unitPower (.integer (-9007199254740993)) = .ok (.float x) ∧
        signOf x = .positive :=
  ⟨signedByParity_unitPower, by decide, by decide, by decide, 1, by rfl, by rfl⟩

end Calculator.Number
