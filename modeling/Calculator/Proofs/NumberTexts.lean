import Calculator.Number.Text
import Calculator.Proofs.DecimalValues
import Calculator.Proofs.Grammar

/-!
# The texts of numbers are literals

What is written for an integer is an integer literal of the same value. What is written for a
decimal is a float literal of the same value, whether it has an exponent or is filled up with zeros
around its point, so that it is read as the same double.

Results:
* `integerLiteral_toDigits`: the digits of a natural number are an integer literal.
* `Decimal.floatLiteral_positional`, `Decimal.floatLiteral_scientific`: both notations.
* `Decimal.floatLiteral_text`: the text of a decimal denotes the same number.
* `Decimal.length_text_le`: how long this text can be.
-/

namespace Calculator

open Grammar

/-! ## Digits -/

theorem allDigits_toDigits (n : ℕ) : AllDigits (Nat.toDigits 10 n) := fun _ hc =>
  Nat.isDigit_of_mem_toDigits (by decide) (by decide) hc

theorem allDigits_zeros (n : ℕ) : AllDigits (List.replicate n '0') := by
  intro c hc
  rw [List.eq_of_mem_replicate hc]
  rfl

theorem Grammar.AllDigits.append {cs ds : List Char} (hcs : AllDigits cs) (hds : AllDigits ds) :
    AllDigits (cs ++ ds) := by
  intro c hc
  exact (List.mem_append.1 hc).elim (hcs c) (hds c)

namespace Numeral

theorem value_toDigits (n : ℕ) : value (Nat.toDigits 10 n) = n := Nat.ofDigitChars_ten_toDigits

/-- Zeros before a number change nothing. -/
theorem value_zeros_append (n : ℕ) (ds : List Char) :
    value (List.replicate n '0' ++ ds) = value ds := by
  rw [value, Nat.ofDigitChars_append, Nat.ofDigitChars_replicate_zero, Nat.mul_zero, value]

/-- Each zero behind a number is a factor of ten. -/
theorem value_append_zeros (ds : List Char) (n : ℕ) :
    value (ds ++ List.replicate n '0') = value ds * 10 ^ n := by
  rw [value, Nat.ofDigitChars_append, Nat.ofDigitChars_replicate_zero, Nat.mul_comm, value]

end Numeral

/-- Only the text of zero begins with a zero. -/
theorem exists_toDigits {n : ℕ} (hn : 0 < n) :
    ∃ c cs, Nat.toDigits 10 n = c :: cs ∧ c ≠ '0' := by
  induction n using Nat.strong_induction_on with
  | _ n ih =>
    by_cases hlt : n < 10
    · have hchars : ∀ k < 10, 0 < k → Nat.digitChar k ≠ '0' := by decide
      exact ⟨n.digitChar, [], Nat.toDigits_of_lt_base hlt, hchars n hlt hn⟩
    · obtain ⟨c, cs, hdigits, hc⟩ := ih (n / 10) (by omega) (by omega)
      refine ⟨c, cs ++ [(n % 10).digitChar], ?_, hc⟩
      rw [Nat.toDigits_of_base_le (by decide) (by omega), hdigits, List.cons_append]

/-- The digits of a natural number are an integer literal. -/
theorem integerLiteral_toDigits (n : ℕ) : IntegerLiteral (Nat.toDigits 10 n) := by
  rcases Nat.eq_zero_or_pos n with rfl | hn
  · rw [Nat.toDigits_zero]
    exact .zeros (by simp)
  · obtain ⟨c, cs, hdigits, hc⟩ := exists_toDigits hn
    have hall := allDigits_toDigits n
    rw [hdigits] at hall ⊢
    obtain ⟨hfirst, hlater⟩ := List.forall_mem_cons.1 hall
    exact .digits hfirst hc hlater

namespace Decimal

variable (d : Decimal)

theorem allDigits_digits : AllDigits d.digits := allDigits_toDigits d.significand

theorem value_digits : Numeral.value d.digits = d.significand := Numeral.value_toDigits _

/-! ## Notations -/

/-- The power of ten behind the letter is the one that is written. -/
theorem exponentPart_exponentText (n : ℤ) : ExponentPart ('e' :: exponentText n) n := by
  have hdigits : AllDigits (List.replicate (2 - (Nat.toDigits 10 n.natAbs).length) '0' ++
      Nat.toDigits 10 n.natAbs) :=
    AllDigits.append (allDigits_zeros _) (allDigits_toDigits _)
  have hne : List.replicate (2 - (Nat.toDigits 10 n.natAbs).length) '0' ++
      Nat.toDigits 10 n.natAbs ≠ [] := by
    simp [Nat.toDigits_ne_nil]
  have hvalue := Numeral.value_zeros_append (2 - (Nat.toDigits 10 n.natAbs).length)
    (Nat.toDigits 10 n.natAbs)
  rw [Numeral.value_toDigits] at hvalue
  unfold exponentText
  dsimp only
  split
  · have hpart := ExponentPart.negative (.inl rfl : 'e' = 'e' ∨ 'e' = 'E') hdigits hne
    have hn : -(n.natAbs : ℤ) = n := by omega
    rwa [hvalue, hn] at hpart
  · have hpart := ExponentPart.positive (.inl rfl : 'e' = 'e' ∨ 'e' = 'E') hdigits hne
    have hn : (n.natAbs : ℤ) = n := by omega
    rwa [hvalue, hn] at hpart

/-- Below one, zeros stand before the digits. -/
theorem floatLiteral_below_one (h : d.magnitude < 0) :
    FloatLiteral (positional d.digits d.magnitude) d := by
  have hpos := length_digits_pos d
  have hfraction : AllDigits (List.replicate (-d.magnitude - 1).toNat '0' ++ d.digits) :=
    AllDigits.append (allDigits_zeros _) d.allDigits_digits
  have hliteral := FloatLiteral.pointed (allDigits_zeros 1) hfraction (by simp)
  have hvalue : Numeral.value (List.replicate 1 '0' ++
      (List.replicate (-d.magnitude - 1).toNat '0' ++ d.digits)) = d.significand := by
    rw [Numeral.value_zeros_append, Numeral.value_zeros_append, d.value_digits]
  have hexponent : -((List.replicate (-d.magnitude - 1).toNat '0' ++ d.digits).length : ℤ) =
      d.exponent := by
    rw [List.length_append, List.length_replicate]
    rw [magnitude] at h ⊢
    omega
  rw [hvalue, hexponent] at hliteral
  rw [positional, if_pos h]
  exact hliteral

/-- Zeros fill the digits up to the point, and one stands behind it if nothing else does. -/
theorem floatLiteral_whole (h : d.digits.length ≤ d.magnitude.toNat + 1)
    (hmagnitude : 0 ≤ d.magnitude) :
    ∃ c, FloatLiteral (positional d.digits d.magnitude) c ∧ c.value = d.value := by
  have hpos := length_digits_pos d
  obtain ⟨k, hk⟩ : ∃ k, d.magnitude.toNat + 1 = d.digits.length + k := Nat.exists_eq_add_of_le h
  have hwhole : AllDigits (d.digits ++ List.replicate k '0') :=
    AllDigits.append d.allDigits_digits (allDigits_zeros k)
  have hliteral := FloatLiteral.pointed hwhole (allDigits_zeros 1) (by simp)
  have hvalue : Numeral.value (d.digits ++ List.replicate k '0' ++ List.replicate 1 '0') =
      d.significand * 10 ^ (k + 1) := by
    rw [List.append_assoc, List.replicate_append_replicate, Numeral.value_append_zeros,
      d.value_digits]
  have hexponent : -((1 : ℕ) : ℤ) + (k + 1 : ℕ) = d.exponent := by
    rw [magnitude] at hk hmagnitude
    omega
  rw [hvalue, List.length_replicate] at hliteral
  refine ⟨⟨d.significand * 10 ^ (k + 1), -(1 : ℕ)⟩, ?_, ?_⟩
  · rw [positional, if_neg (Int.not_lt.2 hmagnitude)]
    dsimp only
    rw [hk, List.drop_of_length_le (Nat.le_add_right _ _),
      List.take_of_length_le (Nat.le_add_right _ _), Nat.add_sub_cancel_left]
    exact hliteral
  · rw [value_mul_ten_pow, hexponent]

/-- The point stands among the digits. -/
theorem floatLiteral_among (h : d.magnitude.toNat + 1 < d.digits.length)
    (hmagnitude : 0 ≤ d.magnitude) : FloatLiteral (positional d.digits d.magnitude) d := by
  have hwhole : AllDigits (d.digits.take (d.magnitude.toNat + 1)) := fun c hc =>
    d.allDigits_digits c (List.mem_of_mem_take hc)
  have hfraction : AllDigits (d.digits.drop (d.magnitude.toNat + 1)) := fun c hc =>
    d.allDigits_digits c (List.mem_of_mem_drop hc)
  have hne : d.digits.drop (d.magnitude.toNat + 1) ≠ [] := by
    rw [ne_eq, List.drop_eq_nil_iff]
    omega
  have hliteral := FloatLiteral.pointed hwhole hfraction fun hnil => hne hnil.2
  have hexponent : -((d.digits.drop (d.magnitude.toNat + 1)).length : ℤ) = d.exponent := by
    rw [List.length_drop]
    rw [magnitude] at h hmagnitude ⊢
    omega
  rw [List.take_append_drop, d.value_digits, hexponent] at hliteral
  rw [positional, if_neg (Int.not_lt.2 hmagnitude)]
  dsimp only
  rw [Nat.sub_eq_zero_of_le h.le, List.replicate_zero, List.append_nil,
    if_neg (mt List.isEmpty_iff.1 hne)]
  exact hliteral

/-- Digits around a point denote the decimal with these digits at this place. -/
theorem floatLiteral_positional :
    ∃ c, FloatLiteral (positional d.digits d.magnitude) c ∧ c.value = d.value := by
  rcases Int.lt_or_le d.magnitude 0 with hbelow | hmagnitude
  · exact ⟨d, d.floatLiteral_below_one hbelow, rfl⟩
  · rcases Nat.lt_or_ge (d.magnitude.toNat + 1) d.digits.length with hamong | hwhole
    · exact ⟨d, d.floatLiteral_among hamong hmagnitude, rfl⟩
    · exact d.floatLiteral_whole hwhole hmagnitude

/-- Digits with an exponent denote the decimal with these digits at this place. -/
theorem floatLiteral_scientific : FloatLiteral (scientific d.digits d.magnitude) d := by
  have hpart := exponentPart_exponentText d.magnitude
  have hall := d.allDigits_digits
  have hvalue := d.value_digits
  have hmagnitude : d.magnitude = d.exponent + (d.digits.length - 1 : ℕ) := rfl
  unfold scientific
  cases hdigits : d.digits with
  | nil => exact absurd hdigits Nat.toDigits_ne_nil
  | cons c cs =>
    rw [hdigits] at hall hvalue hmagnitude
    obtain ⟨hfirst, hlater⟩ := List.forall_mem_cons.1 hall
    have hwhole : AllDigits [c] := List.forall_mem_singleton.2 hfirst
    cases cs with
    | nil =>
      have hliteral := FloatLiteral.exponent hwhole (by simp) hpart
      have hexponent : d.magnitude = d.exponent := hmagnitude.trans (Int.add_zero _)
      have hd : (⟨Numeral.value [c], d.magnitude⟩ : Decimal) = d := by rw [hvalue, hexponent]
      rwa [hd] at hliteral
    | cons e es =>
      have hliteral := FloatLiteral.pointedExponent hwhole hlater (by simp) hpart
      have hexponent : d.magnitude - ((e :: es).length : ℤ) = d.exponent := by
        rw [hmagnitude]
        exact Int.add_sub_cancel _ _
      have hd :
          (⟨Numeral.value ([c] ++ e :: es), d.magnitude - (e :: es).length⟩ : Decimal) = d := by
        rw [hexponent, List.singleton_append, hvalue]
      rwa [hd] at hliteral

/-- **The text of a decimal denotes the same number.** -/
theorem floatLiteral_text : ∃ c, FloatLiteral d.text c ∧ c.value = d.value := by
  unfold text
  split
  · exact d.floatLiteral_positional
  · exact ⟨d, d.floatLiteral_scientific, rfl⟩

/-! ## Lengths -/

theorem length_exponentText_le {n : ℤ} (h : n.natAbs < 10 ^ 4) : (exponentText n).length ≤ 5 := by
  have hdigits : (Nat.toDigits 10 n.natAbs).length ≤ 4 :=
    (Nat.length_toDigits_le_iff (by decide) (by decide)).2 h
  unfold exponentText
  dsimp only
  rw [List.length_cons, List.length_append, List.length_replicate]
  omega

theorem length_positional_le (digits : List Char) {magnitude : ℤ} (h : IsPositional magnitude) :
    (positional digits magnitude).length ≤ digits.length + 18 := by
  obtain ⟨hleast, hgreatest⟩ := h
  unfold positional
  split
  · rw [List.length_cons, List.length_cons, List.length_append, List.length_replicate]
    omega
  · dsimp only
    rw [List.length_append, List.length_append, List.length_replicate, List.length_take,
      List.length_cons]
    split
    · rw [List.length_singleton]
      omega
    · rw [List.length_drop]
      omega

theorem length_scientific_le (digits : List Char) {magnitude : ℤ} (h : magnitude.natAbs < 10 ^ 4) :
    (scientific digits magnitude).length ≤ digits.length + 8 := by
  have hexponent := length_exponentText_le h
  unfold scientific
  dsimp only
  rw [List.length_append, List.length_append, List.length_take, List.length_cons]
  split
  · rw [List.length_nil]
    omega
  · rw [List.length_cons, List.length_drop]
    omega

/-- The text of a decimal has not many more characters than the decimal has digits. -/
theorem length_text_le {d : Decimal} (h : d.Bounded) : d.text.length ≤ 819 := by
  obtain ⟨hlength, hleast, hgreatest⟩ := h
  have hmagnitude : d.exponent ≤ d.magnitude := Int.le_add_of_nonneg_right (Int.natCast_nonneg _)
  unfold text
  split
  · rename_i hpositional
    have hle := length_positional_le d.digits hpositional
    omega
  · have hle := length_scientific_le d.digits (by omega : d.magnitude.natAbs < 10 ^ 4)
    omega

end Decimal

end Calculator
