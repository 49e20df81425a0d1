import Calculator.Proofs.NumberValues
import Calculator.Proofs.ReadingBack

/-!
# The texts of results

What is printed for a whole number, be it an integer or a double, is its decimal with all digits and
without leading zeros, so it can be told from what is printed for any other number: that has a
point, an exponent or no digit at all. Results look alike if and only if they are equal as numbers.

* `CanonicalNumeral`: the decimals of integers, with the integers that they denote.
* `Number.IsWhole`: integers, and doubles that are equal to one.
* `Number.NumericallyEqual`: the same rational number or the same infinity.

Results:
* `canonicalNumeral_integerText`: the text of an integer is its decimal.
* `Number.result_of_value?`, `Number.result_of_not_isWhole`: what is printed for a number.
* `Number.isWhole_iff`: the whole numbers can be told from what is printed.
* `Number.numericallyEqual_of_result_eq`, `Number.result_eq_of_numericallyEqual`: which results look
  alike.
* `Number.result_canonical`: all of this together.
-/

namespace Calculator

open Grammar
open Float.Model.UnpackedFloat (Sign)

/-! ## Decimals of integers -/

/-- The decimals of integers, with the integers that they denote. Only the decimal of zero begins
    with a zero, and only the negative integers have a sign. -/
inductive CanonicalNumeral : List Char → ℤ → Prop where
  | zero : CanonicalNumeral ['0'] 0
  | positive {c : Char} {cs : List Char} :
    c.isDigit → c ≠ '0' → AllDigits cs → CanonicalNumeral (c :: cs) (Numeral.value (c :: cs))
  | negative {c : Char} {cs : List Char} :
    c.isDigit → c ≠ '0' → AllDigits cs →
    CanonicalNumeral ('-' :: c :: cs) (-Numeral.value (c :: cs))

namespace CanonicalNumeral

variable {cs : List Char} {n k : ℤ}

/-- A decimal denotes one integer. -/
theorem unique (h : CanonicalNumeral cs n) (h' : CanonicalNumeral cs k) : n = k := by
  cases h with
  | zero =>
    cases h' with
    | zero => rfl
    | positive _ hne _ => exact absurd rfl hne
  | positive hdigit hne _ =>
    cases h' with
    | zero => exact absurd rfl hne
    | positive => rfl
    | negative => cases hdigit
  | negative =>
    cases h' with
    | positive hdigit _ _ => cases hdigit
    | negative => rfl

/-- A decimal is made of digits and perhaps a sign. -/
theorem forall_mem (h : CanonicalNumeral cs n) : ∀ c ∈ cs, c.isDigit ∨ c = '-' := by
  cases h with
  | zero => exact List.forall_mem_singleton.2 (.inl rfl)
  | positive hdigit _ hcs =>
    exact List.forall_mem_cons.2 ⟨.inl hdigit, fun c hc => .inl (hcs c hc)⟩
  | negative hdigit _ hcs =>
    exact List.forall_mem_cons.2
      ⟨.inr rfl, List.forall_mem_cons.2 ⟨.inl hdigit, fun c hc => .inl (hcs c hc)⟩⟩

end CanonicalNumeral

/-- The text of an integer is its decimal. -/
theorem canonicalNumeral_integerText (n : ℤ) : CanonicalNumeral (integerText n) n := by
  rcases eq_or_ne n 0 with rfl | hn
  · exact .zero
  · obtain ⟨c, cs, hdigits, hc⟩ := exists_toDigits (Int.natAbs_pos.2 hn)
    have hall := allDigits_toDigits n.natAbs
    have hvalue := Numeral.value_toDigits n.natAbs
    rw [hdigits] at hall hvalue
    obtain ⟨hfirst, hlater⟩ := List.forall_mem_cons.1 hall
    unfold integerText
    rw [hdigits]
    split
    · have hneg : n = -(Numeral.value (c :: cs) : ℤ) := by omega
      rw [hneg]
      exact .negative hfirst hc hlater
    · have hpos : n = (Numeral.value (c :: cs) : ℤ) := by omega
      rw [hpos]
      exact .positive hfirst hc hlater

theorem countP_integerText (n : ℤ) :
    (integerText n).countP Char.isDigit = (Nat.toDigits 10 n.natAbs).length := by
  have hsign : (if n < 0 then ['-'] else []).countP Char.isDigit = 0 := by
    split <;> rfl
  rw [integerText, List.countP_append, hsign, Nat.zero_add]
  exact List.countP_eq_length.2 (allDigits_toDigits n.natAbs)

/-! ## Texts of doubles -/

theorem signText_injective : Function.Injective signText := by
  intro sign sign' h
  cases sign <;> cases sign' <;> simp_all [signText]

namespace Grammar.FloatLiteral

variable {word : List Char} {value : Decimal}

theorem exists_digit (h : FloatLiteral word value) : ∃ c ∈ word, c.isDigit := by
  have hdigits {cs : List Char} (hcs : AllDigits cs) (hne : cs ≠ []) : ∃ c ∈ cs, c.isDigit := by
    obtain ⟨c, hc⟩ := List.exists_mem_of_ne_nil cs hne
    exact ⟨c, hc, hcs c hc⟩
  cases h with
  | @pointed whole fraction hwhole hfraction hne =>
    obtain ⟨c, hc, hdigit⟩ := hdigits (hwhole.append hfraction) (by simpa using hne)
    refine ⟨c, ?_, hdigit⟩
    simp only [List.mem_append, List.mem_cons] at hc ⊢
    tauto
  | @pointedExponent whole fraction _ _ hwhole hfraction hne _ =>
    obtain ⟨c, hc, hdigit⟩ := hdigits (hwhole.append hfraction) (by simpa using hne)
    refine ⟨c, ?_, hdigit⟩
    simp only [List.mem_append, List.mem_cons] at hc ⊢
    tauto
  | exponent hwhole hne _ =>
    obtain ⟨c, hc, hdigit⟩ := hdigits hwhole hne
    exact ⟨c, List.mem_append_left _ hc, hdigit⟩

/-- A float literal has a point or an exponent. -/
theorem exists_mark (h : FloatLiteral word value) : ∃ c ∈ word, ¬(c.isDigit ∨ c = '-') := by
  cases h with
  | pointed | pointedExponent => exact ⟨'.', by simp, by decide⟩
  | exponent _ _ hpart =>
    obtain ⟨mark, sign, c, ds, rfl, rfl | rfl, -⟩ := hpart.exists_cons
    · exact ⟨'e', by simp, by decide⟩
    · exact ⟨'E', by simp, by decide⟩

end Grammar.FloatLiteral

/-- A finite double is written as a float literal, with or without a sign before it. -/
theorem exists_floatLiteral {x : Float} (h : x.isFinite) :
    ∃ sign word value, floatText x = signText sign ++ word ∧ FloatLiteral word value := by
  have hfinite : (Binary64.parts x).isFinite := h
  unfold floatText
  cases hparts : Binary64.parts x with
  | notANumber | infinity =>
    rw [hparts] at hfinite
    cases hfinite
  | zero sign =>
    obtain ⟨value, hliteral, -⟩ := Decimal.floatLiteral_text ⟨0, 0⟩
    exact ⟨sign, _, value, rfl, hliteral⟩
  | finite sign m e hm =>
    obtain ⟨value, hliteral, -⟩ := (Decimal.shortest m e).floatLiteral_text
    exact ⟨sign, _, value, rfl, hliteral⟩

/-- Infinities, and what is not a number, are written without digits. -/
theorem floatText_of_not_isFinite {x : Float} (h : ¬x.isFinite) :
    (∃ sign, Binary64.parts x = .infinity sign ∧ floatText x = signText sign ++ ['i', 'n', 'f']) ∨
      Binary64.parts x = .notANumber ∧ floatText x = ['n', 'a', 'n'] := by
  have hfinite : ¬(Binary64.parts x).isFinite := h
  unfold floatText
  cases hparts : Binary64.parts x with
  | notANumber => exact .inr ⟨rfl, rfl⟩
  | infinity sign => exact .inl ⟨sign, rfl, rfl⟩
  | zero | finite =>
    rw [hparts] at hfinite
    exact absurd rfl hfinite

/-- Only finite doubles are written with digits. -/
theorem any_isDigit_floatText_iff {x : Float} : (floatText x).any Char.isDigit ↔ x.isFinite := by
  constructor
  · intro hdigit
    by_contra h
    rcases floatText_of_not_isFinite h with ⟨sign, -, htext⟩ | ⟨-, htext⟩
    · rw [htext] at hdigit
      cases sign <;> cases hdigit
    · rw [htext] at hdigit
      cases hdigit
  · intro h
    obtain ⟨sign, word, value, htext, hliteral⟩ := exists_floatLiteral h
    obtain ⟨c, hc, hdigit⟩ := hliteral.exists_digit
    rw [htext]
    exact List.any_eq_true.2 ⟨c, List.mem_append_right _ hc, hdigit⟩

theorem isFinite_iff_of_floatText_eq {x y : Float} (h : floatText x = floatText y) :
    x.isFinite ↔ y.isFinite := by
  rw [← any_isDigit_floatText_iff, h, any_isDigit_floatText_iff]

/-- No double is written as the decimal of an integer. -/
theorem not_canonicalNumeral_floatText (x : Float) (n : ℤ) : ¬CanonicalNumeral (floatText x) n := by
  intro h
  have hall := h.forall_mem
  by_cases hfinite : x.isFinite
  · obtain ⟨sign, word, value, htext, hliteral⟩ := exists_floatLiteral hfinite
    obtain ⟨c, hc, hmark⟩ := hliteral.exists_mark
    exact hmark (hall c (htext ▸ List.mem_append_right _ hc))
  · rcases floatText_of_not_isFinite hfinite with ⟨sign, -, htext⟩ | ⟨-, htext⟩
    · exact absurd (hall 'n' (by simp [htext])) (by decide)
    · exact absurd (hall 'n' (by simp [htext])) (by decide)

/-- A double that is not finite is known from its text. -/
theorem parts_eq_of_floatText_eq {x y : Float} (hx : ¬x.isFinite) (h : floatText x = floatText y) :
    Binary64.parts x = Binary64.parts y := by
  have hy : ¬y.isFinite := mt (isFinite_iff_of_floatText_eq h).2 hx
  rcases floatText_of_not_isFinite hx with ⟨sign, hparts, htext⟩ | ⟨hparts, htext⟩ <;>
    rcases floatText_of_not_isFinite hy with ⟨sign', hparts', htext'⟩ | ⟨hparts', htext'⟩
  · rw [htext, htext'] at h
    rw [hparts, hparts', signText_injective (List.append_cancel_right h)]
  · rw [htext, htext'] at h
    cases sign <;> cases h
  · rw [htext, htext'] at h
    cases sign' <;> cases h
  · rw [hparts, hparts']

/-! ## Doubles of the same value -/

namespace Binary64

open Float.Model (UnpackedFloat Format)

variable {x y : Float}

/-- Of each number but zero there is one double. -/
theorem eq_of_value?_eq {q : ℚ} (hx : value? x = some q) (hy : value? y = some q) (hq : q ≠ 0) :
    x = y := by
  rcases value?_eq_some_iff.1 hx with ⟨-, -, hzero⟩ | ⟨sign, m, e, hm, hparts, rfl⟩
  · exact absurd hzero hq
  · rcases value?_eq_some_iff.1 hy with ⟨-, -, hzero⟩ | ⟨sign', n, f, hn, hparts', hvalue⟩
    · exact absurd hzero hq
    · obtain ⟨rfl, hsize⟩ := dyadic_inj hm hn hvalue
      -- both significands are rounded to themselves, and to each other
      have hrounded : UnpackedFloat.round Format.binary64 sign m e = .finite sign m e hm :=
        round_exact (canonical_of_parts hparts) rfl
      have hrounded' : UnpackedFloat.round Format.binary64 sign m e = .finite sign n f hn :=
        round_exact (canonical_of_parts hparts') hsize
      rw [← pack_parts x, ← pack_parts y, hparts, hparts', ← hrounded, hrounded']

theorem parts_of_isNaN (h : x.isNaN) : parts x = .notANumber := by
  have hparts : (parts x).isNaN := h
  cases hx : parts x with
  | notANumber => rfl
  | _ =>
    rw [hx] at hparts
    cases hparts

/-- There is one double that is not a number. -/
theorem eq_of_isNaN (hx : x.isNaN) (hy : y.isNaN) : x = y := by
  rw [← pack_parts x, ← pack_parts y, parts_of_isNaN hx, parts_of_isNaN hy]

theorem isIntegral_iff_exists : isIntegral x ↔ ∃ n : ℤ, value? x = some (n : ℚ) := by
  constructor
  · intro h
    have hvalue : ∃ q, value? x = some q := by
      unfold isIntegral at h
      unfold value?
      cases hparts : parts x <;> simp_all
    obtain ⟨q, hq⟩ := hvalue
    obtain ⟨n, rfl⟩ := (isIntegral_iff hq).1 h
    exact ⟨n, hq⟩
  · rintro ⟨n, h⟩
    exact (isIntegral_iff h).2 ⟨n, rfl⟩

theorem natAbs_lt_of_value? {n : ℤ} (h : value? x = some (n : ℚ)) : n.natAbs < 2 ^ 1024 := by
  rcases value?_eq_some_iff.1 h with ⟨-, -, hzero⟩ | ⟨sign, m, e, hm, hparts, hvalue⟩
  · rw [Int.cast_eq_zero.1 hzero, Int.natAbs_zero]
    positivity
  · have hsize : ((n.natAbs : ℕ) : ℚ) = m * 2 ^ e := by
      rw [Nat.cast_natAbs, Int.cast_abs, hvalue]
      cases sign with
      | positive => rw [dyadic_positive, abs_of_nonneg (by positivity)]
      | negative => rw [dyadic_negative, abs_neg, abs_of_nonneg (by positivity)]
    have hbound := (canonical_of_parts hparts).between.2
    rw [← hsize] at hbound
    exact_mod_cast hbound

end Binary64

namespace Number

/-! ## What is printed -/

/-- Integers, and doubles that are equal to one. -/
def IsWhole (v : Number) : Prop := ∃ n : ℤ, v.value? = some (n : ℚ)

/-- Not a number. -/
def IsNaN (v : Number) : Prop := ∃ x : Float, x.isNaN ∧ v = .float x

/-- The same rational number or the same infinity. -/
def NumericallyEqual (v w : Number) : Prop :=
  (∃ q, v.value? = some q ∧ w.value? = some q) ∨
    ∃ x : Float, x.isInf ∧ v = .float x ∧ w = .float x

variable {v w : Number}

theorem isWhole_integer (n : Int64) : (integer n).IsWhole := ⟨n.toInt, rfl⟩

theorem isWhole_float_iff {x : Float} : (float x).IsWhole ↔ Binary64.isIntegral x :=
  Binary64.isIntegral_iff_exists.symm

/-- A whole number is printed as an integer. -/
theorem result_of_value? {n : ℤ} (h : v.value? = some (n : ℚ)) :
    v.result = .ofList (integerText n) := by
  cases v with
  | integer k =>
    have hk : k.toInt = n := by exact_mod_cast Option.some.inj h
    rw [← hk]
    rfl
  | float x =>
    have hwhole : Binary64.isIntegral x := isWhole_float_iff.1 ⟨n, h⟩
    rw [result, if_pos hwhole, Binary64.truncated_of_value? h]

/-- Zero is printed without a sign. -/
example : (float (-0.0)).result = "0" := by decide +kernel

theorem natAbs_lt_of_value? {n : ℤ} (h : v.value? = some (n : ℚ)) : n.natAbs < 2 ^ 1024 := by
  cases v with
  | integer k =>
    have hk : k.toInt = n := by exact_mod_cast Option.some.inj h
    obtain ⟨hlow, hhigh⟩ := inRange_iff.1 (inRange_toInt k)
    have hbound : n.natAbs ≤ 2 ^ 63 := by omega
    exact hbound.trans_lt (by decide +kernel)
  | float x => exact Binary64.natAbs_lt_of_value? h

/-- Any other number is printed as its text, which is no decimal of an integer. -/
theorem result_of_not_isWhole (h : ¬v.IsWhole) :
    v.result = v.text ∧ ∀ n, ¬CanonicalNumeral v.text.toList n := by
  cases v with
  | integer n => exact absurd (isWhole_integer n) h
  | float x =>
    have hfractional : ¬Binary64.isIntegral x := mt isWhole_float_iff.2 h
    refine ⟨by rw [result, if_neg hfractional]; rfl, fun n => ?_⟩
    rw [text, String.toList_ofList]
    exact not_canonicalNumeral_floatText x n

theorem canonicalNumeral_result {n : ℤ} (h : v.value? = some (n : ℚ)) :
    CanonicalNumeral v.result.toList n := by
  rw [result_of_value? h, String.toList_ofList]
  exact canonicalNumeral_integerText n

/-- The whole numbers can be told from what is printed. -/
theorem isWhole_iff : v.IsWhole ↔ ∃ n, CanonicalNumeral v.result.toList n := by
  constructor
  · rintro ⟨n, hn⟩
    exact ⟨n, canonicalNumeral_result hn⟩
  · rintro ⟨n, hnumeral⟩
    by_contra h
    obtain ⟨hresult, hnone⟩ := result_of_not_isWhole h
    exact hnone n (hresult ▸ hnumeral)

/-! ## Results that look alike -/

/-- Numbers that are not whole are known from their texts. -/
theorem numericallyEqual_of_text_eq (hv : ¬v.IsWhole) (hw : ¬w.IsWhole) (h : v.text = w.text) :
    v.NumericallyEqual w ∨ v.IsNaN ∧ w.IsNaN := by
  cases v with
  | integer n => exact absurd (isWhole_integer n) hv
  | float x =>
    cases w with
    | integer n => exact absurd (isWhole_integer n) hw
    | float y =>
      have htext : floatText x = floatText y := by
        simpa only [text, String.ofList_inj] using h
      by_cases hx : x.isFinite
      · -- finite doubles are read back from their texts
        have hy := (isFinite_iff_of_floatText_eq htext).1 hx
        obtain ⟨q, hq⟩ := Binary64.isFinite_iff.1 hx
        have heq := eq_of_text_eq (v := .float x) (w := .float y) hx hy h
        exact .inl (.inl ⟨q, hq, heq ▸ hq⟩)
      · -- the other ones have no parts but those that are written
        have hparts := parts_eq_of_floatText_eq hx htext
        obtain rfl : x = y := by rw [← Binary64.pack_parts x, hparts, Binary64.pack_parts]
        by_cases hnan : x.isNaN
        · exact .inr ⟨⟨x, hnan, rfl⟩, ⟨x, hnan, rfl⟩⟩
        · by_cases hinf : x.isInf
          · exact .inl (.inr ⟨x, hinf, rfl, rfl⟩)
          · exact absurd (Binary64.isFinite_iff.2 (Binary64.exists_value? hinf hnan)) hx

theorem numericallyEqual_of_result_eq (h : v.result = w.result) :
    v.NumericallyEqual w ∨ v.IsNaN ∧ w.IsNaN := by
  have hwhole : v.IsWhole ↔ w.IsWhole := by rw [isWhole_iff, isWhole_iff, h]
  by_cases hv : v.IsWhole
  · obtain ⟨n, hn⟩ := hv
    obtain ⟨k, hk⟩ := hwhole.1 ⟨n, hn⟩
    have hnumeral := canonicalNumeral_result hn
    rw [h] at hnumeral
    rw [hnumeral.unique (canonicalNumeral_result hk)] at hn
    exact .inl (.inl ⟨k, hn, hk⟩)
  · have hw := mt hwhole.2 hv
    rw [(result_of_not_isWhole hv).1, (result_of_not_isWhole hw).1] at h
    exact numericallyEqual_of_text_eq hv hw h

theorem result_eq_of_numericallyEqual (h : v.NumericallyEqual w) : v.result = w.result := by
  rcases h with ⟨q, hv, hw⟩ | ⟨x, -, rfl, rfl⟩
  · by_cases hwhole : ∃ n : ℤ, q = n
    · obtain ⟨n, rfl⟩ := hwhole
      rw [result_of_value? hv, result_of_value? hw]
    · cases v with
      | integer n => exact absurd ⟨n.toInt, (Option.some.inj hv).symm⟩ hwhole
      | float x =>
        cases w with
        | integer n => exact absurd ⟨n.toInt, (Option.some.inj hw).symm⟩ hwhole
        | float y =>
          have hq : q ≠ 0 := by
            rintro rfl
            exact hwhole ⟨0, Int.cast_zero.symm⟩
          rw [Binary64.eq_of_value?_eq hv hw hq]
  · rfl

/-- **The text of a result.** A whole number is printed as its decimal, of 309 digits at most; any
    other number as its own text, which is no decimal of an integer. Two numbers are printed alike
    if and only if they are numerically equal or neither of them is a number. -/
theorem result_canonical (v w : Number) :
    (∀ n : ℤ, v.value? = some (n : ℚ) →
      CanonicalNumeral v.result.toList n ∧ v.result.toList.countP Char.isDigit ≤ 309) ∧
    (¬v.IsWhole → v.result = v.text ∧ ∀ n, ¬CanonicalNumeral v.text.toList n) ∧
    (v.result = w.result ↔ v.NumericallyEqual w ∨ v.IsNaN ∧ w.IsNaN) := by
  refine ⟨fun n hn => ?_, result_of_not_isWhole, numericallyEqual_of_result_eq, ?_⟩
  · have hlength : (Nat.toDigits 10 n.natAbs).length ≤ 309 :=
      (Nat.length_toDigits_le_iff (by decide) (by decide)).2
        ((natAbs_lt_of_value? hn).trans (by decide +kernel))
    refine ⟨canonicalNumeral_result hn, ?_⟩
    rwa [result_of_value? hn, String.toList_ofList, countP_integerText]
  · rintro (hequal | ⟨hv, hw⟩)
    · exact result_eq_of_numericallyEqual hequal
    · obtain ⟨x, hx, rfl⟩ := hv
      obtain ⟨y, hy, rfl⟩ := hw
      rw [Binary64.eq_of_isNaN hx hy]

/-- A double and an integer behind which not all integers are doubles, and a fraction. -/
theorem result_canonical_large :
    (float 9007199254740992).value? = some ((9007199254740992 : ℤ) : ℚ) ∧
      CanonicalNumeral (float 9007199254740992).result.toList 9007199254740992 ∧
      (float 9007199254740992).result = (integer 9007199254740992).result ∧
      ¬(float 0.5).IsWhole ∧ (float 0.5).result = (float 0.5).text := by
  have hparts : Binary64.parts 9007199254740992 = .finite .positive (2 ^ 52) 1 (by decide) := rfl
  have hvalue : (float 9007199254740992).value? = some ((9007199254740992 : ℤ) : ℚ) := by
    rw [value?, Binary64.value?_of_finite hparts, Binary64.dyadic_positive]
    norm_num
  have hhalf : ¬(float 0.5).IsWhole := mt isWhole_float_iff.1 (by decide)
  obtain ⟨hcanonical, -, halike⟩ :=
    result_canonical (float 9007199254740992) (integer 9007199254740992)
  refine ⟨hvalue, (hcanonical _ hvalue).1, halike.2 (.inl (.inl ⟨_, hvalue, rfl⟩)), hhalf, ?_⟩
  exact ((result_canonical (float 0.5) (float 0.5)).2.1 hhalf).1

end Number

end Calculator
