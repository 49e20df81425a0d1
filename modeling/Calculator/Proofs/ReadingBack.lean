import Calculator.Proofs.Derivation
import Calculator.Proofs.IntegerRange
import Calculator.Proofs.NumberTexts
import Calculator.Proofs.Packing
import Calculator.Proofs.Pieces
import Calculator.Proofs.Refusals

/-!
# Numbers read back

A number is written so that the value of its text is the same number, of the same kind and with the
same bits. A negative number is written as a sign before a literal, so it is the value of an
operation. Only the least integer is lost in this way, since its literal without the sign does not
fit.

* `Number.IsFinite`: the numbers with a text that is an expression.
* `signed`: what a sign before a literal makes of its number.

Results:
* `evaluate_signed`: the value of a literal, with or without a sign before it.
* `evaluate_digits`, `evaluate_decimal`: the values of the texts of natural numbers and decimals.
* `Number.eq_of_text_eq`: the texts of numbers tell them apart.
* `evaluate_text`: numbers read back.
-/

namespace Calculator

open Grammar
open Float.Model.UnpackedFloat (Sign)

/-- Integers, and doubles that are neither infinite nor not a number. -/
def Number.IsFinite : Number → Prop
  | .integer _ => True
  | .float x => x.isFinite

/-! ## Literals with a sign -/

/-- What a sign before a literal makes of its number. -/
def signed : Sign → Number → Except Rejection Number
  | .positive, v => .ok v
  | .negative, v => UnaryOperator.minus.apply v

/-- A sign is the only level in the text of a number. -/
theorem Nesting.depth_signed (sign : Sign) {word : List Char} {value : Literal}
    (h : Grammar.Number word value) : depth (signText sign ++ word) ≤ 1 := by
  have hnumber (count : Count) : run count word = count.step .operand := by
    have hrun : run count (word ++ []) = run (count.step .operand) [] := run_number h (.nil _)
    rwa [List.append_nil, run] at hrun
  cases sign with
  | positive =>
    show (run .initial word).deepest ≤ 1
    rw [hnumber]
    decide
  | negative =>
    have hminus : (['-'], Token.Kind.operator .subtract) ∈ structural := by decide
    show (run .initial (['-'] ++ word)).deepest ≤ 1
    rw [run_structural hminus, hnumber]
    decide

/-- The value of a text within the limits is that of the tree that it denotes. -/
theorem evaluate_of_derives {cs : List Char} {t : Tree} (hlength : cs.length ≤ 1000)
    (hdepth : Nesting.depth cs ≤ 200) (h : Derives .expression cs t) :
    evaluate {} (.ofList cs) = t.value := by
  have hexpression : Expression cs t := ⟨[], cs, [], by simp, .nil, .nil, h⟩
  have hparse : parse {} (.ofList cs) = .ok t := by
    rw [parse_eq_ok_iff_parseUnlimited, String.toList_ofList]
    exact ⟨hlength, hdepth, parseUnlimited_eq_ok_iff_expression.2 hexpression⟩
  rw [evaluate_eq_bind, hparse]
  rfl

/-- The value of a literal, with or without a sign before it. -/
theorem evaluate_signed (sign : Sign) {word : List Char} {value : Literal} {constant : Constant}
    {v : Number} (hword : Grammar.Number word value) (hconstant : value.toConstant = .ok constant)
    (hv : constant.toNumber = .ok v) (hlength : word.length < 1000) :
    evaluate {} (.ofList (signText sign ++ word)) = signed sign v := by
  have hdepth := (Nesting.depth_signed sign hword).trans (by decide : 1 ≤ 200)
  have hatom : Derives .atom word (.constant constant) :=
    (Lexeme.number hword : Lexeme word [] _).derives hconstant
  cases sign with
  | positive =>
    have hexpression : Derives .expression word (.constant constant) := hatom.loosen (by decide)
    exact (evaluate_of_derives hlength.le hdepth hexpression).trans hv
  | negative =>
    have hfactor : Derives .factor (UnaryOperator.minus.symbol.toList ++ ([] ++ word))
        (.unary .minus (.constant constant)) :=
      .sign (by decide) .nil (hatom.loosen (by decide))
    have hexpression : Derives .expression ('-' :: word) (.unary .minus (.constant constant)) :=
      hfactor.loosen (by decide)
    have hshort : ('-' :: word).length ≤ 1000 := hlength
    refine (evaluate_of_derives hshort hdepth hexpression).trans ?_
    rw [Tree.value, Tree.value, hv]
    rfl

/-! ## Integers -/

/-- The value of the digits of a natural number is this number. -/
theorem evaluate_digits (sign : Sign) {k : ℕ} (h : k < 2 ^ 63) :
    evaluate {} (.ofList (signText sign ++ Nat.toDigits 10 k)) =
      signed sign (.integer (.ofNat k)) := by
  have hliteral := Grammar.Number.integer (integerLiteral_toDigits k)
  rw [Numeral.value_toDigits] at hliteral
  have hconstant : (Literal.integer k).toConstant = .ok (.integer (.ofNat k)) :=
    Literal.toConstant_integer_eq_ok_iff.2 ⟨by omega, rfl⟩
  have hlength : (Nat.toDigits 10 k).length ≤ 19 :=
    (Nat.length_toDigits_le_iff (by decide) (by decide)).2 (by omega)
  exact evaluate_signed sign hliteral hconstant rfl (by omega)

theorem evaluate_integerText {n : Int64} (h : n ≠ Int64.minValue) :
    evaluate {} (.ofList (integerText n.toInt)) = .ok (.integer n) := by
  have hne : n.toInt ≠ -2 ^ 63 := by
    intro hleast
    exact h (Int64.toInt_inj.1 (hleast.trans Int64.toInt_minValue.symm))
  obtain ⟨hleast, hgreatest⟩ := Number.inRange_iff.1 (Number.inRange_toInt n)
  have habs : n.toInt.natAbs < 2 ^ 63 := by omega
  have htoInt := Int64.toInt_ofNat_of_lt habs
  unfold integerText
  split
  · have hneg : -(Int64.ofNat n.toInt.natAbs).toInt = n.toInt := by omega
    refine (evaluate_digits .negative habs).trans ?_
    show liftMath (Number.ofInt (-(Int64.ofNat n.toInt.natAbs).toInt)) = _
    rw [hneg, Number.ofInt_toInt]
    rfl
  · have hpos : Int64.ofNat n.toInt.natAbs = n := Int64.toInt_inj.1 (by omega)
    refine (evaluate_digits .positive habs).trans ?_
    rw [hpos]
    rfl

/-- Without its sign the least integer does not fit. -/
theorem evaluate_text_minValue :
    evaluate {} (Number.integer Int64.minValue).text = .error (.math .overflow) := by
  with_unfolding_all rfl

/-! ## Doubles -/

/-- The value of the text of a decimal is the nearest double. -/
theorem evaluate_decimal (sign : Sign) {d : Decimal} (h : d.Bounded) :
    evaluate {} (.ofList (signText sign ++ d.text)) = signed sign (.float d.toFloat) := by
  obtain ⟨c, hliteral, hvalue⟩ := d.floatLiteral_text
  have hlength := Decimal.length_text_le h
  have hread := Decimal.toFloat_eq_of_value_eq hvalue
  rw [← hread]
  exact evaluate_signed sign (.float hliteral) rfl rfl (by omega)

theorem signed_zero (sign : Sign) :
    signed sign (.float (Decimal.toFloat ⟨0, 0⟩)) = .ok (.float (Binary64.pack (.zero sign))) := by
  cases sign <;> with_unfolding_all rfl

theorem signed_pack (sign : Sign) {m : ℕ} {e : ℤ} (h : Binary64.Canonical m e) :
    signed sign (.float (Binary64.pack (.finite .positive m e h.pos))) =
      .ok (.float (Binary64.pack (.finite sign m e h.pos))) := by
  cases sign with
  | positive => rfl
  | negative =>
    show Except.ok (Number.float (-Binary64.pack (.finite .positive m e h.pos))) = _
    rw [Binary64.neg_pack h]
    rfl

theorem evaluate_floatText {x : Float} (h : x.isFinite) :
    evaluate {} (.ofList (floatText x)) = .ok (.float x) := by
  have hx := Binary64.pack_parts x
  have hfinite : (Binary64.parts x).isFinite := h
  unfold floatText
  cases hparts : Binary64.parts x with
  | notANumber | infinity =>
    rw [hparts] at hfinite
    cases hfinite
  | zero sign =>
    rw [← hx, hparts, ← signed_zero]
    exact evaluate_decimal sign (d := ⟨0, 0⟩) ⟨by decide, by decide, by decide⟩
  | finite sign m e hm =>
    have hcanonical := Binary64.canonical_of_parts hparts
    rw [← hx, hparts, ← signed_pack sign hcanonical, ← Decimal.toFloat_shortest hcanonical]
    exact evaluate_decimal sign (Decimal.bounded_shortest hcanonical)

/-! ## Numbers -/

theorem evaluate_text_of_ne {v : Number} (h : v.IsFinite) (hne : v ≠ .integer Int64.minValue) :
    evaluate {} v.text = .ok v := by
  cases v with
  | integer n => exact evaluate_integerText fun heq => hne (congrArg Number.integer heq)
  | float x => exact evaluate_floatText h

/-- The text of a finite number has no value but this number, and only that of the least integer has
    none. -/
theorem evaluate_text_eq_ok_iff {v w : Number} (h : v.IsFinite) :
    evaluate {} v.text = .ok w ↔ v ≠ .integer Int64.minValue ∧ v = w := by
  by_cases hleast : v = .integer Int64.minValue
  · rw [hleast, evaluate_text_minValue]
    simp
  · rw [evaluate_text_of_ne h hleast]
    simp [hleast]

/-- The texts of finite numbers tell them apart. -/
theorem Number.eq_of_text_eq {v w : Number} (hv : v.IsFinite) (hw : w.IsFinite)
    (h : v.text = w.text) : v = w := by
  by_cases hleast : v = .integer Int64.minValue
  · by_cases hleast' : w = .integer Int64.minValue
    · rw [hleast, hleast']
    · have hread := (evaluate_text_eq_ok_iff hw).2 ⟨hleast', rfl⟩
      rw [← h, evaluate_text_eq_ok_iff hv] at hread
      exact hread.2
  · have hread := (evaluate_text_eq_ok_iff hv).2 ⟨hleast, rfl⟩
    rw [h, evaluate_text_eq_ok_iff hw] at hread
    exact hread.2.symm

/-- **Numbers read back.** The value of the text of a finite number is this number, except that the
    least integer overflows; and no other finite number has this text. -/
theorem evaluate_text {v : Number} (h : v.IsFinite) :
    evaluate {} v.text =
        (if v = .integer Int64.minValue then .error (.math .overflow) else .ok v) ∧
      ∀ w : Number, w.IsFinite → v.text = w.text → v = w := by
  refine ⟨?_, fun w hw htext => Number.eq_of_text_eq h hw htext⟩
  split
  · rename_i hleast
    rw [hleast, evaluate_text_minValue]
  · rename_i hne
    exact evaluate_text_of_ne h hne

/-- The negative double next to zero. -/
theorem evaluate_text_subnormal :
    (Number.float (-5e-324)).IsFinite ∧ (Number.float (-5e-324)).text = "-5e-324" ∧
      evaluate {} "-5e-324" = .ok (.float (-5e-324)) := by
  have hfinite : (Number.float (-5e-324)).IsFinite := by
    show Float.isFinite (-5e-324) = true
    decide +kernel
  have htext : (Number.float (-5e-324)).text = "-5e-324" := by decide +kernel
  have hread := (evaluate_text hfinite).1
  rw [htext, if_neg (by simp)] at hread
  exact ⟨hfinite, htext, hread⟩

end Calculator
