import Calculator.Proofs.Derivation
import Calculator.Proofs.Evaluation
import Mathlib.Data.List.Basic

/-!
# Only arithmetic has a value

A text with a value is made of numbers, signs, arithmetic operators, round brackets around one
phrase, and white space. Nothing else that can be written gets past the grammar, the construction of
the tree and the tables of the operators.

* `Tree.IsArithmetic`, `Phrase.IsArithmetic`: trees and phrases that hold nothing but arithmetic.
* `Text.IsArithmetic`: the characters that arithmetic is written with.
* `Text.InFloat`, `Text.Arithmetical`: an `e` that marks the exponent of a float literal, and texts
  with arithmetic characters in which no other `e` stands.

Results:
* `Tree.isArithmetic_of_value`: a tree with a value is arithmetic.
* `Grammar.Derives.arithmetical`: so is every text that denotes an arithmetic tree.
* `arithmetic_of_evaluate`: a text with a value is arithmetic.
-/

namespace Calculator

open Grammar

/-! ## Trees and phrases -/

/-- A tree of numbers, signs and arithmetic operators. -/
def Tree.IsArithmetic : Tree → Prop
  | .constant value => value.IsNumeric
  | .binary left operator right => operator.IsArithmetic ∧ left.IsArithmetic ∧ right.IsArithmetic
  | .unary operator operand => operator.IsArithmetic ∧ operand.IsArithmetic

/-- A phrase of numbers, signs, arithmetic operators and groups. -/
def Phrase.IsArithmetic : Phrase → Prop
  | .literal (.integer _) _ | .literal (.float _) _ => True
  | .literal (.text _) _ | .literal (.bool _) _ | .literal .none _ => False
  | .prefixed operator _ operand => operator.IsArithmetic ∧ operand.IsArithmetic
  | .joined left (.operator operator) _ right =>
    operator.IsArithmetic ∧ left.IsArithmetic ∧ right.IsArithmetic
  | .group _ inner _ => inner.IsArithmetic
  | .name _ | .joined _ (.logical _) _ _ | .display _ _ _ _ | .trailed _ _ => False

theorem Constant.isNumeric_of_toNumber {constant : Constant} {v : Number}
    (h : constant.toNumber = .ok v) : constant.IsNumeric := by
  cases constant with
  | integer value => trivial
  | float value => trivial
  | _ => cases h

theorem Operator.isArithmetic_of_apply {operator : Operator} {a b v : Number}
    (h : operator.apply a b = .ok v) : operator.IsArithmetic := by
  cases operator with
  | matrixMultiply | leftShift | rightShift | bitAnd | bitOr | bitXor => cases h
  | _ => trivial

theorem UnaryOperator.isArithmetic_of_apply {operator : UnaryOperator} {a v : Number}
    (h : operator.apply a = .ok v) : operator.IsArithmetic := by
  cases operator with
  | plus | minus => trivial
  | invert | not => cases h

/-- A tree with a value is arithmetic. -/
theorem Tree.isArithmetic_of_value {t : Tree} {v : Number} (h : t.value = .ok v) :
    t.IsArithmetic := by
  induction t generalizing v with
  | constant value => exact Constant.isNumeric_of_toNumber h
  | binary left operator right ihl ihr =>
    rw [value] at h
    obtain ⟨a, ha, h⟩ := bind_eq_ok_iff.1 h
    obtain ⟨b, hb, happly⟩ := bind_eq_ok_iff.1 h
    exact ⟨Operator.isArithmetic_of_apply happly, ihl ha, ihr hb⟩
  | unary operator operand ih =>
    rw [value] at h
    obtain ⟨a, ha, happly⟩ := bind_eq_ok_iff.1 h
    exact ⟨UnaryOperator.isArithmetic_of_apply happly, ih ha⟩

/-- A phrase with an arithmetic tree is arithmetic. -/
theorem Phrase.isArithmetic_of_ofPhrase (text : List Char) : (phrase : Phrase) → (t : Tree) →
    Tree.ofPhrase text phrase = .ok t → t.IsArithmetic → phrase.IsArithmetic
  | .literal value span, t, h, ht => by
    cases value with
    | integer n => trivial
    | float d => trivial
    | _ => cases h; exact ht
  | .prefixed operator mark operand, t, h, ht => by
    obtain ⟨a, ha, rfl⟩ := Tree.ofPhrase_prefixed_eq_ok_iff.1 h
    exact ⟨ht.1, isArithmetic_of_ofPhrase text operand a ha ht.2⟩
  | .joined left (.operator operator) mark right, t, h, ht => by
    obtain ⟨a, b, ha, hb, rfl⟩ := Tree.ofPhrase_joined_eq_ok_iff.1 h
    exact ⟨ht.1, isArithmetic_of_ofPhrase text left a ha ht.2.1,
      isArithmetic_of_ofPhrase text right b hb ht.2.2⟩
  | .group opening inner closing, t, h, ht => by
    rw [Tree.ofPhrase_group] at h
    exact isArithmetic_of_ofPhrase text inner t h ht
  | .joined _ (.logical _) _ _, _, h, _ => absurd h Tree.ofPhrase_logical_ne_ok
  | .name _, _, h, _ => by cases h
  | .display _ _ _ _, _, h, _ => by cases h
  | .trailed _ _, _, h, _ => by cases h

/-! ## Characters -/

/-- The characters that arithmetic is written with. -/
def Text.IsArithmetic (c : Char) : Prop :=
  c.isDigit ∨
    c ∈ ['.', 'e', 'E', '+', '-', '*', '/', '%', '(', ')', ' ', '\t', '\r', '\n']

instance (c : Char) : Decidable (Text.IsArithmetic c) := inferInstanceAs (Decidable (_ ∨ _))

/-- The characters of arithmetic but the letter `e`. -/
def Text.IsPlain (c : Char) : Prop := Text.IsArithmetic c ∧ ¬(c = 'e' ∨ c = 'E')

instance (c : Char) : Decidable (Text.IsPlain c) := inferInstanceAs (Decidable (_ ∧ _))

/-- The letter `e` between `before` and `after` marks the exponent of a float literal, behind a
    digit or a point and before a digit or a sign and a digit. -/
structure Text.InFloat (before : List Char) (mark : Char) (after : List Char) : Prop where
  literal : ∃ outer front back rest value, before = outer ++ front ∧ after = back ++ rest ∧
    FloatLiteral (front ++ mark :: back) value
  left : ∃ init c, before = init ++ [c] ∧ (c.isDigit ∨ c = '.')
  right : ∃ sign c rest, after = sign ++ c :: rest ∧ (sign = [] ∨ sign = ['+'] ∨ sign = ['-']) ∧
    c.isDigit

/-- A text with the characters of arithmetic only, and with `e` in float literals only. -/
structure Text.Arithmetical (cs : List Char) : Prop where
  characters : ∀ c ∈ cs, Text.IsArithmetic c
  exponents : ∀ before mark after, cs = before ++ mark :: after → mark = 'e' ∨ mark = 'E' →
    Text.InFloat before mark after

namespace Text

theorem isPlain_of_isDigit {c : Char} (h : c.isDigit) : IsPlain c := by
  refine ⟨.inl h, ?_⟩
  rintro (rfl | rfl) <;> cases h

theorem InFloat.extend {before after : List Char} {mark : Char} (h : InFloat before mark after)
    (outer rest : List Char) : InFloat (outer ++ before) mark (after ++ rest) := by
  obtain ⟨x, front, back, y, value, rfl, rfl, hf⟩ := h.literal
  obtain ⟨init, c, hinit, hc⟩ := h.left
  obtain ⟨sign, d, tail, htail, hsign, hd⟩ := h.right
  refine ⟨⟨outer ++ x, front, back, y ++ rest, value, by simp, by simp, hf⟩,
    ⟨outer ++ init, c, by rw [hinit]; simp, hc⟩, ⟨sign, d, tail ++ rest, by rw [htail]; simp, hsign,
    hd⟩⟩

namespace Arithmetical

theorem append {cs ds : List Char} (hc : Arithmetical cs) (hd : Arithmetical ds) :
    Arithmetical (cs ++ ds) := by
  constructor
  · intro c h
    rcases List.mem_append.1 h with h | h
    · exact hc.characters c h
    · exact hd.characters c h
  · intro before mark after h hmark
    rcases List.append_eq_append_iff.1 h with ⟨inner, rfl, hds⟩ | ⟨inner, rfl, hafter⟩
    · have hin := (hd.exponents inner mark after hds hmark).extend cs []
      rwa [List.append_nil] at hin
    · cases inner with
      | nil =>
        -- the letter is the first one of `ds`
        have hin := (hd.exponents [] mark after hafter.symm hmark).extend before []
        rwa [List.append_nil, List.append_nil] at hin
      | cons c inner =>
        cases hafter
        have hin := (hc.exponents before mark inner rfl hmark).extend [] ds
        rwa [List.nil_append] at hin

/-- Without the letter `e`, the characters alone count. -/
theorem of_forall {cs : List Char} (h : ∀ c ∈ cs, IsPlain c) : Arithmetical cs := by
  constructor
  · intro c hc
    exact (h c hc).1
  · rintro before mark after rfl hmark
    exact absurd hmark (h mark (by simp)).2

theorem of_all {cs : List Char} (h : cs.all fun c => decide (IsPlain c)) : Arithmetical cs :=
  of_forall fun c hc => of_decide_eq_true (List.all_eq_true.1 h c hc)

theorem digits {ds : List Char} (h : AllDigits ds) : Arithmetical ds :=
  of_forall fun c hc => isPlain_of_isDigit (h c hc)

theorem gap {cs : List Char} (h : Gap cs) : Arithmetical cs := by
  refine of_forall fun c hc => ?_
  rcases h c hc with rfl | rfl | rfl | rfl <;> decide

theorem symbol {operator : Operator} (h : operator.IsArithmetic) :
    Arithmetical operator.symbol.toList := by
  cases operator with
  | matrixMultiply | leftShift | rightShift | bitAnd | bitOr | bitXor => exact h.elim
  | _ => exact of_all rfl

theorem sign {operator : UnaryOperator} (h : operator.IsArithmetic) :
    Arithmetical operator.symbol.toList := by
  cases operator with
  | plus | minus => exact of_all rfl
  | invert | not => exact h.elim

/-- The letter of an exponent is the only one in its literal. -/
theorem exponent {front part : List Char} {power : Int} {value : Decimal}
    (hfront : ∀ c ∈ front, c.isDigit ∨ c = '.') (hne : front ≠ []) (hpart : ExponentPart part power)
    (hf : FloatLiteral (front ++ part) value) : Arithmetical (front ++ part) := by
  obtain ⟨mark, sign, c, ds, rfl, hmark, hsign, hds⟩ := hpart.exists_cons
  have hbefore : ∀ d ∈ front, IsPlain d := by
    intro d hd
    rcases hfront d hd with hdigit | rfl
    · exact isPlain_of_isDigit hdigit
    · decide
  have hbehind : ∀ d ∈ sign ++ c :: ds, IsPlain d := by
    intro d hd
    rcases List.mem_append.1 hd with hd | hd
    · rcases hsign with rfl | rfl | rfl
      · cases hd
      · rw [List.mem_singleton.1 hd]
        decide
      · rw [List.mem_singleton.1 hd]
        decide
    · exact isPlain_of_isDigit (hds d hd)
  constructor
  · intro d hd
    rcases List.mem_append.1 hd with hd | hd
    · exact (hbefore d hd).1
    · rcases List.mem_cons.1 hd with rfl | hd
      · rcases hmark with rfl | rfl <;> decide
      · exact (hbehind d hd).1
  · intro before letter after h hletter
    -- no such letter stands on either side of the mark, so that it can only be the mark itself
    have hnotFront : letter ∉ front := fun hmem => (hbefore letter hmem).2 hletter
    have hnotBack : letter ∉ sign ++ c :: ds := fun hmem => (hbehind letter hmem).2 hletter
    obtain ⟨rfl, rfl, rfl⟩ := (List.append_cons_inj_of_notMem hnotFront hnotBack).1 h
    obtain hnil | ⟨init, d, rfl⟩ := List.eq_nil_or_concat front
    · exact absurd hnil hne
    · exact ⟨⟨[], _, _, [], value, rfl, by simp, hf⟩, ⟨init, d, by simp, hfront d (by simp)⟩,
        ⟨sign, c, ds, rfl, hsign, hds c (by simp)⟩⟩

theorem digit_or_point {whole fraction : List Char} (hw : AllDigits whole)
    (hf : AllDigits fraction) : ∀ c ∈ whole ++ '.' :: fraction, c.isDigit ∨ c = '.' := by
  intro c hc
  rcases List.mem_append.1 hc with hc | hc
  · exact .inl (hw c hc)
  · rcases List.mem_cons.1 hc with rfl | hc
    · exact .inr rfl
    · exact .inl (hf c hc)

theorem float {cs : List Char} {value : Decimal} (h : FloatLiteral cs value) : Arithmetical cs := by
  cases h with
  | pointed hw hf hne =>
    have hmark : Arithmetical ['.'] := of_all rfl
    exact (digits hw).append (hmark.append (digits hf))
  | @pointedExponent whole fraction part power hw hf hne he =>
    have hcs : whole ++ '.' :: (fraction ++ part) = (whole ++ '.' :: fraction) ++ part := by simp
    have hliteral := FloatLiteral.pointedExponent hw hf hne he
    rw [hcs] at hliteral ⊢
    exact exponent (digit_or_point hw hf) (by simp) he hliteral
  | exponent hw hne he =>
    exact exponent (fun c hc => .inl (hw c hc)) hne he (.exponent hw hne he)

/-- Two operands with an operator between them. -/
theorem joined {operator : Operator} {cs gap gap' ds : List Char} (h : operator.IsArithmetic)
    (hc : Arithmetical cs) (hgap : Gap gap) (hgap' : Gap gap') (hd : Arithmetical ds) :
    Arithmetical (cs ++ (gap ++ (operator.symbol.toList ++ (gap' ++ ds)))) :=
  hc.append ((Arithmetical.gap hgap).append
    ((symbol h).append ((Arithmetical.gap hgap').append hd)))

end Arithmetical

end Text

/-- The text of an arithmetic tree holds the characters of arithmetic only, and `e` in float
    literals only. -/
theorem Grammar.Derives.arithmetical {level : Level} {cs : List Char} {t : Tree}
    (h : Derives level cs t) (ht : t.IsArithmetic) : Text.Arithmetical cs := by
  induction h with
  | not => exact ht.1.elim
  | chain _ _ hgap hgap' _ iha ihb => exact .joined ht.1 (iha ht.2.1) hgap hgap' (ihb ht.2.2)
  | sign _ hgap _ ih =>
    exact (Text.Arithmetical.sign ht.1).append ((Text.Arithmetical.gap hgap).append (ih ht.2))
  | power _ hgap hgap' _ iha ihb => exact .joined ht.1 (iha ht.2.1) hgap hgap' (ihb ht.2.2)
  | tighter _ ih => exact ih ht
  | group hgap _ hgap' ih =>
    have hopening : Text.Arithmetical ['('] := .of_all rfl
    have hclosing : Text.Arithmetical [')'] := .of_all rfl
    exact hopening.append ((Text.Arithmetical.gap hgap).append
      ((ih ht).append ((Text.Arithmetical.gap hgap').append hclosing)))
  | integer hi _ => exact .digits hi.allDigits.1
  | float hf => exact .float hf
  | _ => exact ht.elim

/-! ## Texts with a value -/

theorem evaluate_eq_ok_iff {limits : Limits} {text : String} {v : Number} :
    evaluate limits text = .ok v ↔ ∃ t, parse limits text = .ok t ∧ t.value = .ok v := by
  unfold evaluate
  rw [bind_eq_ok_iff]
  simp only [Tree.evaluate, Tree.run_nil, Tree.Focus.result]

/-- **Only arithmetic has a value.** A text that evaluates to a number holds nothing but digits,
    points, signs, arithmetic operators, round brackets, white space and the letter `e` inside of
    float literals; and the phrase that it is, is made of numbers, signs, arithmetic operators and
    groups. -/
theorem arithmetic_of_evaluate {limits : Limits} {text : String} {v : Number}
    (h : evaluate limits text = .ok v) :
    Text.Arithmetical text.toList ∧
      ∃ phrase, Phrase.ofText text.toList = .ok phrase ∧ phrase.IsArithmetic := by
  obtain ⟨t, hparse, hvalue⟩ := evaluate_eq_ok_iff.1 h
  obtain ⟨_, _, hunlimited⟩ := parse_eq_ok_iff_parseUnlimited.1 hparse
  obtain ⟨phrase, hphrase, htree⟩ := parseUnlimited_eq_ok_iff.1 hunlimited
  obtain ⟨gap, cs, gap', htext, hgap, hgap', hderives⟩ :=
    parseUnlimited_eq_ok_iff_expression.1 hunlimited
  have ht : t.IsArithmetic := Tree.isArithmetic_of_value hvalue
  refine ⟨?_, phrase, hphrase, Phrase.isArithmetic_of_ofPhrase _ phrase t htree ht⟩
  rw [htext]
  exact (Text.Arithmetical.gap hgap).append
    ((hderives.arithmetical ht).append (Text.Arithmetical.gap hgap'))

/-- A sign, a group and an exponent. -/
theorem arithmetic_of_evaluate_exponent :
    evaluate {} "+(1e3)" = .ok (.float (Decimal.toFloat ⟨1, 3⟩)) ∧
      Text.Arithmetical "+(1e3)".toList ∧
      ∃ phrase, Phrase.ofText "+(1e3)".toList = .ok phrase ∧ phrase.IsArithmetic := by
  have h : evaluate {} "+(1e3)" = .ok (.float (Decimal.toFloat ⟨1, 3⟩)) := by
    with_unfolding_all rfl
  exact ⟨h, arithmetic_of_evaluate h⟩

end Calculator
