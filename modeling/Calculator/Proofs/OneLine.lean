import Calculator.Proofs.Derivation
import Calculator.Proofs.Refusals

/-!
# Answers on one line

Nothing that is written about an expression without a line feed holds one: neither the text of its
value nor the reason why it has none.

* `Text.OneLine`: a text without line feed.
* `Tree.OneLine`: a tree whose quoted texts are on one line.

Results:
* `Number.oneLine_result`: the text of a result.
* `Tree.oneLine_of_parse`: the tree of a text on one line.
* `Rejection.oneLine_of_evaluate`: the wording of its refusal.
-/

namespace Calculator

/-- A text without line feed. -/
def Text.OneLine (text : String) : Prop := '\n' ∉ text.toList

instance (text : String) : Decidable (Text.OneLine text) := by
  unfold Text.OneLine; infer_instance

namespace Text

theorem OneLine.append {front back : String} (hf : OneLine front) (hb : OneLine back) :
    OneLine (front ++ back) := by
  simp only [OneLine, String.toList_append, List.mem_append, not_or]
  exact ⟨hf, hb⟩

theorem oneLine_ofList {cs : List Char} : OneLine (.ofList cs) ↔ '\n' ∉ cs := by
  rw [OneLine, String.toList_ofList]

theorem newline_notMem_toDigits (n : Nat) : '\n' ∉ Nat.toDigits 10 n := by
  intro h
  have hdigit := Nat.isDigit_of_mem_toDigits (by decide) (by decide) h
  revert hdigit
  decide

theorem oneLine_repr (n : Nat) : OneLine (toString n) :=
  oneLine_ofList.2 (newline_notMem_toDigits n)

end Text

open Text

/-! ## Numbers -/

theorem newline_notMem_integerText (n : Int) : '\n' ∉ integerText n := by
  have := newline_notMem_toDigits n.natAbs
  unfold integerText
  split <;> simpa

namespace Decimal

theorem newline_notMem_exponentText (n : Int) : '\n' ∉ exponentText n := by
  have := newline_notMem_toDigits n.natAbs
  unfold exponentText
  split <;> simpa

theorem newline_notMem_scientific {digits : List Char} (h : '\n' ∉ digits) (magnitude : Int) :
    '\n' ∉ scientific digits magnitude := by
  have hfirst : '\n' ∉ digits.take 1 := fun hmem => h (List.mem_of_mem_take hmem)
  have hrest : '\n' ∉ digits.drop 1 := fun hmem => h (List.mem_of_mem_drop hmem)
  have hexponent := newline_notMem_exponentText magnitude
  simp only [scientific, List.mem_append, List.mem_cons, not_or]
  refine ⟨⟨hfirst, ?_⟩, by decide, hexponent⟩
  split
  · exact List.not_mem_nil
  · exact List.not_mem_cons_of_ne_of_not_mem (by decide) hrest

theorem newline_notMem_positional {digits : List Char} (h : '\n' ∉ digits) (magnitude : Int) :
    '\n' ∉ positional digits magnitude := by
  have hzeros (n : Nat) : '\n' ∉ List.replicate n '0' := by simp
  unfold positional
  split
  · simp [h]
  · have hwhole (n : Nat) : '\n' ∉ digits.take n := fun hmem => h (List.mem_of_mem_take hmem)
    have hrest (n : Nat) : '\n' ∉ digits.drop n := fun hmem => h (List.mem_of_mem_drop hmem)
    simp only [List.mem_append, List.mem_cons, not_or]
    refine ⟨⟨hwhole _, hzeros _⟩, by decide, ?_⟩
    split
    · decide
    · exact hrest _

theorem newline_notMem_text (d : Decimal) : '\n' ∉ d.text := by
  have hdigits : '\n' ∉ d.digits := newline_notMem_toDigits d.significand
  unfold text
  split
  · exact newline_notMem_positional hdigits d.magnitude
  · exact newline_notMem_scientific hdigits d.magnitude

end Decimal

theorem newline_notMem_floatText (x : Float) : '\n' ∉ floatText x := by
  have hsign (sign : Float.Model.UnpackedFloat.Sign) : '\n' ∉ signText sign := by
    cases sign <;> decide
  unfold floatText
  split
  · decide
  · simp [hsign]
  · simp [hsign]
  · simp [hsign, Decimal.newline_notMem_text]

namespace Number

theorem oneLine_text (v : Number) : OneLine v.text := by
  cases v with
  | integer n => exact oneLine_ofList.2 (newline_notMem_integerText n.toInt)
  | float x => exact oneLine_ofList.2 (newline_notMem_floatText x)

/-- A result is written on one line. -/
theorem oneLine_result (v : Number) : OneLine v.result := by
  cases v with
  | integer n => exact oneLine_ofList.2 (newline_notMem_integerText n.toInt)
  | float x =>
    rw [result]
    split
    · exact oneLine_ofList.2 (newline_notMem_integerText _)
    · exact oneLine_ofList.2 (newline_notMem_floatText x)

end Number

/-! ## Quoted texts -/

/-- A token that is no quoted text with a line feed. -/
def Token.Kind.OneLine : Token.Kind → Prop
  | .literal (.text content) => Text.OneLine content
  | _ => True

/-- A tree whose quoted texts are on one line. -/
def Tree.OneLine : Tree → Prop
  | .constant (.text content) => Text.OneLine content
  | .constant _ => True
  | .binary left _ right => left.OneLine ∧ right.OneLine
  | .unary _ operand => operand.OneLine

/-- What a quoted text holds is a part of its lexeme. -/
theorem Lexeme.oneLine {word rest : List Char} {kind : Token.Kind} (h : Lexeme word rest kind)
    (hword : '\n' ∉ word) : kind.OneLine := by
  cases h with
  | number hnumber => cases hnumber <;> trivial
  | text =>
    refine Text.oneLine_ofList.2 fun hmem => hword ?_
    simp [hmem]
  | word =>
    unfold Token.Kind.ofWord
    split_ifs <;> trivial
  | mark hmark =>
    have hmarks : ∀ mark ∈ Token.marks, mark.2.OneLine := by
      simp [Token.marks, Token.Kind.OneLine]
    exact hmarks _ hmark

/-- The tokens of a text on one line. -/
theorem Token.oneLine_of_scan (afterOperand : Bool) (point : Nat) (cs : List Char)
    (hcs : '\n' ∉ cs) : ∀ token ∈ Token.scan afterOperand point cs, token.kind.OneLine := by
  fun_induction Token.scan afterOperand point cs with
  | case1 => exact fun token htoken => nomatch htoken
  | case2 afterOperand point c cs hgap ih => exact ih (List.not_mem_of_not_mem_cons hcs)
  | case3 afterOperand point c cs hgap hread => exact List.forall_mem_singleton.2 trivial
  | case4 afterOperand point c cs hgap kind width hread ih =>
    obtain ⟨word, rest, htext, hwidth, hlexeme⟩ := Token.read?_sound hread
    refine List.forall_mem_cons.2 ⟨hlexeme.oneLine fun hmem => hcs ?_, ih fun hmem => hcs ?_⟩
    · rw [htext]
      exact List.mem_append_left rest hmem
    · exact List.mem_cons_of_mem c (List.mem_of_mem_drop hmem)

/-- The tree of a phrase whose quoted texts are on one line. -/
theorem Tree.oneLine_of_ofPhrase {text : List Char} : (phrase : Phrase) → (t : Tree) →
    Tree.ofPhrase text phrase = .ok t → (∀ token ∈ phrase.tokens, token.kind.OneLine) → t.OneLine
  | .literal value span, t, h, htokens => by
    obtain ⟨constant, hconstant, rfl⟩ := Tree.ofPhrase_literal_eq_ok_iff.1 h
    have hvalue := List.forall_mem_singleton.1 htokens
    unfold Literal.toConstant at hconstant
    cases value with
    | integer n =>
      dsimp only at hconstant
      split at hconstant <;> cases hconstant
      trivial
    | text content =>
      cases hconstant
      exact hvalue
    | _ =>
      cases hconstant
      trivial
  | .prefixed operator mark operand, t, h, htokens => by
    obtain ⟨a, ha, rfl⟩ := Tree.ofPhrase_prefixed_eq_ok_iff.1 h
    exact oneLine_of_ofPhrase operand a ha (List.forall_mem_cons.1 htokens).2
  | .joined left (.operator operator) mark right, t, h, htokens => by
    obtain ⟨a, b, ha, hb, rfl⟩ := Tree.ofPhrase_joined_eq_ok_iff.1 h
    obtain ⟨hl, hr⟩ := List.forall_mem_append.1 htokens
    exact ⟨oneLine_of_ofPhrase left a ha hl,
      oneLine_of_ofPhrase right b hb (List.forall_mem_cons.1 hr).2⟩
  | .group opening inner closing, t, h, htokens => by
    rw [Tree.ofPhrase_group] at h
    obtain ⟨_, hinside⟩ := List.forall_mem_cons.1 htokens
    exact oneLine_of_ofPhrase inner t h (List.forall_mem_append.1 hinside).1
  | .joined _ (.logical _) _ _, _, h, _ => absurd h Tree.ofPhrase_logical_ne_ok
  | .name _, _, h, _ => by cases h
  | .display _ _ _ _, _, h, _ => by cases h
  | .trailed _ _, _, h, _ => by cases h

/-- The tree of a text on one line. -/
theorem Tree.oneLine_of_parse {limits : Limits} {text : String} {t : Tree}
    (htext : Text.OneLine text) (h : parse limits text = .ok t) : t.OneLine := by
  obtain ⟨_, _, hunlimited⟩ := parse_eq_ok_iff_parseUnlimited.1 h
  obtain ⟨phrase, hphrase, htree⟩ := parseUnlimited_eq_ok_iff.1 hunlimited
  refine Tree.oneLine_of_ofPhrase phrase t htree ?_
  rw [Phrase.tokens_ofTokens hphrase]
  exact Token.oneLine_of_scan false 0 text.toList htext

/-! ## Refusals -/

theorem Constant.oneLine_display {constant : Constant} (h : (Tree.constant constant).OneLine) :
    OneLine constant.display := by
  cases constant with
  | integer n => exact Number.oneLine_text (.integer n)
  | float x => exact Number.oneLine_text (.float x)
  | bool value => cases value <;> decide
  | text content =>
    have hquote : OneLine "'" := by decide
    exact (hquote.append h).append hquote
  | none => decide

namespace Rejection

theorem oneLine_math (failure : MathError) : OneLine (math failure).message := by
  cases failure <;> decide

theorem oneLine_enumerateMany : {items : List String} → (∀ item ∈ items, OneLine item) →
    OneLine (enumerateMany items)
  | [], _ => by decide
  | [last], h => by
    have hor : OneLine "or " := by decide
    exact hor.append (h last List.mem_cons_self)
  | item :: second :: rest, h => by
    have hcomma : OneLine ", " := by decide
    obtain ⟨hitem, hrest⟩ := List.forall_mem_cons.1 h
    exact (hitem.append hcomma).append (oneLine_enumerateMany hrest)

theorem oneLine_enumerate : {items : List String} → (∀ item ∈ items, OneLine item) →
    OneLine (enumerate items)
  | [], _ => by decide
  | [item], h => h item List.mem_cons_self
  | [first, second], h => by
    have hor : OneLine " or " := by decide
    obtain ⟨hfirst, hrest⟩ := List.forall_mem_cons.1 h
    exact (hfirst.append hor).append (hrest second List.mem_cons_self)
  | first :: second :: third :: rest, h => oneLine_enumerateMany h

theorem oneLine_expectation (what : Expectation) : ∀ item ∈ what.items, OneLine item := by
  cases what with
  | continuation place =>
    have hending : ∀ item ∈ place.ending, OneLine item := by cases place <;> decide
    have hseparators : ∀ item ∈ place.separators, OneLine item := by cases place <;> decide
    refine List.forall_mem_append.2 ⟨List.forall_mem_append.2
      ⟨List.forall_mem_append.2 ⟨hending, ?_⟩, hseparators⟩, ?_⟩
    all_goals decide
  | _ => decide

theorem oneLine_malformed (column : Nat) (fault : Fault) :
    OneLine (malformed column fault).message := by
  have hstart : OneLine "invalid syntax at column " := by decide
  have hcolon : OneLine ": " := by decide
  have hfault : OneLine fault.message := by
    cases fault with
    | mixedEntries => decide
    | expected what =>
      have hexpected : OneLine "expected " := by decide
      exact hexpected.append (oneLine_enumerate (oneLine_expectation what))
  exact ((hstart.append (oneLine_repr column)).append hcolon).append hfault

theorem oneLine_unsupported {text : List Char} (htext : '\n' ∉ text) (span : Span)
    (construct : Construct) : OneLine (span.unsupported text construct).message := by
  have hcovered : OneLine (.ofList (span.of text)) :=
    oneLine_ofList.2 fun hmem => htext (List.mem_of_mem_drop (List.mem_of_mem_take hmem))
  have hconstruct : OneLine construct.description := by cases construct <;> decide
  have hrefused : OneLine " is not allowed: `" := by decide
  have hquote : OneLine "`" := by decide
  exact ((hconstruct.append hrefused).append hcovered).append hquote

theorem oneLine_unsupportedOperator {symbol : String} (h : OneLine symbol) :
    OneLine (unsupportedOperator symbol).message := by
  have hoperator : OneLine "operator `" := by decide
  have hrefused : OneLine "` is not allowed" := by decide
  exact (hoperator.append h).append hrefused

theorem oneLine_unsupportedConstant {text : String} (h : OneLine text) :
    OneLine (unsupportedConstant text).message := by
  have hconstant : OneLine "non-numeric constant " := by decide
  have hrefused : OneLine " is not allowed" := by decide
  exact (hconstant.append h).append hrefused

theorem oneLine_tooLong (length limit : Nat) : OneLine (tooLong length limit).message := by
  have hstart : OneLine "expression is too long (" := by decide
  have hmiddle : OneLine " characters, at most " := by decide
  have hend : OneLine " allowed)" := by decide
  exact (((hstart.append (oneLine_repr length)).append hmiddle).append (oneLine_repr limit)).append
    hend

theorem oneLine_tooDeep (limit : Nat) : OneLine (tooDeep limit).message := by
  have hstart : OneLine "expression nests too deeply (at most " := by decide
  have hend : OneLine " levels allowed)" := by decide
  exact (hstart.append (oneLine_repr limit)).append hend

/-- A text on one line is refused on one line. -/
theorem oneLine_of_parse {limits : Limits} {text : String} {rejection : Rejection}
    (htext : OneLine text) (h : parse limits text = .error rejection) :
    OneLine rejection.message := by
  rcases refused_of_parse h with rfl | ⟨_, rfl⟩ | hrefused
  · exact oneLine_tooLong _ _
  · exact oneLine_tooDeep _
  · cases hrefused with
    | misfit misfit => exact oneLine_malformed _ _
    | phrase hphrase =>
      cases hphrase with
      | overflow => exact oneLine_math .overflow
      | unsupported span construct => exact oneLine_unsupported htext span construct
      | mixedEntries point => exact oneLine_malformed _ _

end Rejection

/-! ## Failures -/

theorem oneLine_of_liftMath {α : Type} {result : Except MathError α} {rejection : Rejection}
    (h : liftMath result = .error rejection) : OneLine rejection.message := by
  unfold liftMath at h
  split at h <;> cases h
  exact Rejection.oneLine_math _

theorem Operator.oneLine_of_apply {operator : Operator} {a b : Number} {rejection : Rejection}
    (h : operator.apply a b = .error rejection) : OneLine rejection.message := by
  unfold apply at h
  split at h
  case h_8 | h_9 | h_10 | h_11 | h_12 | h_13 =>
    cases h
    exact Rejection.oneLine_unsupportedOperator (by decide)
  all_goals exact oneLine_of_liftMath h

theorem UnaryOperator.oneLine_of_apply {operator : UnaryOperator} {a : Number}
    {rejection : Rejection} (h : operator.apply a = .error rejection) :
    OneLine rejection.message := by
  unfold apply at h
  split at h
  · cases h
  · exact oneLine_of_liftMath h
  all_goals
    cases h
    exact Rejection.oneLine_unsupportedOperator (by decide)

theorem Constant.oneLine_of_toNumber {constant : Constant} {rejection : Rejection}
    (hline : (Tree.constant constant).OneLine) (h : constant.toNumber = .error rejection) :
    OneLine rejection.message := by
  cases constant <;> cases h
  all_goals exact Rejection.oneLine_unsupportedConstant (Constant.oneLine_display hline)

/-- A tree whose quoted texts are on one line fails on one line. -/
theorem Tree.oneLine_of_value {t : Tree} {rejection : Rejection} (hline : t.OneLine)
    (h : t.value = .error rejection) : Text.OneLine rejection.message := by
  induction t with
  | constant c => exact Constant.oneLine_of_toNumber hline h
  | binary left operator right ihl ihr =>
    rw [value] at h
    rcases bind_eq_error_iff.1 h with hl | ⟨a, _, h⟩
    · exact ihl hline.1 hl
    · rcases bind_eq_error_iff.1 h with hr | ⟨b, _, h⟩
      · exact ihr hline.2 hr
      · exact operator.oneLine_of_apply h
  | unary operator operand ih =>
    rw [value] at h
    rcases bind_eq_error_iff.1 h with ho | ⟨a, _, h⟩
    · exact ih hline ho
    · exact operator.oneLine_of_apply h

/-- What is written about a text on one line is on one line. -/
theorem Rejection.oneLine_of_evaluate {limits : Limits} {text : String} {rejection : Rejection}
    (htext : OneLine text) (h : evaluate limits text = .error rejection) :
    OneLine rejection.message := by
  rw [evaluate_eq_bind] at h
  rcases bind_eq_error_iff.1 h with hparse | ⟨t, hparse, hvalue⟩
  · exact oneLine_of_parse htext hparse
  · exact Tree.oneLine_of_value (Tree.oneLine_of_parse htext hparse) hvalue

end Calculator
