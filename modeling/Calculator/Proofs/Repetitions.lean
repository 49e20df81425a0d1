import Calculator.Proofs.OneLine
import Calculator.Proofs.Whitelist

/-!
# What a refusal repeats of its text

The wording of a refusal is fixed, but for two places: a refused construct is repeated as it is
written, and so is what stands between the quotes of a refused quoted text. All line feeds of a
message come from there.

* `Rejection.Repeats`: the part of the text that a refusal repeats.

Results:
* `Tree.exists_literal_of_mem_constants`: the constants of a tree are literals of its phrase.
* `Token.isInfix_of_mem_scan`: a quoted text is a part of the text that it is scanned from.
* `Tree.isInfix_of_mem_constants`: so the quoted texts of a tree are parts of its text.
* `Rejection.oneLine_iff_of_evaluate`: a message is on one line if what it repeats is.
-/

namespace Calculator

open Text

/-! ## Texts on one line -/

namespace Text

theorem oneLine_append_iff {front back : String} :
    OneLine (front ++ back) ↔ OneLine front ∧ OneLine back := by
  constructor
  · intro h
    simp only [OneLine, String.toList_append, List.mem_append, not_or] at h
    exact h
  · rintro ⟨hfront, hback⟩
    exact hfront.append hback

/-- What stands around a text decides nothing if it is on one line. -/
theorem oneLine_enclosed_iff {front text back : String} (hfront : OneLine front)
    (hback : OneLine back) : OneLine (front ++ text ++ back) ↔ OneLine text := by
  rw [oneLine_append_iff, oneLine_append_iff]
  constructor
  · rintro ⟨⟨_, htext⟩, _⟩
    exact htext
  · intro htext
    exact ⟨⟨hfront, htext⟩, hback⟩

end Text

/-! ## What is repeated -/

/-- The part of the text that a refusal repeats: a refused construct, or what stands between the
    quotes of a refused quoted text. -/
inductive Rejection.Repeats : Rejection → String → Prop
  | source (construct : Construct) (source : String) :
    Repeats (.unsupported construct source) source
  | content (content : String) :
    Repeats (.unsupportedConstant ("'" ++ content ++ "'")) content

namespace Rejection

theorem repeats_unsupported_iff {construct : Construct} {source part : String} :
    (unsupported construct source).Repeats part ↔ part = source := by
  constructor
  · intro h
    cases h
    rfl
  · rintro rfl
    exact .source construct part

/-- Of the constants that are refused, only a quoted text is repeated. -/
theorem repeats_unsupportedConstant_iff {constant : Constant} (hconstant : ¬constant.IsNumeric)
    {part : String} :
    (unsupportedConstant constant.display).Repeats part ↔ constant = .text part := by
  constructor
  · intro h
    generalize hrejection : unsupportedConstant constant.display = rejection at h
    cases h with
    | source construct source => cases hrejection
    | content =>
      have hdisplay : constant.display = "'" ++ part ++ "'" := by injection hrejection
      have hchars := congrArg String.toList hdisplay
      cases constant with
      | integer value => exact absurd trivial hconstant
      | float value => exact absurd trivial hconstant
      | bool value => cases value <;> simp [Constant.display] at hchars
      | none => simp [Constant.display] at hchars
      | text content =>
        simp only [Constant.display, String.toList_append, List.append_left_inj,
          List.append_right_inj] at hchars
        rw [String.toList_inj.1 hchars]
  · rintro rfl
    exact .content part

/-- Every other refusal repeats nothing. -/
theorem oneLine_iff_of_not_repeats {rejection : Rejection} (hline : OneLine rejection.message)
    (hnone : ∀ part, ¬rejection.Repeats part) :
    OneLine rejection.message ↔ ∀ part, rejection.Repeats part → OneLine part := by
  constructor
  · intro _ part hpart
    exact absurd hpart (hnone part)
  · intro _
    exact hline

theorem oneLine_unsupported_iff (construct : Construct) (source : String) :
    OneLine (unsupported construct source).message ↔ OneLine source := by
  have hconstruct : OneLine construct.description := by cases construct <;> decide
  have hrefused : OneLine " is not allowed: `" := by decide
  have hquote : OneLine "`" := by decide
  exact oneLine_enclosed_iff (hconstruct.append hrefused) hquote

theorem oneLine_unsupportedConstant_iff (shown : String) :
    OneLine (unsupportedConstant shown).message ↔ OneLine shown := by
  have hconstant : OneLine "non-numeric constant " := by decide
  have hrefused : OneLine " is not allowed" := by decide
  exact oneLine_enclosed_iff hconstant hrefused

theorem oneLine_constant_iff {constant : Constant} (hconstant : ¬constant.IsNumeric) :
    OneLine (unsupportedConstant constant.display).message ↔
      ∀ part, (unsupportedConstant constant.display).Repeats part → OneLine part := by
  rw [oneLine_unsupportedConstant_iff]
  simp only [repeats_unsupportedConstant_iff hconstant]
  have hquote : OneLine "'" := by decide
  cases constant with
  | integer value => exact absurd trivial hconstant
  | float value => exact absurd trivial hconstant
  | text content =>
    have henclosed : OneLine ("'" ++ content ++ "'") ↔ OneLine content :=
      oneLine_enclosed_iff hquote hquote
    simpa [Constant.display] using henclosed
  | bool value =>
    have hline : OneLine (Constant.bool value).display := by cases value <;> decide
    simpa using hline
  | none =>
    have hline : OneLine Constant.none.display := by decide
    simpa using hline

end Rejection

/-! ## Where quoted texts come from -/

/-- The constants of a tree are the literals of the phrase that it is made from. -/
theorem Tree.exists_literal_of_mem_constants {text : List Char} {c : Constant} :
    (phrase : Phrase) → (t : Tree) → Tree.ofPhrase text phrase = .ok t → c ∈ t.constants →
      ∃ token ∈ phrase.tokens, ∃ value, token.kind = .literal value ∧ value.toConstant = .ok c
  | .literal value span, t, h, hc => by
    obtain ⟨constant, hconstant, rfl⟩ := Tree.ofPhrase_literal_eq_ok_iff.1 h
    obtain rfl := List.mem_singleton.1 hc
    exact ⟨⟨.literal value, span⟩, List.mem_singleton_self _, value, rfl, hconstant⟩
  | .prefixed operator mark operand, t, h, hc => by
    obtain ⟨a, ha, rfl⟩ := Tree.ofPhrase_prefixed_eq_ok_iff.1 h
    obtain ⟨token, htoken, hliteral⟩ := exists_literal_of_mem_constants operand a ha hc
    exact ⟨token, List.mem_cons_of_mem _ htoken, hliteral⟩
  | .joined left (.operator operator) mark right, t, h, hc => by
    obtain ⟨a, b, ha, hb, rfl⟩ := Tree.ofPhrase_joined_eq_ok_iff.1 h
    rcases List.mem_append.1 hc with hc | hc
    · obtain ⟨token, htoken, hliteral⟩ := exists_literal_of_mem_constants left a ha hc
      exact ⟨token, List.mem_append_left _ htoken, hliteral⟩
    · obtain ⟨token, htoken, hliteral⟩ := exists_literal_of_mem_constants right b hb hc
      exact ⟨token, List.mem_append_right _ (List.mem_cons_of_mem _ htoken), hliteral⟩
  | .group opening inner closing, t, h, hc => by
    rw [Tree.ofPhrase_group] at h
    obtain ⟨token, htoken, hliteral⟩ := exists_literal_of_mem_constants inner t h hc
    exact ⟨token, List.mem_cons_of_mem _ (List.mem_append_left _ htoken), hliteral⟩
  | .joined _ (.logical _) _ _, _, h, _ => absurd h Tree.ofPhrase_logical_ne_ok
  | .name _, _, h, _ => by cases h
  | .display _ _ _ _, _, h, _ => by cases h
  | .trailed _ _, _, h, _ => by cases h

/-- A quoted text is a part of its lexeme. -/
theorem Lexeme.isInfix {word rest : List Char} {content : String}
    (h : Lexeme word rest (.literal (.text content))) : content.toList <:+: word := by
  generalize hkind : Token.Kind.literal (.text content) = kind at h
  cases h with
  | number hnumber => cases hnumber <;> cases hkind
  | @text quote cs _ _ _ =>
    obtain rfl : content = .ofList cs := by injection hkind with h; injection h
    rw [String.toList_ofList]
    exact ⟨[quote], [quote], by simp⟩
  | word =>
    unfold Token.Kind.ofWord at hkind
    split_ifs at hkind <;> cases hkind
  | mark hmark =>
    have hmarks : ∀ mark ∈ Token.marks, ∀ value, mark.2 ≠ .literal value := by
      simp [Token.marks]
    exact absurd hkind.symm (hmarks _ hmark _)

/-- A quoted text is a part of the text that it is scanned from. -/
theorem Token.isInfix_of_mem_scan {content : String} (afterOperand : Bool) (point : Nat)
    (cs : List Char) :
    ∀ token ∈ Token.scan afterOperand point cs, token.kind = .literal (.text content) →
      content.toList <:+: cs := by
  fun_induction Token.scan afterOperand point cs with
  | case1 =>
    intro token htoken
    cases htoken
  | case2 afterOperand point c cs hgap ih =>
    intro token htoken hkind
    exact (ih token htoken hkind).trans (List.suffix_cons c cs).isInfix
  | case3 afterOperand point c cs hgap hread =>
    refine List.forall_mem_singleton.2 ?_
    intro hkind
    cases hkind
  | case4 afterOperand point c cs hgap kind width hread ih =>
    refine List.forall_mem_cons.2 ⟨?_, ?_⟩
    · intro hkind
      obtain ⟨word, rest, htext, _, hlexeme⟩ := Token.read?_sound hread
      rw [htext]
      rw [show kind = .literal (.text content) from hkind] at hlexeme
      exact hlexeme.isInfix.trans (List.prefix_append word rest).isInfix
    · intro token htoken hkind
      have hlater := ih token htoken hkind
      exact hlater.trans ((List.drop_suffix _ cs).trans (List.suffix_cons c cs)).isInfix

/-- The quoted texts of a tree are parts of its text. -/
theorem Tree.isInfix_of_mem_constants {limits : Limits} {text content : String} {t : Tree}
    (h : parse limits text = .ok t) (hc : .text content ∈ t.constants) :
    content.toList <:+: text.toList := by
  obtain ⟨_, _, hunlimited⟩ := parse_eq_ok_iff_parseUnlimited.1 h
  obtain ⟨phrase, hphrase, htree⟩ := parseUnlimited_eq_ok_iff.1 hunlimited
  obtain ⟨token, htoken, value, hkind, hvalue⟩ :=
    Tree.exists_literal_of_mem_constants phrase t htree hc
  rw [Phrase.tokens_ofTokens hphrase] at htoken
  obtain rfl : value = .text content := by
    unfold Literal.toConstant at hvalue
    cases value with
    | integer n =>
      dsimp only at hvalue
      split at hvalue <;> cases hvalue
    | _ => cases hvalue <;> rfl
  exact Token.isInfix_of_mem_scan false 0 text.toList token htoken hkind

/-! ## Messages -/

namespace Rejection

/-- A text is refused with a part of itself, and on one line if that part is on one line. -/
theorem oneLine_iff_of_parse {limits : Limits} {text : String} {rejection : Rejection}
    (h : parse limits text = .error rejection) :
    (OneLine rejection.message ↔ ∀ part, rejection.Repeats part → OneLine part) ∧
      ∀ part, rejection.Repeats part → part.toList <:+: text.toList := by
  rcases refused_of_parse h with rfl | ⟨_, rfl⟩ | hrefused
  · exact ⟨oneLine_iff_of_not_repeats (oneLine_tooLong _ _) nofun, nofun⟩
  · exact ⟨oneLine_iff_of_not_repeats (oneLine_tooDeep _) nofun, nofun⟩
  · cases hrefused with
    | misfit misfit => exact ⟨oneLine_iff_of_not_repeats (oneLine_malformed _ _) nofun, nofun⟩
    | phrase hphrase =>
      cases hphrase with
      | overflow => exact ⟨oneLine_iff_of_not_repeats (oneLine_math _) nofun, nofun⟩
      | mixedEntries point =>
        exact ⟨oneLine_iff_of_not_repeats (oneLine_malformed _ _) nofun, nofun⟩
      | unsupported span construct =>
        rw [Span.unsupported]
        simp only [oneLine_unsupported_iff, repeats_unsupported_iff, forall_eq,
          String.toList_ofList, true_and]
        exact (List.take_prefix _ _).isInfix.trans (List.drop_suffix _ _).isInfix

/-- A tree fails with one of its quoted texts, and on one line if that is on one line. -/
theorem oneLine_iff_of_value {t : Tree} {rejection : Rejection}
    (h : t.value = .error rejection) :
    (OneLine rejection.message ↔ ∀ part, rejection.Repeats part → OneLine part) ∧
      ∀ part, rejection.Repeats part → .text part ∈ t.constants := by
  cases Tree.failure_of_value h with
  | math failure => exact ⟨oneLine_iff_of_not_repeats (oneLine_math failure) nofun, nofun⟩
  | @operator operator _ _ =>
    have hsymbol : OneLine operator.symbol := by cases operator <;> decide
    exact ⟨oneLine_iff_of_not_repeats (oneLine_unsupportedOperator hsymbol) nofun, nofun⟩
  | @unaryOperator operator _ _ =>
    have hsymbol : OneLine operator.symbol := by cases operator <;> decide
    exact ⟨oneLine_iff_of_not_repeats (oneLine_unsupportedOperator hsymbol) nofun, nofun⟩
  | constant hmem hconstant =>
    refine ⟨oneLine_constant_iff hconstant, fun part hpart => ?_⟩
    rw [(repeats_unsupportedConstant_iff hconstant).1 hpart] at hmem
    exact hmem

/-- **A message is on one line exactly if what it repeats is.** Whatever a text is refused for, the
    message has no line feed but those of the part of the text that it repeats. -/
theorem oneLine_iff_of_evaluate {limits : Limits} {text : String} {rejection : Rejection}
    (h : evaluate limits text = .error rejection) :
    (OneLine rejection.message ↔ ∀ part, rejection.Repeats part → OneLine part) ∧
      ∀ part, rejection.Repeats part → part.toList <:+: text.toList := by
  rw [evaluate_eq_bind] at h
  rcases bind_eq_error_iff.1 h with hparse | ⟨t, hparse, hvalue⟩
  · exact oneLine_iff_of_parse hparse
  · obtain ⟨hline, hmem⟩ := oneLine_iff_of_value hvalue
    refine ⟨hline, fun part hpart => ?_⟩
    exact Tree.isInfix_of_mem_constants hparse (hmem part hpart)

/-- The quoted text ends before the line feed that follows it, and its message is on one line. -/
theorem oneLine_iff_of_evaluate_quoted :
    evaluate {} "(1 +\n'a b')" = .error (.unsupportedConstant "'a b'") ∧
      OneLine (unsupportedConstant "'a b'").message := by
  have h : evaluate {} "(1 +\n'a b')" = .error (.unsupportedConstant "'a b'") := by
    with_unfolding_all rfl
  refine ⟨h, (oneLine_iff_of_evaluate h).1.2 fun part hpart => ?_⟩
  have hconstant : ¬(Constant.text "a b").IsNumeric := id
  cases (repeats_unsupportedConstant_iff hconstant).1 hpart
  decide

/-- A list on two lines is repeated with its line feed. -/
theorem exists_message_on_two_lines :
    ∃ rejection, evaluate {} "[1,\n2]" = .error rejection ∧ ¬OneLine rejection.message :=
  ⟨.unsupported .list "[1,\n2]", by with_unfolding_all rfl, by decide⟩

end Rejection

end Calculator
