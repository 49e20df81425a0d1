import Calculator.Evaluator
import Calculator.Proofs.Evaluation

/-!
# What texts are refused for

Where a text is refused, and for what: first for a limit, then as no phrase, then for something that
the phrase holds. Only three kinds of refusal come from a phrase.

* `Tree.Refusal`: the refusals that a phrase in a text can get.
* `Refused`: the refusals of a text within all limits.

Results:
* `Tree.refusal_of_ofChain`: every refusal of a phrase is of these kinds.
* `parse_eq_of_le`, `le_of_parse`: what the limits have to do with it.
* `refused_of_parse`: every refusal of a text, with the limits.
-/

namespace Calculator

theorem bind_eq_error_iff {α β : Type} {result : Except Rejection α}
    {next : α → Except Rejection β} {rejection : Rejection} :
    result >>= next = .error rejection ↔
      result = .error rejection ∨ ∃ a, result = .ok a ∧ next a = .error rejection := by
  cases result <;> simp [bind, Except.bind]

theorem map_eq_error_iff {α β : Type} {result : Except Rejection α} {f : α → β}
    {rejection : Rejection} : result.map f = .error rejection ↔ result = .error rejection := by
  cases result <;> simp [Except.map]

/-- The only literals that are refused are integers, for being too large. -/
theorem Literal.eq_overflow_of_toConstant {value : Literal} {rejection : Rejection}
    (h : value.toConstant = .error rejection) : rejection = .math .overflow := by
  unfold toConstant at h
  cases value with
  | integer n =>
    dsimp only at h
    split at h <;> cases h
    rfl
  | _ => cases h

/-! ## Phrases -/

/-- The refusals of a phrase in `text`. -/
inductive Tree.Refusal (text : List Char) : Rejection → Prop
  | overflow : Refusal text (.math .overflow)
  | unsupported (span : Span) (construct : Construct) :
    Refusal text (span.unsupported text construct)
  | mixedEntries (point : Nat) :
    Refusal text (.malformed (Text.column text point) .mixedEntries)

namespace Tree

variable {text : List Char} {rejection : Rejection}

theorem refusal_displayRejection (bracket : Bracket) (items : Items) (span : Span) :
    Refusal text (Phrase.displayRejection text bracket items span) := by
  unfold Phrase.displayRejection
  cases bracket with
  | round | square => exact .unsupported span _
  | curly =>
    dsimp only
    split
    · exact .unsupported span _
    · split
      · exact .unsupported span _
      · exact .mixedEntries span.start

/-- Every refusal of a phrase is an overflow, names a construct, or is for mixed entries. -/
theorem refusal_of_ofChain : (phrase : Phrase) → (chain : Option Logical) →
    ofChain text chain phrase = .error rejection → Refusal text rejection
  | .literal value _, _, h => by
    rw [ofChain] at h
    rw [Literal.eq_overflow_of_toConstant (map_eq_error_iff.1 h)]
    exact .overflow
  | .name span, _, h => by
    cases h
    exact .unsupported span .name
  | .prefixed _ _ operand, _, h => by
    rw [ofChain] at h
    exact refusal_of_ofChain operand none (map_eq_error_iff.1 h)
  | .joined left (.operator _) _ right, _, h => by
    rw [ofChain] at h
    rcases bind_eq_error_iff.1 h with hl | ⟨_, _, h⟩
    · exact refusal_of_ofChain left none hl
    · rcases bind_eq_error_iff.1 h with hr | ⟨_, _, h⟩
      · exact refusal_of_ofChain right none hr
      · cases h
  | .joined left (.logical connective) _ _, _, h => by
    rw [ofChain] at h
    rcases bind_eq_error_iff.1 h with hl | ⟨_, _, h⟩
    · exact refusal_of_ofChain left (some connective) hl
    · split at h <;> cases h
      exact .unsupported _ connective.construct
  | .group _ inner _, _, h => by
    rw [ofChain] at h
    exact refusal_of_ofChain inner none h
  | .display bracket _ items _, _, h => by
    rw [ofChain] at h
    cases h
    exact refusal_displayRejection bracket items _
  | .trailed target trailer, _, h => by
    rw [ofChain] at h
    cases h
    exact .unsupported _ (target.trailedConstruct trailer)

end Tree

/-! ## Texts -/

/-- The refusals of a text whose length and nesting are within the limits. -/
inductive Refused (text : List Char) : Rejection → Prop
  | misfit (misfit : Misfit) :
    Refused text (.malformed (Text.column text misfit.point) (.expected misfit.expectation))
  | phrase {rejection : Rejection} (h : Tree.Refusal text rejection) : Refused text rejection

theorem refused_of_parseUnlimited {text : List Char} {rejection : Rejection}
    (h : parseUnlimited text = .error rejection) : Refused text rejection := by
  unfold parseUnlimited at h
  split at h
  · cases h
    exact .misfit _
  · exact .phrase (Tree.refusal_of_ofChain _ none h)

/-- Within the limits, limits do not matter. -/
theorem parse_eq_of_le {limits : Limits} {text : String}
    (hlength : text.toList.length ≤ limits.maxLength)
    (hdepth : Nesting.depth text.toList ≤ limits.maxDepth) :
    parse limits text = parseUnlimited text.toList := by
  unfold parse
  rw [if_neg (Nat.not_lt.2 hlength), if_neg (Nat.not_lt.2 hdepth)]

/-- A text that is not refused for a limit is within the limits. -/
theorem le_of_parse {limits : Limits} {text : String} {rejection : Rejection}
    (h : parse limits text = .error rejection)
    (hlong : ∀ length limit, rejection ≠ .tooLong length limit)
    (hdeep : ∀ limit, rejection ≠ .tooDeep limit) :
    text.toList.length ≤ limits.maxLength ∧ Nesting.depth text.toList ≤ limits.maxDepth := by
  unfold parse at h
  dsimp only at h
  split at h
  · cases h
    exact absurd rfl (hlong _ _)
  · split at h
    · cases h
      exact absurd rfl (hdeep _)
    · omega

/-- A text is refused for its length, for its depth, or for what it holds. -/
theorem refused_of_parse {limits : Limits} {text : String} {rejection : Rejection}
    (h : parse limits text = .error rejection) :
    rejection = .tooLong text.toList.length limits.maxLength ∨
      limits.maxDepth < Nesting.depth text.toList ∧ rejection = .tooDeep limits.maxDepth ∨
      Refused text.toList rejection := by
  unfold parse at h
  dsimp only at h
  split at h
  · cases h
    exact .inl rfl
  · split at h
    · rename_i hdeep
      cases h
      exact .inr (.inl ⟨hdeep, rfl⟩)
    · exact .inr (.inr (refused_of_parseUnlimited h))

/-- The value of a text is that of its tree. -/
theorem evaluate_eq_bind (limits : Limits) (text : String) :
    evaluate limits text = parse limits text >>= Tree.value := by
  unfold evaluate
  simp only [Tree.evaluate, Tree.run_nil, Tree.Focus.result]

/-- A text is too deep only if the estimate for it exceeds the limit. -/
theorem parse_ne_tooDeep {limits : Limits} {text : String} (limit : Nat)
    (h : Nesting.depth text.toList ≤ limits.maxDepth) :
    parse limits text ≠ .error (.tooDeep limit) := by
  intro hdeep
  rcases refused_of_parse hdeep with hlong | ⟨hlimit, -⟩ | hrefused
  · cases hlong
  · omega
  · cases hrefused with
    | phrase hphrase => cases hphrase

end Calculator
