import Calculator.Proofs.Parts
import Calculator.Proofs.RealNesting

/-!
# What a refusal names

A text that is refused for a construct is refused with a part of it, the culprit. The culprit begins
and ends with a token, and as a text of its own it is refused for the same construct with itself,
within the same limits.

* `Phrase.Exposes`: a phrase inside another one that is looked at behind accepted operands.

Results:
* `Tree.exists_culprit`: the refusal of a phrase is that of a phrase exposed in it.
* `Phrase.Exposes.exists_part`: an exposed phrase is that of a part of the text.
* `parse_culprit`: the culprit is refused alone as in the text.
-/

namespace Calculator

/-! ## Exposed phrases -/

/-- A phrase inside another one, with the tokens before it and behind it: it is the first phrase, or
    follows operators, accepted operands and opening brackets. -/
inductive Phrase.Exposes : Phrase → List Token → Phrase → List Token → Prop
  | self (phrase : Phrase) : Exposes phrase [] phrase []
  | operand {operator : UnaryOperator} {mark : Span} {operand inner : Phrase}
      {front back : List Token} : Exposes operand front inner back →
    Exposes (.prefixed operator mark operand) (⟨operator.kind, mark⟩ :: front) inner back
  | left {left right inner : Phrase} {connector : Connector} {mark : Span}
      {front back : List Token} : Exposes left front inner back →
    Exposes (.joined left connector mark right) front inner
      (back ++ ⟨connector.kind, mark⟩ :: right.tokens)
  | right {left right inner : Phrase} {operator : Operator} {mark : Span}
      {front back : List Token} (hleft : left.IsPlain) : Exposes right front inner back →
    Exposes (.joined left (.operator operator) mark right)
      (left.tokens ++ ⟨.operator operator, mark⟩ :: front) inner back
  | group {opening closing : Span} {content inner : Phrase} {front back : List Token} :
    Exposes content front inner back →
    Exposes (.group opening content closing) (⟨.opening .round, opening⟩ :: front) inner
      (back ++ [⟨.closing .round, closing⟩])

namespace Phrase.Exposes

variable {phrase inner : Phrase} {front back : List Token}

theorem tokens_eq (h : Exposes phrase front inner back) :
    phrase.tokens = front ++ (inner.tokens ++ back) := by
  induction h with
  | self phrase => rw [List.append_nil, List.nil_append]
  | operand _ ih => rw [tokens, ih, List.cons_append]
  | left _ ih => rw [tokens, ih, List.append_assoc, List.append_assoc]
  | right _ _ ih =>
    rw [tokens, ih, List.append_assoc, List.cons_append]
    rfl
  | group _ ih => rw [tokens, ih, List.cons_append, List.append_assoc, List.append_assoc]

theorem wellFormed (h : Exposes phrase front inner back) (hphrase : phrase.WellFormed) :
    inner.WellFormed := by
  induction h with
  | self phrase => exact hphrase
  | operand _ ih => exact ih hphrase.1
  | left _ ih => exact ih hphrase.1.1
  | right _ _ ih => exact ih hphrase.2.1
  | group _ ih => exact ih hphrase

/-- Only tokens of accepted phrases stand before an exposed one. -/
theorem isPlain_front (h : Exposes phrase front inner back) :
    ∀ token ∈ front, token.kind.isPlain := by
  induction h with
  | self phrase => exact fun token htoken => nomatch htoken
  | @operand operator _ _ _ _ _ _ ih =>
    exact List.forall_mem_cons.2 ⟨by cases operator <;> rfl, ih⟩
  | left _ ih => exact ih
  | right hleft _ ih =>
    exact List.forall_mem_append.2 ⟨isPlain_tokens _ hleft, List.forall_mem_cons.2 ⟨rfl, ih⟩⟩
  | group _ ih => exact List.forall_mem_cons.2 ⟨rfl, ih⟩

/-- No operand has ended before an exposed phrase. -/
theorem endsOperand_front (h : Exposes phrase front inner back) :
    ∀ token ∈ front.getLast?, token.kind.endsOperand = false := by
  have hcons {token : Token} {tokens : List Token} (hk : token.kind.endsOperand = false)
      (htokens : ∀ last ∈ tokens.getLast?, last.kind.endsOperand = false) :
      ∀ last ∈ (token :: tokens).getLast?, last.kind.endsOperand = false := by
    cases tokens with
    | nil =>
      intro last hlast
      cases hlast
      exact hk
    | cons next tokens =>
      rw [List.getLast?_cons_cons]
      exact htokens
  induction h with
  | self phrase => exact fun token htoken => nomatch htoken
  | @operand operator _ _ _ _ _ _ ih => exact hcons (by cases operator <;> rfl) ih
  | left _ ih => exact ih
  | right _ _ ih =>
    rw [List.getLast?_append_cons]
    exact hcons rfl ih
  | group _ ih => exact hcons rfl ih

/-- The tokens before an exposed phrase are apart from each other and from it. -/
theorem apart_front {whole : List Char} (h : Exposes phrase front inner back)
    (hphrase : Phrase.ofText whole = .ok phrase) :
    (front ++ (inner.tokens ++ back).take 1).IsChain Token.Apart := by
  obtain ⟨last, hrun⟩ := Phrase.exists_run hphrase
  have hfollows := (State.isChain_run hrun).1
  rw [← tokens_ofTokens hphrase, h.tokens_eq] at hfollows
  obtain ⟨hfront, -, -⟩ := List.isChain_append.1 hfollows
  refine List.isChain_append.2 ⟨Token.apart_of_isPlain hfront h.isPlain_front, ?_, ?_⟩
  · cases inner.tokens ++ back with
    | nil => exact .nil
    | cons token tokens => exact List.isChain_singleton token
  · intro token htoken next _
    have hends := h.endsOperand_front token htoken
    have hplain := h.isPlain_front token (List.mem_of_getLast? htoken)
    constructor
    · intro hnumber
      rw [Token.Kind.endsOperand_of_isNumber hnumber] at hends
      cases hends
    · intro hk
      rw [hk] at hplain
      cases hplain

/-- An exposed phrase is that of a part of the text, which nests no more deeply alone. -/
theorem exists_part {whole : List Char} (h : Exposes phrase front inner back)
    (hphrase : Phrase.ofText whole = .ok phrase) :
    ∃ part : Part whole front inner.tokens back, Nesting.depth part.text ≤ Nesting.depth whole := by
  have htokens : Token.ofText whole = front ++ (inner.tokens ++ back) := by
    rw [← h.tokens_eq]
    exact (tokens_ofTokens hphrase).symm
  have hknown : ∀ token ∈ Token.ofText whole, token.kind ≠ .unknown := by
    obtain ⟨last, hrun⟩ := Phrase.exists_run hphrase
    exact State.known_of_run hrun
  obtain ⟨others, last, hlast, -, hk⟩ := inner.exists_last
  obtain ⟨part⟩ := Calculator.exists_part htokens hknown h.endsOperand_front hlast hk
  exact ⟨part, part.depth_le inner.balanced hknown (h.apart_front hphrase) h.endsOperand_front⟩

/-- The part of an exposed phrase is refused or accepted alone as inside the text, apart from the
    column of mixed entries. -/
theorem moved {whole : List Char} (h : Exposes phrase front inner back)
    (hphrase : Phrase.ofText whole = .ok phrase) (part : Part whole front inner.tokens back) :
    Tree.Moved part.lead part.text part.rest (parseUnlimited part.text)
      (Tree.ofPhrase whole inner) := by
  obtain ⟨alone, halone, hshift⟩ := part.exists_phrase (h.wellFormed (wellFormed_ofTokens hphrase))
  have hmoved := Tree.ofChain_moved part.lead part.rest alone none (stop_le_length halone)
  rw [← part.whole_eq_lead, hshift] at hmoved
  rw [parseUnlimited, halone]
  exact hmoved

end Phrase.Exposes

/-! ## Culprits -/

theorem Phrase.eq_of_displayRejection {text : List Char} {bracket : Bracket} {items : Items}
    {span : Span} {construct : Construct} {culprit : String}
    (h : displayRejection text bracket items span = .unsupported construct culprit) :
    culprit = .ofList (span.of text) := by
  unfold displayRejection at h
  cases bracket with
  | round | square =>
    cases h
    rfl
  | curly =>
    dsimp only at h
    split at h
    · cases h
      rfl
    · split at h <;> cases h
      rfl

/-- **A refusal for a construct is that of an exposed phrase**, with what the phrase covers. -/
theorem Tree.exists_culprit {text : List Char} {construct : Construct} {culprit : String} :
    (phrase : Phrase) → (chain : Option Logical) →
    ofChain text chain phrase = .error (.unsupported construct culprit) →
    ∃ front inner back, phrase.Exposes front inner back ∧
      ofChain text none inner = .error (.unsupported construct culprit) ∧
      culprit = .ofList (inner.span.of text)
  | .literal value span, _, h => by
    rw [ofChain] at h
    cases Literal.eq_overflow_of_toConstant (map_eq_error_iff.1 h)
  | .name span, _, h => by
    rw [ofChain] at h
    refine ⟨[], .name span, [], .self _, h, ?_⟩
    cases h
    rfl
  | .prefixed operator mark operand, _, h => by
    rw [ofChain] at h
    obtain ⟨front, inner, back, hexposes, hinner⟩ :=
      exists_culprit operand none (map_eq_error_iff.1 h)
    exact ⟨_, inner, back, .operand hexposes, hinner⟩
  | .joined left (.operator operator) mark right, _, h => by
    rw [ofChain] at h
    rcases bind_eq_error_iff.1 h with hleft | ⟨a, ha, hright⟩
    · obtain ⟨front, inner, back, hexposes, hinner⟩ := exists_culprit left none hleft
      exact ⟨front, inner, _, .left hexposes, hinner⟩
    · rcases bind_eq_error_iff.1 hright with hright | ⟨b, _, hb⟩
      · obtain ⟨front, inner, back, hexposes, hinner⟩ := exists_culprit right none hright
        exact ⟨_, inner, back, .right (left.isPlain_of_ofPhrase a ha) hexposes, hinner⟩
      · cases hb
  | .joined left (.logical connective) mark right, chain, h => by
    rw [ofChain] at h
    rcases bind_eq_error_iff.1 h with hleft | ⟨a, ha, hthrow⟩
    · obtain ⟨front, inner, back, hexposes, hinner⟩ := exists_culprit left (some connective) hleft
      exact ⟨front, inner, _, .left hexposes, hinner⟩
    · -- the first operand is accepted, so the chain itself is refused
      split at hthrow
      · cases hthrow
      · cases hthrow
        refine ⟨[], _, [], .self _, ?_, rfl⟩
        rw [ofChain, ha]
        rfl
  | .group opening inner closing, _, h => by
    rw [ofChain] at h
    obtain ⟨front, culprit, back, hexposes, hculprit⟩ := exists_culprit inner none h
    exact ⟨_, culprit, _, .group hexposes, hculprit⟩
  | .display bracket opening items closing, _, h => by
    rw [ofChain] at h
    exact ⟨[], .display bracket opening items closing, [], .self _, h,
      Phrase.eq_of_displayRejection (Except.error.inj h)⟩
  | .trailed target trailer, _, h => by
    rw [ofChain] at h
    refine ⟨[], .trailed target trailer, [], .self _, h, ?_⟩
    cases h
    rfl

/-- A part of a text that is within the limits is within the limits. -/
theorem Part.parse_text {limits : Limits} {whole : List Char} {front middle back : List Token}
    (part : Part whole front middle back) (hlength : whole.length ≤ limits.maxLength)
    (hdepth : Nesting.depth whole ≤ limits.maxDepth)
    (hpart : Nesting.depth part.text ≤ Nesting.depth whole) :
    parse limits (.ofList part.text) = parseUnlimited part.text := by
  rw [parse_eq_of_le, String.toList_ofList]
  · rw [String.toList_ofList]
    exact part.length_le.trans hlength
  · rw [String.toList_ofList]
    exact hpart.trans hdepth

/-- **A refusal names a culprit that stands for itself.** What a text is refused with is a part of
    it, without white space at its ends, and is refused alone for the same construct with itself,
    under the same limits. -/
theorem parse_culprit {limits : Limits} {text culprit : String} {construct : Construct}
    (h : parse limits text = .error (.unsupported construct culprit)) :
    (∃ front back, text.toList = front ++ (culprit.toList ++ back)) ∧ culprit.toList ≠ [] ∧
      (∀ c ∈ culprit.toList.head?, Text.isBlank c = false) ∧
      (∀ c ∈ culprit.toList.getLast?, Text.isBlank c = false) ∧
      parse limits culprit = .error (.unsupported construct culprit) := by
  obtain ⟨hlength, hdepth⟩ := le_of_parse h nofun nofun
  rw [parse_eq_of_le hlength hdepth] at h
  rw [parseUnlimited] at h
  split at h
  · cases h
  · rename_i phrase hphrase
    obtain ⟨front, inner, back, hexposes, hinner, rfl⟩ := Tree.exists_culprit phrase none h
    obtain ⟨part, hpart⟩ := hexposes.exists_part hphrase
    have hmoved := hexposes.moved hphrase part
    rw [Tree.ofPhrase, hinner] at hmoved
    rw [part.of_span] at hmoved ⊢
    rw [String.toList_ofList]
    refine ⟨⟨part.lead, part.rest, part.whole_eq_lead⟩, part.ne_nil, fun c hc => ?_,
      fun c hc => ?_, ?_⟩
    · exact Text.isBlank_of_isVisible (part.first_text c hc)
    · exact Text.isBlank_of_isVisible (part.last c hc)
    · rw [part.parse_text hlength hdepth hpart]
      exact hmoved.eq_unsupported

/-- The culprit is in brackets behind a sign, and is the first operand of a comparison. -/
theorem parse_culprit_operand :
    parse ⟨15, 2⟩ "-(1.5 .e+3 < 2)" = .error (.unsupported .attribute "1.5 .e") ∧
      parse ⟨15, 2⟩ "1.5 .e" = .error (.unsupported .attribute "1.5 .e") := by
  have hwhole : parse ⟨15, 2⟩ "-(1.5 .e+3 < 2)" = .error (.unsupported .attribute "1.5 .e") := by
    with_unfolding_all rfl
  obtain ⟨-, -, -, -, halone⟩ := parse_culprit hwhole
  exact ⟨hwhole, halone⟩

end Calculator
