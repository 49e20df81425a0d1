import Calculator.Phrase.Parser

/-!
# Nothing is lost in reading

Every state of the machine still holds all the tokens that led to it, in order.

* `State.tokens`: the tokens that a state holds.
* `State.tokens_step`, `State.tokens_run`: a step adds its token at the end, and nothing else.
* `Phrase.tokens_ofTokens`: a phrase that has been read is made of exactly the tokens read.
-/

namespace Calculator

/-! ## What a state holds -/

/-- The tokens of an operator that waits. -/
def Frame.tokens : Frame → List Token
  | .prefixed operator mark => [⟨operator.kind, mark⟩]
  | .joined left connector mark => left.tokens ++ [⟨connector.kind, mark⟩]

/-- The tokens of operators that wait, the last operator first. -/
def Frame.tokensAll : List Frame → List Token
  | [] => []
  | frame :: frames => tokensAll frames ++ frame.tokens

/-- The tokens in front of a bracket that waits. -/
def Enclosure.tokens : Enclosure → List Token
  | .display _ => []
  | .call target | .subscript target => target.tokens

/-- The tokens of the beginning of an item. -/
def Lead.tokens : Lead → List Token
  | .none => []
  | .named label equals => [⟨.name, label⟩, ⟨.equals, equals⟩]
  | .keyed key colon => key.tokens ++ [⟨.colon, colon⟩]

/-- The tokens of complete items with their commas, the last item first. -/
def Opening.itemTokens : List (Item × Span) → List Token
  | [] => []
  | (item, comma) :: items => itemTokens items ++ (item.tokens ++ [⟨.comma, comma⟩])

/-- The tokens of a bracket that waits. -/
def Opening.tokens (opening : Opening) : List Token :=
  opening.enclosure.tokens ++ ⟨.opening opening.enclosure.bracket, opening.mark⟩ ::
    (itemTokens opening.items ++ opening.lead.tokens)

/-- The tokens of brackets that wait, the innermost first, with the operators outside of each. -/
def State.openingTokens : List (Opening × List Frame) → List Token
  | [] => []
  | (opening, frames) :: openings =>
    openingTokens openings ++ (Frame.tokensAll frames ++ opening.tokens)

/-- The tokens of what stands at the point of reading. -/
def Mode.tokens : Mode → List Token
  | .operand => []
  | .label target dot => target.tokens ++ [⟨.dot, dot⟩]
  | .continuation complete => complete.tokens

/-- The tokens that a state holds, in the order in which they were read. -/
def State.tokens (state : State) : List Token :=
  openingTokens state.openings ++ (Frame.tokensAll state.frames ++ state.mode.tokens)

/-! ## Completing what waits -/

namespace Frame

theorem tokens_fill (operand : Phrase) (frame : Frame) :
    (frame.fill operand).tokens = frame.tokens ++ operand.tokens := by
  cases frame <;> simp [fill, tokens, Phrase.tokens]

theorem tokens_closeAll (frames : List Frame) (operand : Phrase) :
    (closeAll frames operand).tokens = tokensAll frames ++ operand.tokens := by
  induction frames generalizing operand with
  | nil => rfl
  | cons frame frames ih =>
    have h := ih (frame.fill operand)
    simp only [closeAll, List.foldl_cons] at h ⊢
    rw [h, tokens_fill, tokensAll, List.append_assoc]

theorem tokens_close (strength : Nat) (frames : List Frame) (operand : Phrase) :
    tokensAll (close strength frames operand).1 ++ (close strength frames operand).2.tokens =
      tokensAll frames ++ operand.tokens := by
  induction frames generalizing operand with
  | nil => rfl
  | cons frame frames ih =>
    rw [close]
    split
    · rw [ih, tokens_fill, tokensAll, List.append_assoc]
    · rfl

end Frame

theorem Lead.tokens_fill (value : Phrase) (lead : Lead) :
    (lead.fill value).tokens = lead.tokens ++ value.tokens := by
  cases lead <;> simp [fill, tokens, Item.tokens]

namespace Opening

theorem tokens_gather (last : Items) (items : List (Item × Span)) :
    (gather last items).tokens = itemTokens items ++ last.tokens := by
  induction items generalizing last with
  | nil => rfl
  | cons head items ih =>
    obtain ⟨item, comma⟩ := head
    have h := ih (.cons item comma last)
    simp only [gather, List.foldl_cons] at h ⊢
    rw [h, itemTokens, Items.tokens]
    simp

/-- With its last item and the closing bracket, a bracket has all its tokens. -/
theorem tokens_fill (opening : Opening) (last : Items) (closing : Span) :
    (opening.fill last closing).tokens =
      opening.enclosure.tokens ++ ⟨.opening opening.enclosure.bracket, opening.mark⟩ ::
        (itemTokens opening.items ++ last.tokens ++
          [⟨.closing opening.enclosure.bracket, closing⟩]) := by
  obtain ⟨enclosure, mark, items, lead⟩ := opening
  rw [← tokens_gather]
  simp only [fill]
  generalize gather last items = all
  split
  · simp [Phrase.tokens, Items.tokens, Item.tokens, Enclosure.tokens, Enclosure.bracket]
  · simp [Phrase.tokens, Enclosure.tokens, Enclosure.bracket]
  · simp [Phrase.tokens, Trailer.tokens, Enclosure.tokens, Enclosure.bracket]
  · simp [Phrase.tokens, Trailer.tokens, Enclosure.tokens, Enclosure.bracket]

theorem tokens_separate (opening : Opening) (value : Phrase) (comma : Span) :
    (opening.separate value comma).tokens =
      opening.tokens ++ value.tokens ++ [⟨.comma, comma⟩] := by
  simp [separate, tokens, itemTokens, Lead.tokens_fill, Lead.tokens]

theorem tokens_addKey? {opening next : Opening} {key : Phrase} {colon : Span}
    (h : opening.addKey? key colon = some next) :
    next.tokens = opening.tokens ++ key.tokens ++ [⟨.colon, colon⟩] := by
  unfold addKey? at h
  split at h
  · rename_i he hl
    cases h
    simp [tokens, he, hl, Lead.tokens]
  · cases h

theorem tokens_addName? {opening next : Opening} {label equals : Span}
    (h : opening.addName? label equals = some next) :
    next.tokens = opening.tokens ++ [⟨.name, label⟩, ⟨.equals, equals⟩] := by
  unfold addName? at h
  split at h
  · rename_i he hl
    cases h
    simp [tokens, he, hl, Lead.tokens]
  · cases h

end Opening

/-! ## Steps -/

namespace State

theorem tokens_operandRead (state : State) (operand : Phrase) :
    (state.operandRead operand).tokens =
      openingTokens state.openings ++ (Frame.tokensAll state.frames ++ operand.tokens) := rfl

theorem tokens_prepend (state : State) (operator : UnaryOperator) (mark : Span) :
    (state.prepend operator mark).tokens =
      openingTokens state.openings ++
        (Frame.tokensAll state.frames ++ [⟨operator.kind, mark⟩]) := by
  simp [prepend, tokens, Frame.tokensAll, Frame.tokens, Mode.tokens]

theorem tokens_connect (state : State) (operand : Phrase) (connector : Connector) (mark : Span) :
    (state.connect operand connector mark).tokens =
      openingTokens state.openings ++
        (Frame.tokensAll state.frames ++ operand.tokens ++ [⟨connector.kind, mark⟩]) := by
  rw [← Frame.tokens_close connector.closes]
  simp [connect, tokens, Frame.tokensAll, Frame.tokens, Mode.tokens]

theorem tokens_enter (state : State) (enclosure : Enclosure) (mark : Span) :
    (state.enter enclosure mark).tokens =
      openingTokens state.openings ++ (Frame.tokensAll state.frames ++
        (enclosure.tokens ++ [⟨.opening enclosure.bracket, mark⟩])) := by
  simp [enter, tokens, openingTokens, Frame.tokensAll, Mode.tokens, Opening.start, Opening.tokens,
    Opening.itemTokens, Lead.tokens]

theorem tokens_leave? {state next : State} {operand : Phrase} {bracket : Bracket} {closing : Span}
    (h : state.leave? operand bracket closing = some next) :
    next.tokens = openingTokens state.openings ++
      (Frame.tokensAll state.frames ++ operand.tokens ++ [⟨.closing bracket, closing⟩]) := by
  unfold leave? at h
  split at h
  · cases h
  · rename_i opening frames openings ho
    split at h
    · rename_i hb
      cases h
      subst hb
      simp [tokens, ho, openingTokens, Mode.tokens, Opening.tokens_fill, Items.tokens,
        Lead.tokens_fill, Frame.tokens_closeAll, Opening.tokens]
    · cases h

theorem tokens_leaveEmpty? {state next : State} {bracket : Bracket} {closing : Span}
    (hm : state.mode = .operand) (h : state.leaveEmpty? bracket closing = some next) :
    next.tokens = state.tokens ++ [⟨.closing bracket, closing⟩] := by
  unfold leaveEmpty? at h
  split at h
  · rename_i opening frames openings hf ho
    split at h
    · rename_i hc
      cases h
      obtain ⟨rfl, hc⟩ := hc
      have hl : opening.lead = .none := by
        unfold Opening.canClose at hc
        split at hc
        · assumption
        · assumption
        · cases hc
      simp [tokens, hm, hf, ho, hl, openingTokens, Mode.tokens, Frame.tokensAll,
        Opening.tokens_fill, Items.tokens, Opening.tokens, Lead.tokens]
    · cases h
  · cases h

theorem tokens_separate? {state next : State} {operand : Phrase} {comma : Span}
    (h : state.separate? operand comma = some next) :
    next.tokens = openingTokens state.openings ++
      (Frame.tokensAll state.frames ++ operand.tokens ++ [⟨.comma, comma⟩]) := by
  unfold separate? at h
  split at h
  · cases h
  · rename_i opening frames openings ho
    cases h
    simp [tokens, ho, openingTokens, Mode.tokens, Frame.tokensAll, Opening.tokens_separate,
      Frame.tokens_closeAll]

theorem tokens_addKey? {state next : State} {operand : Phrase} {colon : Span}
    (h : state.addKey? operand colon = some next) :
    next.tokens = openingTokens state.openings ++
      (Frame.tokensAll state.frames ++ operand.tokens ++ [⟨.colon, colon⟩]) := by
  unfold addKey? at h
  split at h
  · cases h
  · rename_i opening frames openings ho
    obtain ⟨keyed, hk, rfl⟩ := Option.map_eq_some_iff.1 h
    simp [tokens, ho, openingTokens, Mode.tokens, Frame.tokensAll, Opening.tokens_addKey? hk,
      Frame.tokens_closeAll]

theorem tokens_addName? {state next : State} {operand : Phrase} {equals : Span}
    (h : state.addName? operand equals = some next) :
    next.tokens = openingTokens state.openings ++
      (Frame.tokensAll state.frames ++ operand.tokens ++ [⟨.equals, equals⟩]) := by
  unfold addName? at h
  split at h
  · rename_i label opening frames openings hf ho
    obtain ⟨named, hn, rfl⟩ := Option.map_eq_some_iff.1 h
    simp [tokens, hf, ho, openingTokens, Mode.tokens, Frame.tokensAll, Opening.tokens_addName? hn,
      Phrase.tokens]
  · cases h

theorem tokens_stepOperand {state next : State} {token : Token} (hm : state.mode = .operand)
    (h : state.stepOperand token = some next) : next.tokens = state.tokens ++ [token] := by
  obtain ⟨kind, span⟩ := token
  have hs : state.tokens =
      openingTokens state.openings ++ Frame.tokensAll state.frames := by
    simp [tokens, hm, Mode.tokens]
  unfold stepOperand at h
  split at h
  case h_9 => cases h
  all_goals rename_i hk; dsimp only at hk; subst hk
  · cases h; simp [hs, tokens_operandRead, Phrase.tokens]
  · cases h; simp [hs, tokens_operandRead, Phrase.tokens]
  · cases h; simp [hs, tokens_prepend, UnaryOperator.kind]
  · cases h; simp [hs, tokens_prepend, UnaryOperator.kind]
  · cases h; simp [hs, tokens_prepend, UnaryOperator.kind]
  · split at h
    · cases h; simp [hs, tokens_prepend, UnaryOperator.kind]
    · cases h
  · cases h; simp [hs, tokens_enter, Enclosure.tokens, Enclosure.bracket]
  · exact tokens_leaveEmpty? hm h

theorem tokens_stepContinuation {state next : State} {operand : Phrase} {token : Token}
    (hm : state.mode = .continuation operand)
    (h : state.stepContinuation operand token = some next) :
    next.tokens = state.tokens ++ [token] := by
  obtain ⟨kind, span⟩ := token
  have hs : state.tokens =
      openingTokens state.openings ++ (Frame.tokensAll state.frames ++ operand.tokens) := by
    simp [tokens, hm, Mode.tokens]
  unfold stepContinuation at h
  split at h
  case h_10 => cases h
  all_goals rename_i hk; dsimp only at hk; subst hk
  · cases h; simp [hs, tokens_connect, Connector.kind]
  · cases h; simp [hs, tokens_connect, Connector.kind]
  · cases h
    rw [hs]
    simp [tokens, Mode.tokens]
  · cases h; simp [hs, tokens_enter, Enclosure.tokens, Enclosure.bracket]
  · cases h; simp [hs, tokens_enter, Enclosure.tokens, Enclosure.bracket]
  · simp [hs, tokens_leave? h]
  · simp [hs, tokens_separate? h]
  · simp [hs, tokens_addKey? h]
  · simp [hs, tokens_addName? h]

/-- A step adds its token. -/
theorem tokens_step {state next : State} {token : Token} (h : state.step token = some next) :
    next.tokens = state.tokens ++ [token] := by
  unfold step at h
  split at h
  · rename_i hm
    exact tokens_stepOperand hm h
  · rename_i target dot hm
    split at h
    · rename_i hk
      cases h
      obtain ⟨kind, span⟩ := token
      cases hk
      rw [tokens_operandRead]
      simp [tokens, hm, Mode.tokens, Phrase.tokens, Trailer.tokens]
    · cases h
  · rename_i operand hm
    exact tokens_stepContinuation hm h

/-- A run adds its tokens. -/
theorem tokens_run {state last : State} {tokens : List Token} (h : state.run tokens = .ok last) :
    last.tokens = state.tokens ++ tokens := by
  induction tokens generalizing state with
  | nil =>
    cases h
    simp
  | cons token tokens ih =>
    rw [run] at h
    split at h
    · rename_i next hn
      rw [ih h, tokens_step hn]
      simp
    · cases h

theorem tokens_result? {state : State} {phrase : Phrase} (h : state.result? = some phrase) :
    phrase.tokens = state.tokens := by
  unfold result? at h
  split at h
  · rename_i operand hm ho
    cases h
    simp [Frame.tokens_closeAll, tokens, hm, ho, openingTokens, Mode.tokens]
  · cases h

end State

/-! ## Whole texts -/

/-- A phrase that has been read is made of exactly the tokens read. -/
theorem Phrase.tokens_ofTokens {tokens : List Token} {stop : Nat} {phrase : Phrase}
    (h : Phrase.ofTokens tokens stop = .ok phrase) : phrase.tokens = tokens := by
  unfold ofTokens at h
  split at h
  · cases h
  · rename_i state hs
    split at h
    · rename_i found hf
      cases h
      rw [State.tokens_result? hf, State.tokens_run hs]
      rfl
    · cases h

end Calculator
