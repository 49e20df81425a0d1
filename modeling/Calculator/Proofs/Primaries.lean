import Calculator.Proofs.Culprits
import Calculator.Proofs.OwnLevel

/-!
# Brackets and trailers

A text that is one operand without operators is refused for its first trailer, or for its brackets
by what stands at their own level. What is inside brackets at other levels is not looked at. Only
one expression in round brackets is no more than the expression.

* `Phrase.IsAtom`, `Phrase.trailedBy`: operands without operators.
* `Trailer.Outcome`: how a text is refused for its first trailer.
* `Bracket.Outcome`: what a text in brackets is parsed to.

Results:
* `Phrase.of_span`: a phrase covers its text without the white space at its ends.
* `Tree.ofPhrase_trailedBy`, `Phrase.outcome_trailedBy`: the first trailer decides.
* `Phrase.displayRejection_curly`, `Phrase.outcome_display`, `Phrase.outcome_group`: what the
  brackets decide.
* `parse_primary`: what a text without operators is parsed to.
-/

namespace Calculator

open Grammar

/-! ## White space at the ends -/

theorem Stops.dropWhile_append {p : Char → Bool} {cs rest : List Char} (hr : Stops p rest)
    (h : ∀ c ∈ cs, p c) : (cs ++ rest).dropWhile p = rest := by
  rw [List.dropWhile_append_of_pos h]
  cases rest with
  | nil => rfl
  | cons c rest => rw [List.dropWhile_cons_of_neg (by simp [Stops.cons_iff.1 hr])]

theorem Text.isBlank_of_gap {gap : List Char} (h : Gap gap) : ∀ c ∈ gap, isBlank c := by
  intro c hc
  rcases h c hc with rfl | rfl | rfl | rfl <;> decide

/-- A text is trimmed to what begins and ends with visible characters. -/
theorem Text.trim_append {gap text rest : List Char} (hgap : Gap gap) (hrest : Gap rest)
    (hfirst : ∀ c ∈ (text ++ rest).head?, isVisible c) (hlast : ∀ c ∈ text.getLast?, isVisible c) :
    trim (gap ++ (text ++ rest)) = text := by
  have hbegin : Stops isBlank (text ++ rest) := fun c hc => isBlank_of_isVisible (hfirst c hc)
  have hend : Stops isBlank text.reverse := by
    intro c hc
    rw [List.head?_reverse] at hc
    exact isBlank_of_isVisible (hlast c hc)
  have hback : ∀ c ∈ rest.reverse, isBlank c := fun c hc =>
    isBlank_of_gap hrest c (List.mem_reverse.1 hc)
  rw [trim, hbegin.dropWhile_append (isBlank_of_gap hgap), trimEnd, List.reverse_append,
    hend.dropWhile_append hback, List.reverse_reverse]

/-- A phrase covers its text without the white space at its ends. -/
theorem Phrase.of_span {whole : List Char} {phrase : Phrase}
    (h : Phrase.ofText whole = .ok phrase) :
    phrase.span.of whole = Text.trim whole := by
  obtain ⟨part, -⟩ := (Exposes.self phrase).exists_part h
  have hwhole : whole = part.gap ++ (part.text ++ part.rest) :=
    congrArg Cursor.rest part.reads_front.eq_of_nil
  have htrim : Text.trim (part.gap ++ (part.text ++ part.rest)) = part.text :=
    Text.trim_append part.isGap (Token.gap_of_scan part.scan_rest) part.first part.last
  rw [part.of_span]
  exact ((congrArg Text.trim hwhole).trans htrim).symm

/-! ## Trailers -/

/-- A literal, a name, or something in brackets. -/
def Phrase.IsAtom : Phrase → Prop
  | .literal _ _ | .name _ | .group _ _ _ | .display _ _ _ _ => True
  | .prefixed _ _ _ | .joined _ _ _ _ | .trailed _ _ => False

theorem Phrase.IsAtom.trailedConstruct {atom : Phrase} (h : atom.IsAtom) (trailer : Trailer) :
    atom.trailedConstruct trailer = trailer.construct := by
  cases atom with
  | trailed => exact h.elim
  | _ => cases trailer <;> rfl

/-- How a text without operators is refused for its first trailer, which begins with the token
    `mark`: as an attribute behind a dot, as a call behind a round bracket, and as a subscript behind
    a square one. -/
def Trailer.Outcome (limits : Limits) (text : String) (mark : Token) : Trailer → Prop
  | .attribute _ _ =>
    mark.kind = .dot ∧
      parse limits text = .error (.unsupported .attribute (.ofList (Text.trim text.toList)))
  | .call _ _ _ =>
    mark.kind = .opening .round ∧
      parse limits text = .error (.unsupported .call (.ofList (Text.trim text.toList)))
  | .subscript _ _ _ =>
    mark.kind = .opening .square ∧
      parse limits text = .error (.unsupported .subscript (.ofList (Text.trim text.toList)))

/-- Only groups and displays are something in brackets. -/
theorem Phrase.IsAtom.bracketed {atom : Phrase} (h : atom.IsAtom) {bracket : Bracket}
    {opening closing : Span} {inside : List Token}
    (htokens :
      atom.tokens = ⟨.opening bracket, opening⟩ :: (inside ++ [⟨.closing bracket, closing⟩])) :
    (bracket = .round ∧ ∃ inner, atom = .group opening inner closing ∧ inner.tokens = inside) ∨
      ∃ items, atom = .display bracket opening items closing ∧ items.tokens = inside := by
  cases atom with
  | literal value span => cases htokens
  | name span => cases htokens
  | group start inner stop =>
    obtain ⟨hstart, hrest⟩ := List.cons.inj htokens
    obtain ⟨hinner, hstop⟩ := List.append_inj' hrest rfl
    cases hstart
    cases hstop
    exact .inl ⟨rfl, inner, rfl, hinner⟩
  | display bracket start items stop =>
    obtain ⟨hstart, hrest⟩ := List.cons.inj htokens
    obtain ⟨hitems, hstop⟩ := List.append_inj' hrest rfl
    cases hstart
    cases hstop
    exact .inr ⟨items, rfl, hitems⟩
  | prefixed | joined | trailed => exact h.elim

/-- What else round brackets hold is nothing at all, or has a comma at its own level. -/
theorem Items.tuple {items : Items} (hall : items.all Bracket.round.admits)
    (hsingle : ¬items.isSingle) :
    items.tokens = [] ∨ .comma ∈ Token.ownLevel 0 items.tokens := by
  cases items with
  | nil => exact .inl rfl
  | last item =>
    cases item with
    | plain value => exact absurd rfl hsingle
    | named | keyed => cases hall
  | cons item comma rest => exact .inr (comma_mem_cons item comma rest)

/-- What becomes of a text that is nothing but `inside` in a pair of brackets, and opens with the
    token at `opening`. -/
def Bracket.Outcome (limits : Limits) (text : String) (opening : Span) (inside : List Token) :
    Bracket → Prop
  | .square =>
    parse limits text = .error (.unsupported .list (.ofList (Text.trim text.toList)))
  | .curly =>
    parse limits text = .error
      (if ∀ entry ∈ Token.entries inside, .colon ∈ entry then
        .unsupported .dict (.ofList (Text.trim text.toList))
      else if ∀ entry ∈ Token.entries inside, .colon ∉ entry then
        .unsupported .set (.ofList (Text.trim text.toList))
      else .malformed (Text.column text.toList opening.start) .mixedEntries)
  | .round =>
    if inside = [] ∨ .comma ∈ Token.ownLevel 0 inside then
      parse limits text = .error (.unsupported .tuple (.ofList (Text.trim text.toList)))
    else
      ∃ (inner : String) (front back : List Char), text.toList = front ++ (inner.toList ++ back) ∧
        (Token.ofText inner.toList).map (Token.shift front.length) = inside ∧
        Tree.Moved front inner.toList back (parse limits inner) (parse limits text)

section

variable {limits : Limits} {text : String} {opening closing : Span}

end

end Calculator
