import Calculator.Proofs.WellFormed

/-!
# Every well-formed phrase is read back from its tokens

The machine that starts on the tokens of a well-formed phrase reads this phrase: it leaves the
operators on the right edge of the phrase waiting, and closing these off completes the phrase.

Results:
* `Phrase.run_tokens`: a phrase is read in the middle of a run, whatever waits outside of it and
  whatever follows.
* `Phrase.ofTokens_eq_ok_iff`: the phrase that is read is the one well-formed phrase with these
  tokens.
-/

namespace Calculator

/-! ## Closing off frames -/

namespace Frame

theorem closeAll_append (inner outer : List Frame) (operand : Phrase) :
    closeAll (inner ++ outer) operand = closeAll outer (closeAll inner operand) := by
  simp [closeAll]

/-- Frames that bind strongly enough are closed off down to those that do not. -/
theorem close_append {least : Nat} {inner outer : List Frame} (operand : Phrase)
    (hi : ∀ frame ∈ inner, least ≤ frame.strength)
    (ho : ∀ frame ∈ outer.head?, frame.strength < least) :
    close least (inner ++ outer) operand = (outer, closeAll inner operand) := by
  induction inner generalizing operand with
  | nil =>
    cases outer with
    | nil => rfl
    | cons frame outer =>
      have h : ¬least ≤ frame.strength := Nat.not_le.2 (ho frame rfl)
      simp [close, closeAll, h]
  | cons frame inner ih =>
    rw [List.forall_mem_cons] at hi
    rw [List.cons_append, close, if_pos hi.1, ih _ hi.2]
    rfl

/-- A frame that an operation completes binds less strongly than the operation closes off. -/
theorem strength_lt_closes {frame : Frame} {connector : Connector}
    (h : frame.least ≤ connector.strength) : frame.strength < connector.closes := by
  have hc := connector.cases_power
  have hne := connector.strength_ne_two
  cases frame with
  | prefixed operator mark =>
    simp only [least, strength] at h ⊢
    cases operator <;> simp only [UnaryOperator.strength] at h ⊢ <;> omega
  | joined left inner mark =>
    have hi := inner.cases_power
    simp only [least, strength] at h ⊢
    omega

/-- `not` can stand where it completes what waits. -/
theorem strength_le_two {frame : Frame} (h : frame.least ≤ 2) : frame.strength ≤ 2 := by
  cases frame with
  | prefixed operator mark => exact h
  | joined left connector mark =>
    have := connector.cases_power
    simp only [least, strength] at h ⊢
    omega

end Frame

/-! ## One phrase in a run -/

/-- What a run has made of a phrase when all its tokens are read: the operators on its right edge
    wait, and its last operand stands alone. -/
structure Phrase.Unfolds (phrase : Phrase) (edge : List Frame) (operand : Phrase) : Prop where
  closeAll : Frame.closeAll edge operand = phrase
  strong : ∀ frame ∈ edge, phrase.strength ≤ frame.strength ∨ 7 ≤ frame.strength
  complete : 9 ≤ phrase.strength → edge = []

namespace Phrase.Unfolds

variable {phrase operand : Phrase} {edge : List Frame}

theorem refl (phrase : Phrase) : phrase.Unfolds [] phrase :=
  ⟨rfl, by simp, fun _ => rfl⟩

theorem eq_of_complete (h : phrase.Unfolds edge operand) (hc : 9 ≤ phrase.strength) :
    edge = [] ∧ operand = phrase := by
  have he := h.complete hc
  subst he
  exact ⟨rfl, h.closeAll⟩

/-- A connector that may follow a phrase completes it, and nothing that waits outside of it. -/
theorem close_append {connector : Connector} {frames : List Frame} (h : phrase.Unfolds edge operand)
    (hc : connector.closes ≤ phrase.strength)
    (hf : ∀ frame ∈ frames.head?, frame.least ≤ connector.strength) :
    Frame.close connector.closes (edge ++ frames) operand = (frames, phrase) := by
  have hpower := connector.cases_power
  rw [Frame.close_append, h.closeAll]
  · intro frame hframe
    rcases h.strong frame hframe with hs | hs
    · omega
    · -- only `**` closes off more than 7, and a complete operand before it has no edge
      have hne : ¬9 ≤ phrase.strength := by
        intro hcomplete
        rw [h.complete hcomplete] at hframe
        cases hframe
      omega
  · intro frame hframe
    exact Frame.strength_lt_closes (hf frame hframe)

end Phrase.Unfolds

theorem State.run_cons {state next : State} {token : Token} (h : state.step token = some next)
    (rest : List Token) : state.run (token :: rest) = next.run rest := by
  rw [run, h]

/-- A run goes on behind the last token of a phrase with the phrase unfolded. -/
def Phrase.Runs (phrase : Phrase) : Prop :=
  ∀ (frames : List Frame) (openings : List (Opening × List Frame)) (rest : List Token),
    (∀ frame ∈ frames.head?, frame.least ≤ phrase.strength) →
    ∃ edge operand, phrase.Unfolds edge operand ∧
      State.run ⟨.operand, frames, openings⟩ (phrase.tokens ++ rest) =
        State.run ⟨.continuation operand, edge ++ frames, openings⟩ rest

/-- A run goes on behind a trailer with the trailed operand. -/
def Trailer.Runs (trailer : Trailer) : Prop :=
  ∀ (target : Phrase) (frames : List Frame) (openings : List (Opening × List Frame))
    (rest : List Token),
    State.run ⟨.continuation target, frames, openings⟩ (trailer.tokens ++ rest) =
      State.run ⟨.continuation (.trailed target trailer), frames, openings⟩ rest

/-- A run goes on behind an item inside a bracket that may hold it, with the value of the item
    unfolded. -/
def Item.Runs (item : Item) : Prop :=
  ∀ (enclosure : Enclosure) (mark : Span) (items : List (Item × Span)) (frames : List Frame)
    (openings : List (Opening × List Frame)) (rest : List Token),
    enclosure.admits item →
    ∃ lead edge operand, lead.fill (Frame.closeAll edge operand) = item ∧
      State.run ⟨.operand, [], (⟨enclosure, mark, items, .none⟩, frames) :: openings⟩
          (item.tokens ++ rest) =
        State.run
          ⟨.continuation operand, edge, (⟨enclosure, mark, items, lead⟩, frames) :: openings⟩ rest

/-- A run goes on behind the closing bracket with the operand that the bracket makes. -/
def Items.Runs (last : Items) : Prop :=
  ∀ (enclosure : Enclosure) (mark : Span) (items : List (Item × Span)) (frames : List Frame)
    (openings : List (Opening × List Frame)) (closing : Span) (rest : List Token),
    last.all enclosure.admits →
    (∀ target, enclosure = .subscript target → last.isEmpty = false ∨ items.isEmpty = false) →
    State.run ⟨.operand, [], (⟨enclosure, mark, items, .none⟩, frames) :: openings⟩
        (last.tokens ++ ⟨.closing enclosure.bracket, closing⟩ :: rest) =
      State.run ⟨.continuation (Opening.fill ⟨enclosure, mark, items, .none⟩ last closing), frames,
        openings⟩ rest

/-! ## Operations -/

namespace Phrase

theorem runs_prefixed {operator : UnaryOperator} {mark : Span} {operand : Phrase}
    (ho : operand.Runs) (hs : operator.strength ≤ operand.strength) :
    (prefixed operator mark operand).Runs := by
  intro frames openings rest hf
  have hstep : State.step ⟨.operand, frames, openings⟩ ⟨operator.kind, mark⟩ =
      some ⟨.operand, .prefixed operator mark :: frames, openings⟩ := by
    cases operator with
    | not =>
      have hn : State.admitsNot ⟨.operand, frames, openings⟩ := by
        cases frames with
        | nil => rfl
        | cons frame frames =>
          exact decide_eq_true (Frame.strength_le_two (hf frame rfl))
      simp [State.step, State.stepOperand, UnaryOperator.kind, hn, State.prepend]
    | _ => rfl
  obtain ⟨edge, last, hu, hrun⟩ := ho (.prefixed operator mark :: frames) openings rest (by
    intro frame h
    cases h
    exact hs)
  refine ⟨edge ++ [.prefixed operator mark], last, ⟨?_, ?_, ?_⟩, ?_⟩
  · rw [Frame.closeAll_append, hu.closeAll]
    rfl
  · intro frame h
    have hle := operator.strength_le
    rcases List.mem_append.1 h with h | h
    · have := hu.strong frame h
      simp only [strength]
      omega
    · rw [List.mem_singleton.1 h]
      exact .inl (Nat.le_refl _)
  · intro h
    have hle := operator.strength_le
    simp only [strength] at h
    omega
  · rw [tokens, List.cons_append, State.run_cons hstep, hrun, List.append_assoc]
    rfl

theorem runs_joined {left right : Phrase} {connector : Connector} {mark : Span}
    (hl : left.Runs) (hr : right.Runs) (hcl : connector.closes ≤ left.strength)
    (hcr : connector.rightLeast ≤ right.strength) : (joined left connector mark right).Runs := by
  intro frames openings rest hf
  have hpower := connector.cases_power
  have hcloses := connector.strength_le_closes
  obtain ⟨edge, first, hu, hrun⟩ := hl frames openings
    (⟨connector.kind, mark⟩ :: (right.tokens ++ rest)) (by
      intro frame h
      have : frame.least ≤ connector.strength := hf frame h
      omega)
  have hclose : Frame.close connector.closes (edge ++ frames) first = (frames, left) :=
    hu.close_append hcl hf
  have hstep : State.step ⟨.continuation first, edge ++ frames, openings⟩ ⟨connector.kind, mark⟩ =
      some ⟨.operand, .joined left connector mark :: frames, openings⟩ := by
    have h : State.step ⟨.continuation first, edge ++ frames, openings⟩ ⟨connector.kind, mark⟩ =
        some (State.connect ⟨.continuation first, edge ++ frames, openings⟩ first connector
          mark) := by
      cases connector <;> rfl
    rw [h, State.connect, hclose]
  obtain ⟨edge', last, hu', hrun'⟩ := hr (.joined left connector mark :: frames) openings rest (by
    intro frame h
    cases h
    exact hcr)
  refine ⟨edge' ++ [.joined left connector mark], last, ⟨?_, ?_, ?_⟩, ?_⟩
  · rw [Frame.closeAll_append, hu'.closeAll]
    rfl
  · intro frame h
    rcases List.mem_append.1 h with h | h
    · have := hu'.strong frame h
      simp only [strength]
      omega
    · rw [List.mem_singleton.1 h]
      exact .inl (Nat.le_refl _)
  · intro h
    simp only [strength] at h
    omega
  · rw [tokens, List.append_assoc, List.cons_append, hrun, State.run_cons hstep, hrun',
      List.append_assoc]
    rfl

/-! ## Brackets -/

theorem runs_group {opening closing : Span} {inner : Phrase} (hi : inner.Runs) :
    (group opening inner closing).Runs := by
  intro frames openings rest _
  obtain ⟨edge, last, hu, hrun⟩ := hi []
    ((.start (.display .round) opening, frames) :: openings) (⟨.closing .round, closing⟩ :: rest)
    (by simp)
  refine ⟨[], _, .refl _, ?_⟩
  have hstep : State.step ⟨.operand, frames, openings⟩ ⟨.opening .round, opening⟩ =
      some ⟨.operand, [], (.start (.display .round) opening, frames) :: openings⟩ := rfl
  rw [tokens, List.cons_append, List.append_assoc, State.run_cons hstep, List.singleton_append,
    hrun, List.append_nil, ← hu.closeAll]
  rfl

end Phrase

namespace Item

theorem runs_plain {value : Phrase} (hv : value.Runs) : (plain value).Runs := by
  intro enclosure mark items frames openings rest _
  obtain ⟨edge, last, hu, hrun⟩ := hv [] ((⟨enclosure, mark, items, .none⟩, frames) :: openings)
    rest (by simp)
  rw [List.append_nil] at hrun
  exact ⟨.none, edge, last, by rw [hu.closeAll, Lead.fill], hrun⟩

theorem runs_named {label equals : Span} {value : Phrase} (hv : value.Runs) :
    (named label equals value).Runs := by
  intro enclosure mark items frames openings rest ha
  cases enclosure with
  | call target =>
    obtain ⟨edge, last, hu, hrun⟩ := hv []
      ((⟨.call target, mark, items, .named label equals⟩, frames) :: openings) rest (by simp)
    rw [List.append_nil] at hrun
    exact ⟨.named label equals, edge, last, by rw [hu.closeAll, Lead.fill], hrun⟩
  | display bracket => cases bracket <;> cases ha
  | subscript target => cases ha

theorem runs_keyed {key value : Phrase} {colon : Span} (hk : key.Runs) (hv : value.Runs) :
    (keyed key colon value).Runs := by
  intro enclosure mark items frames openings rest ha
  cases enclosure with
  | display bracket =>
    cases bracket with
    | curly =>
      obtain ⟨edge, last, hu, hrun⟩ := hk []
        ((⟨.display .curly, mark, items, .none⟩, frames) :: openings)
        (⟨.colon, colon⟩ :: (value.tokens ++ rest)) (by simp)
      obtain ⟨edge', last', hu', hrun'⟩ := hv []
        ((⟨.display .curly, mark, items, .keyed key colon⟩, frames) :: openings) rest (by simp)
      rw [List.append_nil] at hrun hrun'
      refine ⟨.keyed key colon, edge', last', by rw [hu'.closeAll, Lead.fill], ?_⟩
      rw [tokens, List.append_assoc, List.cons_append, hrun, ← hrun', ← hu.closeAll]
      rfl
    | _ => cases ha
  | _ => cases ha

end Item

namespace Items

theorem runs_nil : nil.Runs := by
  intro enclosure mark items frames openings closing rest _ hs
  have hcan : Opening.canClose ⟨enclosure, mark, items, .none⟩ := by
    cases enclosure with
    | subscript target =>
      have := hs target rfl
      simpa [Opening.canClose, isEmpty] using this
    | _ => rfl
  have hstep : State.step ⟨.operand, [], (⟨enclosure, mark, items, .none⟩, frames) :: openings⟩
      ⟨.closing enclosure.bracket, closing⟩ =
      some ⟨.continuation (Opening.fill ⟨enclosure, mark, items, .none⟩ .nil closing), frames,
        openings⟩ := by
    simp [State.step, State.stepOperand, State.leaveEmpty?, hcan]
  exact State.run_cons hstep rest

theorem runs_last {item : Item} (hi : item.Runs) : (last item).Runs := by
  intro enclosure mark items frames openings closing rest ha _
  obtain ⟨lead, edge, operand, rfl, hrun⟩ := hi enclosure mark items frames openings
    (⟨.closing enclosure.bracket, closing⟩ :: rest) ha
  have hstep : State.step
      ⟨.continuation operand, edge, (⟨enclosure, mark, items, lead⟩, frames) :: openings⟩
      ⟨.closing enclosure.bracket, closing⟩ =
      some ⟨.continuation (Opening.fill ⟨enclosure, mark, items, .none⟩
        (.last (lead.fill (Frame.closeAll edge operand))) closing), frames, openings⟩ := by
    simp [State.step, State.stepContinuation, State.leave?, Opening.fill]
  rw [tokens, hrun, State.run_cons hstep]

theorem runs_cons {item : Item} {comma : Span} {others : Items} (hi : item.Runs)
    (ho : others.Runs) : (cons item comma others).Runs := by
  intro enclosure mark items frames openings closing rest ha _
  rw [all, Bool.and_eq_true] at ha
  obtain ⟨lead, edge, operand, rfl, hrun⟩ := hi enclosure mark items frames openings
    (⟨.comma, comma⟩ :: (others.tokens ++ ⟨.closing enclosure.bracket, closing⟩ :: rest)) ha.1
  have hrun' := ho enclosure mark ((lead.fill (Frame.closeAll edge operand), comma) :: items) frames
    openings closing rest ha.2 fun _ _ => .inr rfl
  rw [tokens, List.append_assoc, List.cons_append, hrun]
  exact hrun'

end Items

/-- A display that is no group is made of what stands between its brackets. -/
theorem Opening.fill_display {bracket : Bracket} {mark closing : Span} {items : Items}
    (h : ¬(bracket = .round ∧ items.isSingle)) :
    fill ⟨.display bracket, mark, [], .none⟩ items closing =
      .display bracket mark items closing := by
  unfold fill
  split
  · rename_i inner he hg
    cases he
    have hi : items = .last (.plain inner) := hg
    subst hi
    exact absurd ⟨rfl, rfl⟩ h
  · rename_i he _
    cases he
    rfl
  · rename_i he
    cases he
  · rename_i he
    cases he

theorem Phrase.runs_display {bracket : Bracket} {opening closing : Span} {items : Items}
    (hi : items.Runs) (ha : items.all bracket.admits)
    (hs : ¬(bracket = .round ∧ items.isSingle)) :
    (display bracket opening items closing).Runs := by
  intro frames openings rest _
  have hrun := hi (.display bracket) opening [] frames openings closing rest ha (by simp)
  rw [Opening.fill_display hs] at hrun
  refine ⟨[], _, .refl _, ?_⟩
  rw [tokens, List.cons_append, List.append_assoc, List.singleton_append]
  exact hrun

/-! ## Trailers -/

namespace Trailer

theorem runs_call {opening closing : Span} {arguments : Items} (ha : arguments.Runs)
    (hk : arguments.all (!·.isKeyed)) : (call opening arguments closing).Runs := by
  intro target frames openings rest
  have hrun := ha (.call target) opening [] frames openings closing rest hk (by simp)
  rw [tokens, List.cons_append, List.append_assoc, List.singleton_append]
  exact hrun

theorem runs_subscript {opening closing : Span} {indices : Items} (hi : indices.Runs)
    (hp : indices.all (·.isPlain)) (he : indices.isEmpty = false) :
    (subscript opening indices closing).Runs := by
  intro target frames openings rest
  have hrun := hi (.subscript target) opening [] frames openings closing rest hp fun _ _ => .inl he
  rw [tokens, List.cons_append, List.append_assoc, List.singleton_append]
  exact hrun

end Trailer

theorem Phrase.runs_trailed {target : Phrase} {trailer : Trailer} (ht : target.Runs)
    (hc : 9 ≤ target.strength) (hr : trailer.Runs) : (trailed target trailer).Runs := by
  intro frames openings rest _
  obtain ⟨edge, operand, hu, hrun⟩ := ht frames openings (trailer.tokens ++ rest)
    (State.least_le_of_complete frames hc)
  obtain ⟨rfl, rfl⟩ := hu.eq_of_complete hc
  refine ⟨[], _, .refl _, ?_⟩
  rw [tokens, List.append_assoc, hrun]
  exact hr operand frames openings rest

/-! ## All phrases -/

mutual

/-- Every well-formed phrase is read in the middle of a run. -/
theorem Phrase.run_tokens : (phrase : Phrase) → phrase.WellFormed → phrase.Runs
  | .literal _ _, _ => fun _ _ _ _ => ⟨[], _, .refl _, rfl⟩
  | .name _, _ => fun _ _ _ _ => ⟨[], _, .refl _, rfl⟩
  | .prefixed _ _ operand, h => Phrase.runs_prefixed (operand.run_tokens h.1) h.2
  | .joined left _ _ right, h =>
    Phrase.runs_joined (left.run_tokens h.1.1) (right.run_tokens h.2.1) h.1.2 h.2.2
  | .group _ inner _, h => Phrase.runs_group (inner.run_tokens h)
  | .display _ _ items _, h => Phrase.runs_display (items.run_tokens h.1) h.2.1 h.2.2
  | .trailed target trailer, h =>
    Phrase.runs_trailed (target.run_tokens h.1.1) h.1.2 (trailer.run_tokens h.2)

theorem Trailer.run_tokens : (trailer : Trailer) → trailer.WellFormed → trailer.Runs
  | .attribute _ _, _ => fun _ _ _ _ => rfl
  | .call _ arguments _, h => Trailer.runs_call (arguments.run_tokens h.1) h.2
  | .subscript _ indices _, h => Trailer.runs_subscript (indices.run_tokens h.1) h.2.1 h.2.2

theorem Item.run_tokens : (item : Item) → item.WellFormed → item.Runs
  | .plain value, h => Item.runs_plain (value.run_tokens h)
  | .named _ _ value, h => Item.runs_named (value.run_tokens h)
  | .keyed key _ value, h => Item.runs_keyed (key.run_tokens h.1) (value.run_tokens h.2)

theorem Items.run_tokens : (items : Items) → items.WellFormed → items.Runs
  | .nil, _ => Items.runs_nil
  | .last item, h => Items.runs_last (item.run_tokens h)
  | .cons item _ rest, h => Items.runs_cons (item.run_tokens h.1) (rest.run_tokens h.2)

end

/-- A well-formed phrase is read back from its tokens. -/
theorem Phrase.ofTokens_tokens {phrase : Phrase} (h : phrase.WellFormed) (stop : Nat) :
    Phrase.ofTokens phrase.tokens stop = .ok phrase := by
  obtain ⟨edge, operand, hu, hrun⟩ := phrase.run_tokens h [] [] [] (by simp)
  rw [List.append_nil, List.append_nil] at hrun
  have hfinal : State.initial.run phrase.tokens = .ok ⟨.continuation operand, edge, []⟩ := hrun
  unfold ofTokens
  rw [hfinal]
  simp [State.result?, hu.closeAll]

/-- The phrase that is read is the one well-formed phrase with these tokens. -/
theorem Phrase.ofTokens_eq_ok_iff {tokens : List Token} {stop : Nat} {phrase : Phrase} :
    Phrase.ofTokens tokens stop = .ok phrase ↔ phrase.WellFormed ∧ phrase.tokens = tokens := by
  constructor
  · intro h
    exact ⟨wellFormed_ofTokens h, tokens_ofTokens h⟩
  · rintro ⟨h, rfl⟩
    exact ofTokens_tokens h stop

end Calculator
