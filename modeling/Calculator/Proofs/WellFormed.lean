import Calculator.Phrase.Lossless
import Calculator.Tree.OfPhrase

/-!
# Phrases are read as their operators bind

A phrase is well formed if each operand binds at least as strongly as the operator beside it asks
for, and if brackets hold only what they may. The reading machine keeps to this in every state, so
that whatever it returns is well formed.

* `Phrase.strength`, `Connector.rightLeast`: how strongly a phrase holds together, and how strongly
  the right operand of a connector has to.
* `Phrase.WellFormed`, `State.WellFormed`: the invariant.

Results:
* `State.wellFormed_step`, `State.wellFormed_run`: steps and runs keep the invariant.
* `Phrase.wellFormed_ofTokens`: what is read is well formed.
-/

namespace Calculator

/-! ## Strength -/

/-- The least strength of a right operand. Only `**` takes a right operand that binds less strongly
    than itself, a sign. -/
def Connector.rightLeast : Connector → Nat
  | .operator .power => 7
  | connector => connector.strength + 1

/-- How strongly a phrase holds together: an operation as its operator does, and everything else
    more strongly than all operators. -/
def Phrase.strength : Phrase → Nat
  | .prefixed operator _ _ => operator.strength
  | .joined _ connector _ _ => connector.strength
  | _ => 9

theorem UnaryOperator.strength_le (operator : UnaryOperator) : operator.strength ≤ 7 := by
  cases operator <;> simp [strength]

namespace Connector

theorem strength_le (connector : Connector) : connector.strength ≤ 8 := by
  rcases connector with symbol | connective
  · cases symbol <;> simp [strength, Operator.strength]
  · cases connective <;> simp [strength, Logical.strength]

theorem closes_le (connector : Connector) : connector.closes ≤ 9 := by
  rcases connector with symbol | connective
  · cases symbol <;> simp [closes, strength, Operator.strength]
  · cases connective <;> simp [closes, strength, Logical.strength]

theorem strength_le_closes (connector : Connector) : connector.strength ≤ connector.closes := by
  rcases connector with symbol | connective
  · cases symbol <;> simp [closes, strength, Operator.strength]
  · exact Nat.le_refl _

/-- Apart from `**`, a connector closes exactly what binds at least as strongly, and asks for more
    on its right. -/
theorem cases_power (connector : Connector) :
    connector.strength = 8 ∧ connector.closes = 9 ∧ connector.rightLeast = 7 ∨
      connector.strength ≤ 6 ∧ connector.closes = connector.strength ∧
        connector.rightLeast = connector.strength + 1 := by
  rcases connector with symbol | connective
  · cases symbol <;> simp [strength, closes, rightLeast, Operator.strength]
  · cases connective <;> simp [strength, closes, rightLeast, Logical.strength]

/-- Between `and` and the comparisons there is only `not`. -/
theorem strength_ne_two (connector : Connector) : connector.strength ≠ 2 := by
  rcases connector with symbol | connective
  · cases symbol <;> simp [strength, Operator.strength]
  · cases connective <;> simp [strength, Logical.strength]

end Connector

/-! ## What brackets may hold -/

/-- An item without a name or a key. -/
def Item.isPlain : Item → Bool
  | .plain _ => true
  | .named _ _ _ | .keyed _ _ _ => false

/-- An argument with a name. -/
def Item.isNamed : Item → Bool
  | .named _ _ _ => true
  | .plain _ | .keyed _ _ _ => false

/-- Nothing between the brackets. -/
def Items.isEmpty : Items → Bool
  | .nil => true
  | .last _ | .cons _ _ _ => false

/-- One plain item without a comma, which makes a group of round brackets. -/
def Items.isSingle : Items → Bool
  | .last (.plain _) => true
  | _ => false

/-- The items that a display may hold: keys stand in curly brackets only, and names in none. -/
def Bracket.admits : Bracket → Item → Bool
  | .curly, item => !item.isNamed
  | .round, item | .square, item => item.isPlain

/-- The items that a bracket may hold: names stand in calls only. -/
def Enclosure.admits : Enclosure → Item → Bool
  | .display bracket, item => bracket.admits item
  | .call _, item => !item.isKeyed
  | .subscript _, item => item.isPlain

/-! ## Well-formed phrases -/

mutual

/-- Every operand binds as strongly as the operator beside it asks for, and every bracket holds only
    what it may. -/
def Phrase.WellFormed : Phrase → Prop
  | .literal _ _ | .name _ => True
  | .prefixed operator _ operand => operand.WellFormed ∧ operator.strength ≤ operand.strength
  | .joined left connector _ right =>
    (left.WellFormed ∧ connector.closes ≤ left.strength) ∧
      right.WellFormed ∧ connector.rightLeast ≤ right.strength
  | .group _ inner _ => inner.WellFormed
  | .display bracket _ items _ =>
    items.WellFormed ∧ items.all bracket.admits ∧ ¬(bracket = .round ∧ items.isSingle)
  | .trailed target trailer => (target.WellFormed ∧ 9 ≤ target.strength) ∧ trailer.WellFormed

/-- Calls hold no keys, and subscripts hold something but neither keys nor names. -/
def Trailer.WellFormed : Trailer → Prop
  | .attribute _ _ => True
  | .call _ arguments _ => arguments.WellFormed ∧ arguments.all (!·.isKeyed)
  | .subscript _ indices _ =>
    indices.WellFormed ∧ indices.all (·.isPlain) ∧ indices.isEmpty = false

/-- The phrases of an item are well formed, that of its key as well. -/
def Item.WellFormed : Item → Prop
  | .plain value => value.WellFormed
  | .named _ _ value => value.WellFormed
  | .keyed key _ value => key.WellFormed ∧ value.WellFormed

/-- All items are well formed. -/
def Items.WellFormed : Items → Prop
  | .nil => True
  | .last item => item.WellFormed
  | .cons item _ rest => item.WellFormed ∧ rest.WellFormed

end

/-! ## Operators that wait -/

namespace Frame

/-- The least strength of the operand that completes a frame. -/
def least : Frame → Nat
  | .prefixed operator _ => operator.strength
  | .joined _ connector _ => connector.rightLeast

/-- A left operand binds as strongly as its connector asks for. -/
def WellFormed : Frame → Prop
  | .prefixed _ _ => True
  | .joined left connector _ => left.WellFormed ∧ connector.closes ≤ left.strength

/-- Each frame can be completed by a phrase that holds together as strongly as the frame above it
    binds. -/
def Stacked : List Frame → Prop
  | [] => True
  | frame :: frames =>
    frame.WellFormed ∧ (∀ below ∈ frames.head?, below.least ≤ frame.strength) ∧ Stacked frames

theorem least_le (frame : Frame) : frame.least ≤ 7 := by
  cases frame with
  | prefixed operator mark => exact operator.strength_le
  | joined left connector mark =>
    have := connector.cases_power
    simp only [least]
    omega

theorem strength_fill (frame : Frame) (operand : Phrase) :
    (frame.fill operand).strength = frame.strength := by
  cases frame <;> rfl

theorem wellFormed_fill {frame : Frame} {operand : Phrase} (hf : frame.WellFormed)
    (ho : operand.WellFormed) (hs : frame.least ≤ operand.strength) :
    (frame.fill operand).WellFormed := by
  cases frame with
  | prefixed operator mark => exact ⟨ho, hs⟩
  | joined left connector mark => exact ⟨hf, ho, hs⟩

theorem wellFormed_closeAll {frames : List Frame} {operand : Phrase} (hf : Stacked frames)
    (ho : operand.WellFormed) (hs : ∀ frame ∈ frames.head?, frame.least ≤ operand.strength) :
    (closeAll frames operand).WellFormed := by
  induction frames generalizing operand with
  | nil => exact ho
  | cons frame frames ih =>
    obtain ⟨hframe, hbelow, hrest⟩ := hf
    have hfill : (frame.fill operand).WellFormed :=
      wellFormed_fill hframe ho (hs frame rfl)
    exact ih hrest hfill (by rw [strength_fill]; exact hbelow)

/-- What is left after closing off frames: a well-formed left operand that is strong enough, above
    frames that bind less strongly. -/
theorem wellFormed_close {least : Nat} {frames : List Frame} {operand : Phrase}
    (hf : Stacked frames) (ho : operand.WellFormed) (hl : least ≤ operand.strength)
    (hs : ∀ frame ∈ frames.head?, frame.least ≤ operand.strength) :
    Stacked (close least frames operand).1 ∧
      ((close least frames operand).2.WellFormed ∧
        least ≤ (close least frames operand).2.strength) ∧
      ∀ frame ∈ (close least frames operand).1.head?, frame.strength < least := by
  induction frames generalizing operand with
  | nil => exact ⟨trivial, ⟨ho, hl⟩, by simp [close]⟩
  | cons frame frames ih =>
    obtain ⟨hframe, hbelow, hrest⟩ := hf
    rw [close]
    split
    · rename_i h
      have hfill : (frame.fill operand).WellFormed :=
        wellFormed_fill hframe ho (hs frame rfl)
      exact ih hrest hfill (by rw [strength_fill]; exact h) (by rw [strength_fill]; exact hbelow)
    · rename_i h
      refine ⟨⟨hframe, hbelow, hrest⟩, ⟨ho, hl⟩, ?_⟩
      intro top htop
      cases htop
      omega

/-- What binds no more strongly than `not` can be completed by it. -/
theorem least_le_two {frame : Frame} (h : frame.strength ≤ 2) : frame.least ≤ 2 := by
  cases frame with
  | prefixed operator mark => exact h
  | joined left connector mark =>
    have := connector.cases_power
    have := connector.strength_ne_two
    simp only [strength, least] at h ⊢
    omega

/-- What a connector does not close off can be completed by what it makes. -/
theorem least_le_of_strength_lt {frame : Frame} {connector : Connector}
    (h : frame.strength < connector.closes) : frame.least ≤ connector.strength := by
  have hc := connector.cases_power
  cases frame with
  | prefixed operator mark =>
    have := operator.strength_le
    simp only [strength, least] at h ⊢
    omega
  | joined left inner mark =>
    have := inner.cases_power
    simp only [strength, least] at h ⊢
    omega

end Frame

/-! ## Brackets that wait -/

/-- The beginning of an item is one that the bracket may hold, and its key is well formed. -/
def Lead.WellFormed (enclosure : Enclosure) : Lead → Prop
  | .none => True
  | .named _ _ => ∃ target, enclosure = .call target
  | .keyed key _ => enclosure = .display .curly ∧ key.WellFormed

/-- The phrase in front of a bracket is a complete operand. -/
def Enclosure.WellFormed : Enclosure → Prop
  | .display _ => True
  | .call target | .subscript target => target.WellFormed ∧ 9 ≤ target.strength

namespace Opening

/-- All items so far are well formed and ones that the bracket may hold. -/
structure WellFormed (opening : Opening) : Prop where
  enclosure : opening.enclosure.WellFormed
  items : ∀ entry ∈ opening.items, entry.1.WellFormed ∧ opening.enclosure.admits entry.1
  lead : opening.lead.WellFormed opening.enclosure

theorem wellFormed_start {enclosure : Enclosure} {mark : Span} (h : enclosure.WellFormed) :
    (start enclosure mark).WellFormed :=
  ⟨h, by simp [start], trivial⟩

/-- The item that is complete with a well-formed value is one that the bracket may hold. -/
theorem wellFormed_leadFill {opening : Opening} {value : Phrase} (ho : opening.WellFormed)
    (hv : value.WellFormed) :
    (opening.lead.fill value).WellFormed ∧
      opening.enclosure.admits (opening.lead.fill value) := by
  have hlead := ho.lead
  cases hl : opening.lead with
  | none =>
    refine ⟨hv, ?_⟩
    cases opening.enclosure with
    | display bracket => cases bracket <;> rfl
    | _ => rfl
  | named label equals =>
    rw [hl] at hlead
    obtain ⟨target, he⟩ := hlead
    rw [he]
    exact ⟨hv, rfl⟩
  | keyed key colon =>
    rw [hl] at hlead
    obtain ⟨he, hk⟩ := hlead
    rw [he]
    exact ⟨⟨hk, hv⟩, rfl⟩

theorem wellFormed_separate {opening : Opening} {value : Phrase} {comma : Span}
    (ho : opening.WellFormed) (hv : value.WellFormed) :
    (opening.separate value comma).WellFormed := by
  refine ⟨ho.enclosure, ?_, trivial⟩
  intro entry he
  rcases List.mem_cons.1 he with rfl | he
  · exact wellFormed_leadFill ho hv
  · exact ho.items entry he

theorem wellFormed_addKey? {opening next : Opening} {key : Phrase} {colon : Span}
    (ho : opening.WellFormed) (hk : key.WellFormed) (h : opening.addKey? key colon = some next) :
    next.WellFormed := by
  unfold addKey? at h
  split at h
  · rename_i he _
    cases h
    exact ⟨ho.enclosure, ho.items, he, hk⟩
  · cases h

theorem wellFormed_addName? {opening next : Opening} {label equals : Span}
    (ho : opening.WellFormed) (h : opening.addName? label equals = some next) :
    next.WellFormed := by
  unfold addName? at h
  split at h
  · rename_i target he _
    cases h
    exact ⟨ho.enclosure, ho.items, target, he⟩
  · cases h

theorem wellFormed_gather {last : Items} {items : List (Item × Span)} (hl : last.WellFormed)
    (hi : ∀ entry ∈ items, entry.1.WellFormed) : (gather last items).WellFormed := by
  induction items generalizing last with
  | nil => exact hl
  | cons entry items ih =>
    rw [List.forall_mem_cons] at hi
    have hlast : (Items.cons entry.1 entry.2 last).WellFormed := ⟨hi.1, hl⟩
    exact ih hlast hi.2

theorem all_gather {p : Item → Bool} {last : Items} {items : List (Item × Span)}
    (hl : last.all p) (hi : ∀ entry ∈ items, p entry.1) : (gather last items).all p := by
  induction items generalizing last with
  | nil => exact hl
  | cons entry items ih =>
    rw [List.forall_mem_cons] at hi
    have hlast : (Items.cons entry.1 entry.2 last).all p := by simp [Items.all, hi.1, hl]
    exact ih hlast hi.2

theorem isEmpty_gather (last : Items) (items : List (Item × Span)) :
    (gather last items).isEmpty = (last.isEmpty && items.isEmpty) := by
  induction items generalizing last with
  | nil => simp [gather]
  | cons entry items ih =>
    have h := ih (.cons entry.1 entry.2 last)
    simp only [gather, List.foldl_cons] at h ⊢
    rw [h]
    simp [Items.isEmpty]

/-- Without a last item, a subscript is closed only after a comma. -/
theorem items_of_canClose {opening : Opening} {target : Phrase} (h : opening.canClose)
    (he : opening.enclosure = .subscript target) : opening.items.isEmpty = false := by
  unfold canClose at h
  rw [he] at h
  cases hl : opening.lead <;> simp_all

/-- With its last item and the closing bracket, a bracket makes a complete operand. -/
theorem wellFormed_fill {opening : Opening} (last : Items) (closing : Span)
    (ho : opening.WellFormed) (hl : last.WellFormed) (ha : last.all opening.enclosure.admits)
    (hs : ∀ target, opening.enclosure = .subscript target →
      last.isEmpty = false ∨ opening.items.isEmpty = false) :
    (opening.fill last closing).WellFormed ∧ 9 ≤ (opening.fill last closing).strength := by
  have hw : (gather last opening.items).WellFormed :=
    wellFormed_gather hl fun entry he => (ho.items entry he).1
  have hall : (gather last opening.items).all opening.enclosure.admits :=
    all_gather ha fun entry he => (ho.items entry he).2
  have hempty := isEmpty_gather last opening.items
  have henclosure := ho.enclosure
  unfold fill
  split
  · rename_i inner he hg
    rw [hg] at hw
    exact ⟨hw, Nat.le_refl 9⟩
  · rename_i bracket he hnot
    rw [he] at hall
    refine ⟨⟨hw, hall, ?_⟩, Nat.le_refl 9⟩
    rintro ⟨rfl, hsingle⟩
    cases hi : gather last opening.items with
    | last item =>
      cases item with
      | plain inner => exact hnot inner hi rfl
      | _ => rw [hi] at hsingle; cases hsingle
    | _ => rw [hi] at hsingle; cases hsingle
  · rename_i target he
    rw [he] at hall henclosure
    exact ⟨⟨henclosure, hw, hall⟩, Nat.le_refl 9⟩
  · rename_i target he
    rw [he] at hall henclosure
    refine ⟨⟨henclosure, hw, hall, ?_⟩, Nat.le_refl 9⟩
    rw [hempty]
    rcases hs target he with h | h <;> simp [h]

end Opening

/-! ## States -/

/-- What the machine has read so far is well formed. An operand that has just been completed is no
    operation, for those are kept apart as frames. -/
def Mode.WellFormed : Mode → Prop
  | .operand => True
  | .label target _ => target.WellFormed ∧ 9 ≤ target.strength
  | .continuation complete => complete.WellFormed ∧ 9 ≤ complete.strength

namespace State

/-- The invariant of the reading machine. -/
structure WellFormed (state : State) : Prop where
  mode : state.mode.WellFormed
  frames : Frame.Stacked state.frames
  openings : ∀ entry ∈ state.openings, entry.1.WellFormed ∧ Frame.Stacked entry.2

theorem wellFormed_initial : initial.WellFormed :=
  ⟨trivial, trivial, by simp [initial]⟩

variable {state next : State} {operand : Phrase}

theorem least_le_of_complete (frames : List Frame) (h : 9 ≤ operand.strength) :
    ∀ frame ∈ frames.head?, frame.least ≤ operand.strength := by
  intro frame _
  have := frame.least_le
  omega

theorem wellFormed_operandRead (hs : state.WellFormed) (ho : operand.WellFormed)
    (hc : 9 ≤ operand.strength) : (state.operandRead operand).WellFormed :=
  ⟨⟨ho, hc⟩, hs.frames, hs.openings⟩

theorem wellFormed_prepend {operator : UnaryOperator} {mark : Span} (hs : state.WellFormed)
    (h : operator = .not → state.admitsNot) : (state.prepend operator mark).WellFormed := by
  refine ⟨trivial, ⟨trivial, ?_, hs.frames⟩, hs.openings⟩
  intro below hbelow
  have hleast := below.least_le
  cases operator with
  | not =>
    -- `not` stands only above what binds no more strongly
    have hn := h rfl
    unfold admitsNot at hn
    split at hn
    · rename_i hf
      rw [hf] at hbelow
      cases hbelow
    · rename_i hf
      rw [hf] at hbelow
      cases hbelow
      exact Frame.least_le_two (of_decide_eq_true hn)
  | _ => exact hleast

theorem wellFormed_connect {connector : Connector} {mark : Span} (hs : state.WellFormed)
    (ho : operand.WellFormed) (hc : 9 ≤ operand.strength) :
    (state.connect operand connector mark).WellFormed := by
  have hl : connector.closes ≤ operand.strength := Nat.le_trans connector.closes_le hc
  obtain ⟨hstacked, hleft, hbelow⟩ :=
    Frame.wellFormed_close hs.frames ho hl (least_le_of_complete state.frames hc)
  refine ⟨trivial, ⟨hleft, ?_, hstacked⟩, hs.openings⟩
  intro below h
  exact Frame.least_le_of_strength_lt (hbelow below h)

theorem wellFormed_enter {enclosure : Enclosure} {mark : Span} (hs : state.WellFormed)
    (he : enclosure.WellFormed) : (state.enter enclosure mark).WellFormed := by
  refine ⟨trivial, trivial, ?_⟩
  intro entry h
  rcases List.mem_cons.1 h with rfl | h
  · exact ⟨Opening.wellFormed_start he, hs.frames⟩
  · exact hs.openings entry h

theorem wellFormed_leave? {bracket : Bracket} {closing : Span} (hs : state.WellFormed)
    (ho : operand.WellFormed) (hc : 9 ≤ operand.strength)
    (h : state.leave? operand bracket closing = some next) : next.WellFormed := by
  unfold leave? at h
  split at h
  · cases h
  · rename_i opening frames openings hopen
    split at h
    · cases h
      obtain ⟨hopening, houter⟩ := hs.openings (opening, frames) (by simp [hopen])
      have hvalue := Frame.wellFormed_closeAll hs.frames ho (least_le_of_complete _ hc)
      obtain ⟨hitem, hadmits⟩ := Opening.wellFormed_leadFill hopening hvalue
      have hfill := Opening.wellFormed_fill (.last _) closing hopening hitem hadmits
        fun _ _ => .inl rfl
      refine ⟨hfill, houter, ?_⟩
      intro entry he
      exact hs.openings entry (by simp [hopen, he])
    · cases h

theorem wellFormed_leaveEmpty? {bracket : Bracket} {closing : Span} (hs : state.WellFormed)
    (h : state.leaveEmpty? bracket closing = some next) : next.WellFormed := by
  unfold leaveEmpty? at h
  split at h
  · rename_i opening frames openings hf hopen
    split at h
    · rename_i hcan
      cases h
      obtain ⟨hopening, houter⟩ := hs.openings (opening, frames) (by simp [hopen])
      have hfill := Opening.wellFormed_fill .nil closing hopening trivial rfl
        fun target he => .inr (Opening.items_of_canClose hcan.2 he)
      refine ⟨hfill, houter, ?_⟩
      intro entry he
      exact hs.openings entry (by simp [hopen, he])
    · cases h
  · cases h

/-- What waits outside of the innermost bracket stays well formed when that bracket is replaced. -/
theorem wellFormed_reopen {opening changed : Opening} {frames : List Frame}
    {openings : List (Opening × List Frame)} (hs : state.WellFormed)
    (hopen : state.openings = (opening, frames) :: openings) (hc : changed.WellFormed) :
    (⟨.operand, [], (changed, frames) :: openings⟩ : State).WellFormed := by
  refine ⟨trivial, trivial, ?_⟩
  intro entry h
  rcases List.mem_cons.1 h with rfl | h
  · exact ⟨hc, (hs.openings (opening, frames) (by simp [hopen])).2⟩
  · exact hs.openings entry (by simp [hopen, h])

theorem wellFormed_separate? {comma : Span} (hs : state.WellFormed) (ho : operand.WellFormed)
    (hc : 9 ≤ operand.strength) (h : state.separate? operand comma = some next) :
    next.WellFormed := by
  unfold separate? at h
  split at h
  · cases h
  · rename_i opening frames openings hopen
    cases h
    have hopening := (hs.openings (opening, frames) (by simp [hopen])).1
    have hvalue := Frame.wellFormed_closeAll hs.frames ho (least_le_of_complete _ hc)
    exact wellFormed_reopen hs hopen (Opening.wellFormed_separate hopening hvalue)

theorem wellFormed_addKey? {colon : Span} (hs : state.WellFormed) (ho : operand.WellFormed)
    (hc : 9 ≤ operand.strength) (h : state.addKey? operand colon = some next) :
    next.WellFormed := by
  unfold addKey? at h
  split at h
  · cases h
  · rename_i opening frames openings hopen
    obtain ⟨keyed, hk, rfl⟩ := Option.map_eq_some_iff.1 h
    have hopening := (hs.openings (opening, frames) (by simp [hopen])).1
    have hvalue := Frame.wellFormed_closeAll hs.frames ho (least_le_of_complete _ hc)
    exact wellFormed_reopen hs hopen (Opening.wellFormed_addKey? hopening hvalue hk)

theorem wellFormed_addName? {equals : Span} (hs : state.WellFormed)
    (h : state.addName? operand equals = some next) : next.WellFormed := by
  unfold addName? at h
  split at h
  · rename_i label opening frames openings _ hopen
    obtain ⟨named, hn, rfl⟩ := Option.map_eq_some_iff.1 h
    have hopening := (hs.openings (opening, frames) (by simp [hopen])).1
    exact wellFormed_reopen hs hopen (Opening.wellFormed_addName? hopening hn)
  · cases h

theorem wellFormed_stepOperand {token : Token} (hs : state.WellFormed)
    (h : state.stepOperand token = some next) : next.WellFormed := by
  unfold stepOperand at h
  split at h
  · cases h; exact wellFormed_operandRead hs trivial (Nat.le_refl 9)
  · cases h; exact wellFormed_operandRead hs trivial (Nat.le_refl 9)
  · cases h; exact wellFormed_prepend hs (by simp)
  · cases h; exact wellFormed_prepend hs (by simp)
  · cases h; exact wellFormed_prepend hs (by simp)
  · split at h
    · rename_i hn
      cases h
      exact wellFormed_prepend hs fun _ => hn
    · cases h
  · cases h; exact wellFormed_enter hs trivial
  · exact wellFormed_leaveEmpty? hs h
  · cases h

theorem wellFormed_stepContinuation {token : Token} (hs : state.WellFormed)
    (ho : operand.WellFormed) (hc : 9 ≤ operand.strength)
    (h : state.stepContinuation operand token = some next) : next.WellFormed := by
  unfold stepContinuation at h
  split at h
  · cases h; exact wellFormed_connect hs ho hc
  · cases h; exact wellFormed_connect hs ho hc
  · cases h; exact ⟨⟨ho, hc⟩, hs.frames, hs.openings⟩
  · cases h; exact wellFormed_enter hs ⟨ho, hc⟩
  · cases h; exact wellFormed_enter hs ⟨ho, hc⟩
  · exact wellFormed_leave? hs ho hc h
  · exact wellFormed_separate? hs ho hc h
  · exact wellFormed_addKey? hs ho hc h
  · exact wellFormed_addName? hs h
  · cases h

/-- A step keeps the invariant. -/
theorem wellFormed_step {token : Token} (hs : state.WellFormed)
    (h : state.step token = some next) : next.WellFormed := by
  have hmode := hs.mode
  unfold step at h
  split at h
  · exact wellFormed_stepOperand hs h
  · rename_i target dot hm
    rw [hm] at hmode
    split at h
    · cases h
      have htrailed : (Phrase.trailed target (.attribute dot token.span)).WellFormed :=
        ⟨hmode, trivial⟩
      exact wellFormed_operandRead hs htrailed (Nat.le_refl 9)
    · cases h
  · rename_i operand hm
    rw [hm] at hmode
    exact wellFormed_stepContinuation hs hmode.1 hmode.2 h

/-- A run keeps the invariant. -/
theorem wellFormed_run {tokens : List Token} (hs : state.WellFormed)
    (h : state.run tokens = .ok next) : next.WellFormed := by
  induction tokens generalizing state with
  | nil =>
    cases h
    exact hs
  | cons token tokens ih =>
    rw [run] at h
    split at h
    · rename_i middle hm
      exact ih (wellFormed_step hs hm) h
    · cases h

theorem wellFormed_result? {phrase : Phrase} (hs : state.WellFormed)
    (h : state.result? = some phrase) : phrase.WellFormed := by
  have hmode := hs.mode
  unfold result? at h
  split at h
  · rename_i operand hm _
    cases h
    rw [hm] at hmode
    exact Frame.wellFormed_closeAll hs.frames hmode.1 (least_le_of_complete _ hmode.2)
  · cases h

end State

/-- What is read is well formed. -/
theorem Phrase.wellFormed_ofTokens {tokens : List Token} {stop : Nat} {phrase : Phrase}
    (h : Phrase.ofTokens tokens stop = .ok phrase) : phrase.WellFormed := by
  unfold ofTokens at h
  split at h
  · cases h
  · rename_i state hrun
    split at h
    · rename_i found hf
      cases h
      exact State.wellFormed_result? (State.wellFormed_run State.wellFormed_initial hrun) hf
    · cases h

end Calculator
