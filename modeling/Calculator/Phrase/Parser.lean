import Calculator.Phrase
import Calculator.Rejection

/-!
# Reading phrases

A machine that takes one token after another. What has been read and waits for its right part is
kept on a stack: operators that wait for an operand, and brackets that wait to be closed, each with
the operators that wait outside of it. When a connector arrives, the waiting operators that bind at
least as strongly are closed off first.

* `Frame`, `Opening`, `State`: what waits, and where the machine stands.
* `State.step`: what a token does; none if the token cannot stand where it is.
* `State.expectation`: what can stand there.
* `Phrase.ofTokens`: the phrase that tokens make up, or the first point where they do not.
-/

namespace Calculator

/-! ## Operators that wait -/

/-- An operator that waits for the operand on its right. -/
inductive Frame where
  | prefixed (operator : UnaryOperator) (mark : Span)
  | joined (left : Phrase) (connector : Connector) (mark : Span)

namespace Frame

/-- How strongly the operator binds. -/
def strength : Frame → Nat
  | .prefixed operator _ => operator.strength
  | .joined _ connector _ => connector.strength

/-- The phrase that is complete with its right operand. -/
def fill (operand : Phrase) : Frame → Phrase
  | .prefixed operator mark => .prefixed operator mark operand
  | .joined left connector mark => .joined left connector mark operand

/-- Closes off the last frames, as long as they bind at least with this strength. -/
def close (strength : Nat) : List Frame → Phrase → List Frame × Phrase
  | [], operand => ([], operand)
  | frame :: frames, operand =>
    if strength ≤ frame.strength then close strength frames (frame.fill operand)
    else (frame :: frames, operand)

/-- Closes off all frames. -/
def closeAll (frames : List Frame) (operand : Phrase) : Phrase := frames.foldl fill operand

end Frame

/-! ## Brackets that wait -/

/-- What an open bracket will make of its contents. -/
inductive Enclosure where
  | display (bracket : Bracket)
  | call (target : Phrase)
  | subscript (target : Phrase)

/-- The pair of brackets. -/
def Enclosure.bracket : Enclosure → Bracket
  | .display bracket => bracket
  | .call _ => .round
  | .subscript _ => .square

/-- The part of an item that comes before its value. -/
inductive Lead where
  | none
  | named (label : Span) (equals : Span)
  | keyed (key : Phrase) (colon : Span)

/-- The item that is complete with its value. -/
def Lead.fill (value : Phrase) : Lead → Item
  | .none => .plain value
  | .named label equals => .named label equals value
  | .keyed key colon => .keyed key colon value

/-- A bracket that waits to be closed: the items before the last comma, the last one first, and the
    beginning of the current one. -/
structure Opening where
  enclosure : Enclosure
  mark : Span
  items : List (Item × Span)
  lead : Lead

namespace Opening

/-- A bracket that has just been opened. -/
def start (enclosure : Enclosure) (mark : Span) : Opening := ⟨enclosure, mark, [], .none⟩

/-- Ends the current item at a comma. -/
def separate (opening : Opening) (value : Phrase) (comma : Span) : Opening :=
  { opening with items := (opening.lead.fill value, comma) :: opening.items, lead := .none }

/-- Gives the current item a key, where it can have one. -/
def addKey? (opening : Opening) (key : Phrase) (colon : Span) : Option Opening :=
  match opening.enclosure, opening.lead with
  | .display .curly, .none => some { opening with lead := .keyed key colon }
  | _, _ => none

/-- Gives the current item a name, where it can have one. -/
def addName? (opening : Opening) (label : Span) (equals : Span) : Option Opening :=
  match opening.enclosure, opening.lead with
  | .call _, .none => some { opening with lead := .named label equals }
  | _, _ => none

/-- The items before the last comma, in front of what comes after it. -/
def gather (last : Items) (items : List (Item × Span)) : Items :=
  items.foldl (fun rest (item, comma) => .cons item comma rest) last

/-- The phrase that is complete with the closing bracket. One plain item without a comma in round
    brackets is a group. -/
def fill (opening : Opening) (last : Items) (closing : Span) : Phrase :=
  match opening.enclosure, gather last opening.items with
  | .display .round, .last (.plain inner) => .group opening.mark inner closing
  | .display bracket, items => .display bracket opening.mark items closing
  | .call target, items => .trailed target (.call opening.mark items closing)
  | .subscript target, items => .trailed target (.subscript opening.mark items closing)

/-- Whether the bracket can be closed where an operand could stand: at the beginning, unless it
    needs an item, and after a comma. -/
def canClose (opening : Opening) : Bool :=
  match opening.lead, opening.enclosure with
  | .none, .subscript _ => !opening.items.isEmpty
  | .none, _ => true
  | _, _ => false

/-- The place directly inside the bracket. -/
def place (opening : Opening) : Place :=
  match opening.enclosure, opening.lead with
  | .display .round, _ => .group
  | .display .curly, .keyed _ _ => .entryValue
  | .display .curly, _ => .entry
  | _, _ => .listing

end Opening

/-! ## The machine -/

/-- What comes next. -/
inductive Mode where
  /-- An operand, or its beginning. -/
  | operand
  /-- The name of an attribute. -/
  | label (target : Phrase) (dot : Span)
  /-- Whatever follows this complete operand. -/
  | continuation (operand : Phrase)

/-- The state of the machine: the operators that wait inside the innermost open bracket, the last
    one first, and the open brackets, the innermost one first, each with the operators that wait
    outside of it. -/
structure State where
  mode : Mode
  frames : List Frame
  openings : List (Opening × List Frame)

namespace State

/-- The state before the first token. -/
def initial : State := ⟨.operand, [], []⟩

/-- After a complete operand. -/
def operandRead (state : State) (operand : Phrase) : State :=
  { state with mode := .continuation operand }

/-- Lets an operator wait for its operand. -/
def prepend (state : State) (operator : UnaryOperator) (mark : Span) : State :=
  { state with mode := .operand, frames := .prefixed operator mark :: state.frames }

/-- Lets a connector wait for its right operand. -/
def connect (state : State) (operand : Phrase) (connector : Connector) (mark : Span) : State :=
  let (frames, left) := Frame.close connector.closes state.frames operand
  { state with mode := .operand, frames := .joined left connector mark :: frames }

/-- Opens a bracket. -/
def enter (state : State) (enclosure : Enclosure) (mark : Span) : State :=
  ⟨.operand, [], (.start enclosure mark, state.frames) :: state.openings⟩

/-- Closes a bracket after a complete operand. -/
def leave? (state : State) (operand : Phrase) (bracket : Bracket) (closing : Span) :
    Option State :=
  match state.openings with
  | [] => none
  | (opening, frames) :: openings =>
    if opening.enclosure.bracket = bracket then
      let item := opening.lead.fill (Frame.closeAll state.frames operand)
      some ⟨.continuation (opening.fill (.last item) closing), frames, openings⟩
    else none

/-- Closes a bracket where an operand could stand. -/
def leaveEmpty? (state : State) (bracket : Bracket) (closing : Span) : Option State :=
  match state.frames, state.openings with
  | [], (opening, frames) :: openings =>
    if opening.enclosure.bracket = bracket ∧ opening.canClose then
      some ⟨.continuation (opening.fill .nil closing), frames, openings⟩
    else none
  | _, _ => none

/-- Ends an item at a comma. -/
def separate? (state : State) (operand : Phrase) (comma : Span) : Option State :=
  match state.openings with
  | [] => none
  | (opening, frames) :: openings =>
    let opening := opening.separate (Frame.closeAll state.frames operand) comma
    some ⟨.operand, [], (opening, frames) :: openings⟩

/-- Ends the key of an entry at a colon. -/
def addKey? (state : State) (operand : Phrase) (colon : Span) : Option State :=
  match state.openings with
  | [] => none
  | (opening, frames) :: openings =>
    (opening.addKey? (Frame.closeAll state.frames operand) colon).map fun opening =>
      ⟨.operand, [], (opening, frames) :: openings⟩

/-- Ends the name of an argument at an equals sign. -/
def addName? (state : State) (operand : Phrase) (equals : Span) : Option State :=
  match operand, state.frames, state.openings with
  | .name label, [], (opening, frames) :: openings =>
    (opening.addName? label equals).map fun opening =>
      ⟨.operand, [], (opening, frames) :: openings⟩
  | _, _, _ => none

/-- Whether `not` can stand before an operand: not where the operand belongs to something that binds
    more strongly. -/
def admitsNot (state : State) : Bool :=
  match state.frames with
  | [] => true
  | frame :: _ => frame.strength ≤ UnaryOperator.not.strength

/-- What a token does where an operand could stand. -/
def stepOperand (state : State) (token : Token) : Option State :=
  match token.kind with
  | .literal value => some (state.operandRead (.literal value token.span))
  | .name => some (state.operandRead (.name token.span))
  | .operator .add => some (state.prepend .plus token.span)
  | .operator .subtract => some (state.prepend .minus token.span)
  | .tilde => some (state.prepend .invert token.span)
  | .not => if state.admitsNot then some (state.prepend .not token.span) else none
  | .opening bracket => some (state.enter (.display bracket) token.span)
  | .closing bracket => state.leaveEmpty? bracket token.span
  | _ => none

/-- What a token does after a complete operand. -/
def stepContinuation (state : State) (operand : Phrase) (token : Token) : Option State :=
  match token.kind with
  | .operator symbol => some (state.connect operand (.operator symbol) token.span)
  | .logical connective => some (state.connect operand (.logical connective) token.span)
  | .dot => some { state with mode := .label operand token.span }
  | .opening .round => some (state.enter (.call operand) token.span)
  | .opening .square => some (state.enter (.subscript operand) token.span)
  | .closing bracket => state.leave? operand bracket token.span
  | .comma => state.separate? operand token.span
  | .colon => state.addKey? operand token.span
  | .equals => state.addName? operand token.span
  | _ => none

/-- What a token does; none if it cannot stand where it is. -/
def step (state : State) (token : Token) : Option State :=
  match state.mode with
  | .operand => state.stepOperand token
  | .label target dot =>
    if token.kind = .name then
      some (state.operandRead (.trailed target (.attribute dot token.span)))
    else none
  | .continuation operand => state.stepContinuation operand token

/-- Whether the name of an argument could stand where an operand could. -/
def admitsArgumentName (state : State) : Bool :=
  match state.frames, state.openings with
  | [], (⟨.call _, _, _, .none⟩, _) :: _ => true
  | _, _ => false

/-- The place of the operand that is being read. -/
def place (state : State) : Place :=
  match state.openings with
  | [] => .outermost
  | (opening, _) :: _ => opening.place

/-- What can stand next. -/
def expectation (state : State) : Expectation :=
  match state.mode with
  | .operand => if state.admitsArgumentName then .expressionOrName else .expression
  | .label _ _ => .name
  | .continuation _ => .continuation state.place

/-- The phrase that is complete if no token follows. -/
def result? (state : State) : Option Phrase :=
  match state.mode, state.openings with
  | .continuation operand, [] => some (Frame.closeAll state.frames operand)
  | _, _ => none

/-- The state after some tokens, or the first of them that cannot stand where it is, with what could
    have stood there. -/
def run (state : State) : List Token → Except (Expectation × Token) State
  | [] => .ok state
  | token :: tokens =>
    match state.step token with
    | some next => next.run tokens
    | none => .error (state.expectation, token)

end State

/-! ## Whole texts -/

/-- A point where a text is no expression, with what could have stood there. -/
structure Misfit where
  point : Nat
  expectation : Expectation
  deriving DecidableEq, Repr

/-- The phrase that tokens make up in a text which ends at `stop`, or the first point where nothing
    that was read before can be continued. -/
def Phrase.ofTokens (tokens : List Token) (stop : Nat) : Except Misfit Phrase :=
  match State.initial.run tokens with
  | .error (expectation, token) => .error ⟨token.span.start, expectation⟩
  | .ok state =>
    match state.result? with
    | some phrase => .ok phrase
    | none => .error ⟨stop, state.expectation⟩

end Calculator
