import Calculator.Phrase
import Calculator.Rejection
import Calculator.Tree

/-!
# Trees of phrases

Literals, operators and groups become trees. Every other phrase is refused, from left to right, with
the text that it covers; what a refused phrase holds inside is not looked at, apart from the first
operand of a chain of comparisons, of `and` or of `or`.

* `Literal.toConstant`: the constant of a literal; integers that do not fit 64 bits overflow.
* `Phrase.displayRejection`: why a display is refused, which tells dicts from sets.
* `Phrase.trailedConstruct`: as what an operand with trailers is refused.
* `Tree.ofPhrase`: the tree of a phrase, or the first refusal.
-/

namespace Calculator

/-! ## Literals -/

/-- The constant that a literal stands for. -/
def Literal.toConstant : Literal → Except Rejection Constant
  | .integer n =>
    if Number.InRange n then .ok (.integer (.ofNat n)) else .error (.math .overflow)
  | .float d => .ok (.float d.toFloat)
  | .text content => .ok (.text content)
  | .bool value => .ok (.bool value)
  | .none => .ok .none

/-! ## Displays -/

/-- Whether an item has a key. -/
def Item.isKeyed : Item → Bool
  | .keyed _ _ _ => true
  | .plain _ | .named _ _ _ => false

/-- Whether all items have this property. -/
def Items.all (p : Item → Bool) : Items → Bool
  | .nil => true
  | .last item => p item
  | .cons item _ rest => p item && rest.all p

/-- The refusal of a part of a text as a construct. -/
def Span.unsupported (span : Span) (text : List Char) (construct : Construct) : Rejection :=
  .unsupported construct (.ofList (span.of text))

/-- The refusal of a display. Entries that all have keys make a dict, and so does no entry at all;
    entries without keys make a set, and the two cannot be mixed. -/
def Phrase.displayRejection (text : List Char) (bracket : Bracket) (items : Items) (span : Span) :
    Rejection :=
  match bracket with
  | .round => span.unsupported text .tuple
  | .square => span.unsupported text .list
  | .curly =>
    if items.all (·.isKeyed) then span.unsupported text .dict
    else if items.all (!·.isKeyed) then span.unsupported text .set
    else .malformed (Text.column text span.start) .mixedEntries

/-! ## Trailers and chains -/

/-- The construct that a trailer makes. -/
def Trailer.construct : Trailer → Construct
  | .attribute _ _ => .attribute
  | .call _ _ _ => .call
  | .subscript _ _ _ => .subscript

/-- The construct of the first of the trailers that end in `trailer`. -/
def Phrase.trailedConstruct : Phrase → Trailer → Construct
  | .trailed target first, _ => target.trailedConstruct first
  | _, trailer => trailer.construct

/-- The construct that a logical connective makes. -/
def Logical.construct : Logical → Construct
  | .comparison => .comparison
  | .and | .or => .connective

/-! ## Trees -/

namespace Tree

/-- The tree of a phrase that stands in `text`. A chain of comparisons, of `and` or of `or` is
    refused as a whole, but only after its first operand has been accepted; so where the phrase
    begins a longer chain of the connective `chain`, its first operand alone counts. -/
def ofChain (text : List Char) (chain : Option Logical) : Phrase → Except Rejection Tree
  | .literal value _ => value.toConstant.map .constant
  | .name span => .error (span.unsupported text .name)
  | .prefixed operator _ operand => (ofChain text none operand).map (.unary operator)
  | .joined left (.operator operator) _ right => do
    let a ← ofChain text none left
    let b ← ofChain text none right
    return .binary a operator b
  | .joined left (.logical connective) mark right => do
    let first ← ofChain text (some connective) left
    if chain = some connective then return first
    else throw ((Phrase.joined left (.logical connective) mark right).span.unsupported text
      connective.construct)
  | .group _ inner _ => ofChain text none inner
  | .display bracket opening items closing =>
    .error (Phrase.displayRejection text bracket items ⟨opening.start, closing.stop⟩)
  | .trailed target trailer =>
    .error ((Phrase.trailed target trailer).span.unsupported text
      (target.trailedConstruct trailer))

/-- The tree of a phrase that stands in `text`, or the first refusal. -/
def ofPhrase (text : List Char) (phrase : Phrase) : Except Rejection Tree :=
  ofChain text none phrase

end Tree

end Calculator
