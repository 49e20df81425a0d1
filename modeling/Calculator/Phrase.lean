import Calculator.Token

/-!
# Phrases

Everything that can be written as an expression, whether it is then accepted or refused. A phrase
holds each token that it is made of, so that its tokens can be listed again and its place in the
text is known.

* `Connector`: what joins two operands, and how strongly it binds.
* `Phrase`, `Trailer`, `Item`, `Items`: phrases, what can follow an operand to make another one, and
  what stands between brackets.
* `Phrase.span`: the part of the text that a phrase covers.
* `Phrase.tokens`: the tokens of a phrase, in order.
-/

namespace Calculator

/-! ## Binding strength -/

/-- What can stand between two operands. -/
inductive Connector where
  | operator (symbol : Operator)
  | logical (connective : Logical)
  deriving DecidableEq, Repr

/-- How strongly a binary operator binds. -/
def Operator.strength : Operator → Nat
  | .leftShift | .rightShift | .bitAnd | .bitOr | .bitXor => 4
  | .add | .subtract => 5
  | .multiply | .divide | .modulo | .floorDivide | .matrixMultiply => 6
  | .power => 8

/-- How strongly a unary operator binds: the signs more than all operators but `**`, and `not` less
    than a comparison. -/
def UnaryOperator.strength : UnaryOperator → Nat
  | .not => 2
  | .plus | .minus | .invert => 7

/-- How strongly a logical connective binds. -/
def Logical.strength : Logical → Nat
  | .or => 0
  | .and => 1
  | .comparison => 3

namespace Connector

/-- How strongly a connector binds. -/
def strength : Connector → Nat
  | .operator symbol => symbol.strength
  | .logical connective => connective.strength

/-- The least strength of what is closed off on its left before a connector takes its left operand.
    All but `**` gather operands from the left. -/
def closes : Connector → Nat
  | .operator .power => 9
  | connector => connector.strength

/-- The token of a connector. -/
def kind : Connector → Token.Kind
  | .operator symbol => .operator symbol
  | .logical connective => .logical connective

end Connector

/-- The token of a unary operator. -/
def UnaryOperator.kind : UnaryOperator → Token.Kind
  | .plus => .operator .add
  | .minus => .operator .subtract
  | .invert => .tilde
  | .not => .not

/-! ## Phrases -/

mutual

/-- An expression as it is written. Chains of equally strong connectors lean to the left. -/
inductive Phrase where
  | literal (value : Literal) (span : Span)
  | name (span : Span)
  | prefixed (operator : UnaryOperator) (mark : Span) (operand : Phrase)
  | joined (left : Phrase) (connector : Connector) (mark : Span) (right : Phrase)
  /-- One phrase in round brackets, without a comma. -/
  | group (opening : Span) (inner : Phrase) (closing : Span)
  /-- Anything else in brackets. -/
  | display (bracket : Bracket) (opening : Span) (items : Items) (closing : Span)
  | trailed (target : Phrase) (trailer : Trailer)

/-- What can follow an operand to make another one. -/
inductive Trailer where
  | attribute (dot : Span) (label : Span)
  | call (opening : Span) (arguments : Items) (closing : Span)
  | subscript (opening : Span) (indices : Items) (closing : Span)

/-- What can stand between two commas. -/
inductive Item where
  | plain (value : Phrase)
  /-- An argument with a name. -/
  | named (label : Span) (equals : Span) (value : Phrase)
  /-- An entry with a key. -/
  | keyed (key : Phrase) (colon : Span) (value : Phrase)

/-- What stands between brackets: items with commas between them and perhaps one at the end. -/
inductive Items where
  | nil
  | last (item : Item)
  | cons (item : Item) (comma : Span) (rest : Items)

end

/-! ## Places -/

/-- The point where a trailer ends. -/
def Trailer.stop : Trailer → Nat
  | .attribute _ label => label.stop
  | .call _ _ closing | .subscript _ _ closing => closing.stop

namespace Phrase

/-- The point where a phrase starts. -/
def start : Phrase → Nat
  | .literal _ span | .name span => span.start
  | .prefixed _ mark _ => mark.start
  | .joined left _ _ _ => left.start
  | .group opening _ _ | .display _ opening _ _ => opening.start
  | .trailed target _ => target.start

/-- The point where a phrase ends. -/
def stop : Phrase → Nat
  | .literal _ span | .name span => span.stop
  | .prefixed _ _ operand => operand.stop
  | .joined _ _ _ right => right.stop
  | .group _ _ closing | .display _ _ _ closing => closing.stop
  | .trailed _ trailer => trailer.stop

/-- The part of the text that a phrase covers. -/
def span (phrase : Phrase) : Span := ⟨phrase.start, phrase.stop⟩

end Phrase

/-! ## Tokens -/

mutual

/-- The tokens of a phrase, in order. -/
def Phrase.tokens : Phrase → List Token
  | .literal value span => [⟨.literal value, span⟩]
  | .name span => [⟨.name, span⟩]
  | .prefixed operator mark operand => ⟨operator.kind, mark⟩ :: operand.tokens
  | .joined left connector mark right => left.tokens ++ ⟨connector.kind, mark⟩ :: right.tokens
  | .group opening inner closing =>
    ⟨.opening .round, opening⟩ :: (inner.tokens ++ [⟨.closing .round, closing⟩])
  | .display bracket opening items closing =>
    ⟨.opening bracket, opening⟩ :: (items.tokens ++ [⟨.closing bracket, closing⟩])
  | .trailed target trailer => target.tokens ++ trailer.tokens

/-- The tokens of a trailer, in order. -/
def Trailer.tokens : Trailer → List Token
  | .attribute dot label => [⟨.dot, dot⟩, ⟨.name, label⟩]
  | .call opening arguments closing =>
    ⟨.opening .round, opening⟩ :: (arguments.tokens ++ [⟨.closing .round, closing⟩])
  | .subscript opening indices closing =>
    ⟨.opening .square, opening⟩ :: (indices.tokens ++ [⟨.closing .square, closing⟩])

/-- The tokens of an item, in order. -/
def Item.tokens : Item → List Token
  | .plain value => value.tokens
  | .named label equals value => ⟨.name, label⟩ :: ⟨.equals, equals⟩ :: value.tokens
  | .keyed key colon value => key.tokens ++ ⟨.colon, colon⟩ :: value.tokens

/-- The tokens of what stands between brackets, in order. -/
def Items.tokens : Items → List Token
  | .nil => []
  | .last item => item.tokens
  | .cons item comma rest => item.tokens ++ ⟨.comma, comma⟩ :: rest.tokens

end

end Calculator
