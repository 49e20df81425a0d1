import Calculator.Decimal
import Calculator.Operator
import Calculator.Text.Span

/-!
# Tokens

The words and marks that a text is made of, each with its place in the text.

* `Literal`: numbers, quoted texts and the three constants that are written as words.
* `Logical`, `Bracket`: connectives that compute nothing, and pairs of brackets.
* `Token.Kind`: what a token is; `Token.Kind.endsOperand` tells those after which an operand is
  complete.
* `Token`: a kind and a span.
-/

namespace Calculator

/-- A literal as it is written: integers without bound and floats as decimals. -/
inductive Literal where
  | integer (value : Nat)
  | float (value : Decimal)
  | text (content : String)
  | bool (value : Bool)
  | none
  deriving DecidableEq, Repr

/-- What joins operands without computing anything: the six comparisons, which are one kind, `and`
    and `or`. -/
inductive Logical where
  | comparison
  | and
  | or
  deriving DecidableEq, Repr

/-- The three pairs of brackets. -/
inductive Bracket where
  | round
  | square
  | curly
  deriving DecidableEq, Repr

/-- What a token is. `+` and `-` are one kind each, whether they stand before an operand or between
    two. -/
inductive Token.Kind where
  | literal (value : Literal)
  | name
  | operator (symbol : Operator)
  | logical (connective : Logical)
  | tilde
  | not
  | opening (bracket : Bracket)
  | closing (bracket : Bracket)
  | comma
  | colon
  | dot
  | equals
  /-- What no token starts with. -/
  | unknown
  deriving DecidableEq, Repr

/-- A word or mark in a text. -/
structure Token where
  kind : Token.Kind
  span : Span
  deriving DecidableEq, Repr

/-- The tokens that complete an operand. -/
def Token.Kind.endsOperand : Token.Kind → Bool
  | .literal _ | .name | .closing _ => true
  | _ => false

end Calculator
