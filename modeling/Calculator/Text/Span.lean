/-!
# Spans

A text is a list of characters, a point of it the number of characters before, and a part of it a
span from one point to another.

* `Span.of`: the characters of a span.
* `Text.column`: the column of a point, counted from one.
-/

namespace Calculator

/-- The part of a text from the point `start` up to the point `stop`. -/
structure Span where
  start : Nat
  stop : Nat
  deriving DecidableEq, Repr

/-- The characters that a span covers in a text. -/
def Span.of (span : Span) (text : List Char) : List Char :=
  (text.drop span.start).take (span.stop - span.start)

/-- The column of a point: one more than the number of characters since the last line feed. -/
def Text.column (text : List Char) (point : Nat) : Nat :=
  ((text.take point).reverse.takeWhile (· != '\n')).length + 1

end Calculator
