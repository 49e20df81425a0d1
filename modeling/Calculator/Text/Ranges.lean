/-!
# Ranges of characters

Classes of characters that are given by ranges of code points.

* `Text.Ranges`: a class as a list of first and last code points.
* `Text.Ranges.contains`: the characters of a class.
-/

namespace Calculator.Text

/-- First and last code points of ranges. -/
abbrev Ranges : Type := List (Nat × Nat)

/-- Whether a character lies in one of the ranges. -/
def Ranges.contains (ranges : Ranges) (c : Char) : Bool :=
  ranges.any fun range => range.1 ≤ c.toNat && c.toNat ≤ range.2

end Calculator.Text
