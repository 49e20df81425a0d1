import Calculator.Nesting
import Calculator.Phrase.Parser
import Calculator.Token.Lexer
import Calculator.Tree.Evaluation
import Calculator.Tree.OfPhrase

/-!
# Evaluating texts

A text is refused if it is too long, then if it nests too deeply, then if it is no expression, then
if it holds what is not allowed; what remains is computed.

* `Limits`: the greatest length and depth.
* `Phrase.ofText`: the phrase that a text is.
* `parse`: the tree of a text.
* `evaluate`: its value.
-/

namespace Calculator

/-- The greatest length, in characters, and the greatest nesting of a text that is parsed. -/
structure Limits where
  maxLength : Nat := 1000
  maxDepth : Nat := 200
  deriving DecidableEq, Repr

/-- The phrase that a text is, or the first point where it is none. -/
def Phrase.ofText (text : List Char) : Except Misfit Phrase :=
  Phrase.ofTokens (Token.ofText text) text.length

/-- The tree of a text whose length and nesting are not limited. -/
def parseUnlimited (text : List Char) : Except Rejection Tree :=
  match Phrase.ofText text with
  | .error misfit =>
    .error (.malformed (Text.column text misfit.point) (.expected misfit.expectation))
  | .ok phrase => Tree.ofPhrase text phrase

/-- The tree of a text, or the reason why it has none. -/
def parse (limits : Limits) (text : String) : Except Rejection Tree :=
  let characters := text.toList
  if limits.maxLength < characters.length then
    .error (.tooLong characters.length limits.maxLength)
  else if limits.maxDepth < Nesting.depth characters then .error (.tooDeep limits.maxDepth)
  else parseUnlimited characters

/-- The value of a text, or the first reason why it has none. -/
def evaluate (limits : Limits) (text : String) : Except Rejection Number := do
  let tree ← parse limits text
  tree.evaluate

end Calculator
