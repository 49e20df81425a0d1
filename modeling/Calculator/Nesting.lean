import Calculator.Text.Blank
import Calculator.Text.Numeric

/-!
# Nesting

How deep a text nests, estimated in one pass over its characters before anything is parsed. Every
open bracket is one level, and so is every operator before an operand and every `**`, until an
operator that gathers operands from the left, `and`, `or` or a comma ends their chain.

* `Nesting.Piece`: what the pass tells apart; `Nesting.next` cuts a piece off a text.
* `Nesting.Count`: open brackets with the lengths of their chains; `Nesting.Count.step` reads a
  piece.
* `Nesting.depth`: the greatest depth that is reached.
-/

namespace Calculator.Nesting

/-! ## Pieces -/

/-- What the pass tells apart. -/
inductive Piece where
  | opening
  | closing
  | power
  /-- `+`, `-` or `~`, which is one level where no operand stands before it. -/
  | sign
  | not
  /-- A number, a quoted text, or a word that is none of `not`, `and` and `or`. -/
  | operand
  /-- `and` or `or`. -/
  | connective
  | blank
  | dot
  | other
  deriving DecidableEq, Repr

/-- The characters after an opening quote, up to and with the closing one. A backslash takes the
    next character with it. -/
def quotedWidth (quote : Char) (escaped : Bool) : List Char → Nat
  | [] => 0
  | c :: cs =>
    if escaped then quotedWidth quote false cs + 1
    else if c = '\\' then quotedWidth quote true cs + 1
    else if c = quote then 1
    else quotedWidth quote false cs + 1

/-- The characters that continue a number after the character `previous`: letters, digits, points
    and `_`, and a sign right after the letter of an exponent. -/
def numberWidth (previous : Char) : List Char → Nat
  | [] => 0
  | c :: cs =>
    if c.isAlphanum || c == '.' || c == '_' ||
        (c == '+' || c == '-') && (previous == 'e' || previous == 'E') then
      numberWidth c cs + 1
    else 0

/-- Whether a character continues a word. -/
def continuesWord (c : Char) : Bool := Text.isAlphanumeric c || c == '_'

/-- What a word is. -/
def ofWord (word : List Char) : Piece :=
  if word = ['n', 'o', 't'] then .not
  else if word = ['a', 'n', 'd'] ∨ word = ['o', 'r'] then .connective
  else .operand

/-- The piece that begins with `c`, and the number of characters of `cs` that belong to it. -/
def next (c : Char) (cs : List Char) : Piece × Nat :=
  if c = '(' ∨ c = '[' ∨ c = '{' then (.opening, 0)
  else if c = ')' ∨ c = ']' ∨ c = '}' then (.closing, 0)
  else if c = '*' ∧ cs.head? = some '*' then (.power, 1)
  else if c = '+' ∨ c = '-' ∨ c = '~' then (.sign, 0)
  else if c = '\'' ∨ c = '"' then (.operand, quotedWidth c false cs)
  else if c.isDigit || (c == '.' && cs.head?.any Char.isDigit) then (.operand, numberWidth c cs)
  else if Text.isAlphabetic c || c == '_' then
    let rest := cs.takeWhile continuesWord
    (ofWord (c :: rest), rest.length)
  else if Text.isBlank c then (.blank, 0)
  else if c = '.' then (.dot, 0)
  else (.other, 0)

/-! ## Counting -/

/-- Where the pass stands. -/
structure Count where
  /-- The open brackets. -/
  brackets : Nat
  /-- The lengths of the chains inside each open bracket, the innermost first; the last one stands
      for the text outside all brackets. -/
  chains : List Nat
  /-- The total of all chains. -/
  chained : Nat
  /-- Whether an operand has just ended. -/
  afterOperand : Bool
  /-- The greatest depth so far. -/
  deepest : Nat
  deriving DecidableEq, Repr

namespace Count

/-- Before the first piece. -/
def initial : Count := ⟨0, [0], 0, false, 0⟩

/-- The levels that are open. -/
def depth (count : Count) : Nat := count.brackets + count.chained

/-- Opens a bracket. -/
def enter (count : Count) : Count :=
  { count with
    brackets := count.brackets + 1, chains := 0 :: count.chains, afterOperand := false }

/-- One more level in the innermost chain. -/
def link (count : Count) : Count :=
  match count.chains with
  | [] => { count with afterOperand := false }
  | chain :: outer =>
    { count with
      chains := (chain + 1) :: outer, chained := count.chained + 1, afterOperand := false }

/-- Ends the innermost chain. -/
def reset (count : Count) : Count :=
  match count.chains with
  | [] => { count with afterOperand := false }
  | chain :: outer =>
    { count with chains := 0 :: outer, chained := count.chained - chain, afterOperand := false }

/-- Closes the innermost bracket with its chain. A bracket too many closes nothing. -/
def leave (count : Count) : Count :=
  match count.chains with
  | chain :: enclosing :: outer =>
    { count with
      brackets := count.brackets - 1, chains := enclosing :: outer,
      chained := count.chained - chain, afterOperand := true }
  | _ => { count with afterOperand := true }

/-- What a piece changes, apart from the greatest depth. -/
def move (count : Count) : Piece → Count
  | .opening => count.enter
  | .closing => count.leave
  | .power | .not => count.link
  | .sign => if count.afterOperand then count.reset else count.link
  | .operand => { count with afterOperand := true }
  | .connective | .other => count.reset
  | .blank => count
  | .dot => { count with afterOperand := false }

/-- Reads a piece. -/
def step (count : Count) (piece : Piece) : Count :=
  let moved := count.move piece
  { moved with deepest := max moved.deepest moved.depth }

end Count

/-- Reads a text piece by piece. -/
def run (count : Count) : List Char → Count
  | [] => count
  | c :: cs =>
    let (piece, width) := next c cs
    run (count.step piece) (cs.drop width)
termination_by cs => cs.length
decreasing_by simp only [List.length_drop, List.length_cons]; omega

/-- How deep a text nests. -/
def depth (text : List Char) : Nat := (run .initial text).deepest

end Calculator.Nesting
