import Calculator.Token

/-!
# Reading tokens

Space, tab, carriage return and line feed separate tokens. Among the marks the longest that fits is
taken; words extend as far as letters, digits and `_` go. A point with a digit after it begins a
number, except after a complete operand, where it is always the point of an attribute.

* `Numeral.read?`: numbers.
* `Quoted.content?`: quoted texts.
* `Token.Kind.ofWord`: words.
* `Token.marks`: all other tokens.
* `Token.scan`: the tokens of a text. What no token starts with is an unknown token, up to the end
  of the text.
-/

namespace Calculator

/-! ## Numbers -/

namespace Numeral

/-- The digits that a text starts with. -/
def digits (cs : List Char) : List Char := cs.takeWhile Char.isDigit

/-- The number that digits denote. -/
def value (digits : List Char) : Nat := Nat.ofDigitChars 10 digits 0

/-- The sign of an exponent and the number of characters it takes. -/
def exponentSign : List Char → Int × Nat
  | '+' :: _ => (1, 1)
  | '-' :: _ => (-1, 1)
  | _ => (1, 0)

/-- The exponent that a text starts with, and its length: the letter `e`, a sign or none, and one
    digit or more. -/
def exponent? : List Char → Option (Int × Nat)
  | [] => none
  | c :: cs =>
    if c = 'e' ∨ c = 'E' then
      let (sign, width) := exponentSign cs
      let power := digits (cs.drop width)
      if power.isEmpty then none else some (sign * value power, 1 + width + power.length)
    else none

/-- An integer does not start with a zero, unless it is made of zeros. -/
def isIntegerText (digits : List Char) : Bool :=
  digits.all (· == '0') || digits.head? != some '0'

/-- The number that a text starts with, and its length: digits with a point after, between or before
    them and perhaps an exponent, digits with an exponent, or an integer. -/
def read? (cs : List Char) : Option (Literal × Nat) :=
  let whole := digits cs
  match cs.drop whole.length with
  | '.' :: rest =>
    let fraction := digits rest
    if whole.isEmpty && fraction.isEmpty then none
    else
      let (power, width) := (exponent? (rest.drop fraction.length)).getD (0, 0)
      some (.float ⟨value (whole ++ fraction), power - fraction.length⟩,
        whole.length + 1 + fraction.length + width)
  | rest =>
    if whole.isEmpty then none
    else
      match exponent? rest with
      | some (power, width) => some (.float ⟨value whole, power⟩, whole.length + width)
      | none => if isIntegerText whole then some (.integer (value whole), whole.length) else none

end Numeral

/-! ## Quoted texts -/

/-- What stands before the closing quote. A backslash takes the next character with it, whatever it
    is; otherwise neither the quote nor a line feed can stand in the text. -/
def Quoted.content? (quote : Char) : List Char → Option (List Char)
  | [] => none
  | [c] => if c = quote then some [] else none
  | c :: d :: rest =>
    if c = '\\' then (content? quote rest).map (c :: d :: ·)
    else if c = quote then some []
    else if c = '\n' then none
    else (content? quote (d :: rest)).map (c :: ·)

/-! ## Words and marks -/

/-- Letters and `_` begin a word. -/
def Text.startsWord (c : Char) : Bool := c.isAlpha || c == '_'

/-- Letters, digits and `_` continue a word. -/
def Text.continuesWord (c : Char) : Bool := c.isAlphanum || c == '_'

namespace Token

/-- The words with a meaning of their own; every other word is a name. -/
def Kind.ofWord (word : List Char) : Kind :=
  if word = ['a', 'n', 'd'] then .logical .and
  else if word = ['o', 'r'] then .logical .or
  else if word = ['n', 'o', 't'] then .not
  else if word = ['T', 'r', 'u', 'e'] then .literal (.bool true)
  else if word = ['F', 'a', 'l', 's', 'e'] then .literal (.bool false)
  else if word = ['N', 'o', 'n', 'e'] then .literal .none
  else .name

/-- The marks, no mark before a longer one that it begins. -/
def marks : List (List Char × Kind) :=
  [(['*', '*'], .operator .power), (['/', '/'], .operator .floorDivide),
    (['<', '<'], .operator .leftShift), (['>', '>'], .operator .rightShift),
    (['=', '='], .logical .comparison), (['!', '='], .logical .comparison),
    (['<', '='], .logical .comparison), (['>', '='], .logical .comparison),
    (['<'], .logical .comparison), (['>'], .logical .comparison),
    (['+'], .operator .add), (['-'], .operator .subtract), (['*'], .operator .multiply),
    (['/'], .operator .divide), (['%'], .operator .modulo), (['@'], .operator .matrixMultiply),
    (['&'], .operator .bitAnd), (['|'], .operator .bitOr), (['^'], .operator .bitXor),
    (['~'], .tilde), (['('], .opening .round), ([')'], .closing .round),
    (['['], .opening .square), ([']'], .closing .square), (['{'], .opening .curly),
    (['}'], .closing .curly), ([','], .comma), ([':'], .colon), (['.'], .dot), (['='], .equals)]

/-- The mark that a text starts with, and its length. -/
def mark? (cs : List Char) : Option (Kind × Nat) :=
  (marks.find? fun mark => mark.1.isPrefixOf cs).map fun mark => (mark.2, mark.1.length)

/-! ## Tokens -/

/-- Whether a number begins at `c`, with `cs` after it. -/
def startsNumeral (afterOperand : Bool) (c : Char) (cs : List Char) : Bool :=
  c.isDigit || (c == '.' && !afterOperand && cs.head?.any Char.isDigit)

/-- The token that a text starts with, and its length. -/
def read? (afterOperand : Bool) (c : Char) (cs : List Char) : Option (Kind × Nat) :=
  if startsNumeral afterOperand c cs then
    (Numeral.read? (c :: cs)).map fun (literal, width) => (.literal literal, width)
  else if c = '\'' ∨ c = '"' then
    (Quoted.content? c cs).map fun content =>
      (.literal (.text (.ofList content)), content.length + 2)
  else if Text.startsWord c then
    let word := c :: cs.takeWhile Text.continuesWord
    some (.ofWord word, word.length)
  else mark? (c :: cs)

/-- The characters that separate tokens. -/
def isGap (c : Char) : Bool := c == ' ' || c == '\t' || c == '\r' || c == '\n'

/-- The tokens of the text `cs`, which stands at `point` and, if so it is said, after a complete
    operand. -/
def scan (afterOperand : Bool) (point : Nat) : List Char → List Token
  | [] => []
  | c :: cs =>
    if isGap c then scan afterOperand (point + 1) cs
    else
      match read? afterOperand c cs with
      | none => [⟨.unknown, ⟨point, point + 1 + cs.length⟩⟩]
      | some (kind, width) =>
        ⟨kind, ⟨point, point + width⟩⟩ ::
          scan kind.endsOperand (point + width) (cs.drop (width - 1))
termination_by cs => cs.length
decreasing_by
  · simp
  · simp only [List.length_drop, List.length_cons]; omega

/-- The tokens of a whole text. -/
def ofText (text : List Char) : List Token := scan false 0 text

end Token

end Calculator
