import Calculator.Tree.OfPhrase
import Calculator.Token.Lexer
import Mathlib.Algebra.Order.Ring.Int

/-!
# The grammar of expressions

Which texts are expressions, and which trees they denote, said without a scanner or a parser: a
stratified grammar over characters, with white space wherever two tokens meet.

```
expression ::= 'not' expression | bitwise
bitwise    ::= bitwise (<< | >> | & | '|' | ^) arithmetic | arithmetic
arithmetic ::= arithmetic (+ | -) term | term
term       ::= term (* | / | // | % | @) factor | factor
factor     ::= (+ | - | ~) factor | power
power      ::= atom ** factor | atom
atom       ::= number | string | True | False | None | ( expression )
```

* `IntegerLiteral`, `FloatLiteral`, `QuotedContent`: the literals.
* `Derives`: the texts that a level of the grammar derives, with their trees.
* `Expression`: whole texts, with white space around them.
-/

namespace Calculator.Grammar

/-! ## Literals -/

/-- White space between tokens. -/
def Gap (cs : List Char) : Prop := ∀ c ∈ cs, c = ' ' ∨ c = '\t' ∨ c = '\r' ∨ c = '\n'

theorem Gap.nil : Gap [] := List.forall_mem_nil _

/-- Digits, or nothing. -/
def AllDigits (cs : List Char) : Prop := ∀ c ∈ cs, c.isDigit

/-- An integer is made of zeros only, or of digits of which the first is no zero. -/
inductive IntegerLiteral : List Char → Prop where
  | zeros {cs : List Char} : (∀ c ∈ cs, c = '0') → IntegerLiteral ('0' :: cs)
  | digits {c : Char} {cs : List Char} :
    c.isDigit → c ≠ '0' → AllDigits cs → IntegerLiteral (c :: cs)

/-- The letter `e`, a sign or none, and one digit or more; with the power of ten that they
    denote. -/
inductive ExponentPart : List Char → Int → Prop where
  | unsigned {mark : Char} {digits : List Char} :
    mark = 'e' ∨ mark = 'E' → AllDigits digits → digits ≠ [] →
    ExponentPart (mark :: digits) (Numeral.value digits)
  | positive {mark : Char} {digits : List Char} :
    mark = 'e' ∨ mark = 'E' → AllDigits digits → digits ≠ [] →
    ExponentPart (mark :: '+' :: digits) (Numeral.value digits)
  | negative {mark : Char} {digits : List Char} :
    mark = 'e' ∨ mark = 'E' → AllDigits digits → digits ≠ [] →
    ExponentPart (mark :: '-' :: digits) (-Numeral.value digits)

/-- Digits with a point before, between or after them and perhaps an exponent, or digits with an
    exponent; with the decimal number that they denote. -/
inductive FloatLiteral : List Char → Decimal → Prop where
  | pointed {whole fraction : List Char} :
    AllDigits whole → AllDigits fraction → ¬(whole = [] ∧ fraction = []) →
    FloatLiteral (whole ++ '.' :: fraction)
      ⟨Numeral.value (whole ++ fraction), -fraction.length⟩
  | pointedExponent {whole fraction exponent : List Char} {power : Int} :
    AllDigits whole → AllDigits fraction → ¬(whole = [] ∧ fraction = []) →
    ExponentPart exponent power →
    FloatLiteral (whole ++ '.' :: (fraction ++ exponent))
      ⟨Numeral.value (whole ++ fraction), power - fraction.length⟩
  | exponent {whole exponent : List Char} {power : Int} :
    AllDigits whole → whole ≠ [] → ExponentPart exponent power →
    FloatLiteral (whole ++ exponent) ⟨Numeral.value whole, power⟩

/-- What stands between two quotes: a backslash with any character after it, and any other character
    but the quote and a line feed. -/
inductive QuotedContent (quote : Char) : List Char → Prop where
  | nil : QuotedContent quote []
  | escaped {c : Char} {cs : List Char} :
    QuotedContent quote cs → QuotedContent quote ('\\' :: c :: cs)
  | plain {c : Char} {cs : List Char} :
    c ≠ quote → c ≠ '\\' → c ≠ '\n' → QuotedContent quote cs → QuotedContent quote (c :: cs)

/-! ## Levels -/

/-- The levels of the grammar, from the weakest to the strongest binding one. -/
inductive Level where
  | expression
  | bitwise
  | arithmetic
  | term
  | factor
  | power
  | atom
  deriving DecidableEq, Repr

namespace Level

/-- The next level, whose texts are texts of this level too. -/
def tighter : Level → Level
  | .expression => .bitwise
  | .bitwise => .arithmetic
  | .arithmetic => .term
  | .term => .factor
  | .factor => .power
  | .power | .atom => .atom

/-- The operators that a level gathers from the left. -/
def operators : Level → List Operator
  | .bitwise => [.leftShift, .rightShift, .bitAnd, .bitOr, .bitXor]
  | .arithmetic => [.add, .subtract]
  | .term => [.multiply, .divide, .floorDivide, .modulo, .matrixMultiply]
  | .expression | .factor | .power | .atom => []

end Level

/-! ## Derivations -/

/-- A text of some level, from its first to its last token, and the tree that it denotes. -/
inductive Derives : Level → List Char → Tree → Prop where
  /-- `not` is a word of its own. -/
  | not {gap cs : List Char} {t : Tree} :
    Gap gap → Derives .expression cs t →
    (∀ c ∈ (gap ++ cs).head?, ¬(c.isAlphanum ∨ c = '_')) →
    Derives .expression ('n' :: 'o' :: 't' :: (gap ++ cs)) (.unary .not t)
  | chain {level : Level} {operator : Operator} {cs gap gap' ds : List Char} {a b : Tree} :
    operator ∈ level.operators → Derives level cs a → Gap gap → Gap gap' →
    Derives level.tighter ds b →
    Derives level (cs ++ (gap ++ (operator.symbol.toList ++ (gap' ++ ds)))) (.binary a operator b)
  | sign {operator : UnaryOperator} {gap cs : List Char} {t : Tree} :
    operator ≠ .not → Gap gap → Derives .factor cs t →
    Derives .factor (operator.symbol.toList ++ (gap ++ cs)) (.unary operator t)
  | power {cs gap gap' ds : List Char} {a b : Tree} :
    Derives .atom cs a → Gap gap → Gap gap' → Derives .factor ds b →
    Derives .power (cs ++ (gap ++ ('*' :: '*' :: (gap' ++ ds)))) (.binary a .power b)
  | tighter {level : Level} {cs : List Char} {t : Tree} :
    Derives level.tighter cs t → Derives level cs t
  | group {gap cs gap' : List Char} {t : Tree} :
    Gap gap → Derives .expression cs t → Gap gap' →
    Derives .atom ('(' :: (gap ++ (cs ++ (gap' ++ [')'])))) t
  | integer {cs : List Char} :
    IntegerLiteral cs → Numeral.value cs ≤ 2 ^ 63 - 1 →
    Derives .atom cs (.constant (.integer (.ofNat (Numeral.value cs))))
  | float {cs : List Char} {value : Decimal} :
    FloatLiteral cs value → Derives .atom cs (.constant (.float value.toFloat))
  | string {quote : Char} {cs : List Char} :
    quote = '\'' ∨ quote = '"' → QuotedContent quote cs →
    Derives .atom (quote :: (cs ++ [quote])) (.constant (.text (.ofList cs)))
  | true : Derives .atom ['T', 'r', 'u', 'e'] (.constant (.bool true))
  | false : Derives .atom ['F', 'a', 'l', 's', 'e'] (.constant (.bool false))
  | none : Derives .atom ['N', 'o', 'n', 'e'] (.constant .none)

/-- A whole text that denotes a tree. -/
def Expression (text : List Char) (t : Tree) : Prop :=
  ∃ gap cs gap', text = gap ++ (cs ++ gap') ∧ Gap gap ∧ Gap gap' ∧ Derives .expression cs t

end Calculator.Grammar
