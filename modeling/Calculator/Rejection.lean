/-!
# Rejections

Every way an expression can be refused, and the text of each.

* `MathError`: the arithmetic of a valid expression fails.
* `Construct`: something that is recognised only to be refused by name.
* `Expectation`: what could have stood at the point where reading stopped; `Expectation.items`
  lists it.
* `Rejection`, `Rejection.message`: the refusals themselves and their wording.
-/

namespace Calculator

/-! ## Arithmetic failures -/

/-- Arithmetic failures of an otherwise valid expression. -/
inductive MathError where
  | divisionByZero
  | floorDivisionByZero
  | moduloByZero
  | zeroToNegativePower
  | complexResult
  | overflow
  deriving DecidableEq, Repr

/-- The wording of an arithmetic failure. -/
def MathError.message : MathError → String
  | .divisionByZero => "division by zero"
  | .floorDivisionByZero => "integer division by zero"
  | .moduloByZero => "modulo by zero"
  | .zeroToNegativePower => "zero cannot be raised to a negative power"
  | .complexResult => "negative number cannot be raised to a fractional power"
  | .overflow => "numerical result out of range"

/-! ## Refused constructs -/

/-- Constructs that are read only in order to refuse them by name. -/
inductive Construct where
  | name
  | call
  | attribute
  | subscript
  | comparison
  | connective
  | list
  | tuple
  | dict
  | set
  deriving DecidableEq, Repr

/-- How a refused construct is named. -/
def Construct.description : Construct → String
  | .name => "name reference"
  | .call => "function call"
  | .attribute => "attribute access"
  | .subscript => "subscript"
  | .comparison => "comparison"
  | .connective => "boolean operation"
  | .list => "list"
  | .tuple => "tuple"
  | .dict => "dict"
  | .set => "set"

/-! ## Expectations -/

/-- The surroundings of an operand, as far as they decide what may follow it. -/
inductive Place where
  /-- Outside all brackets. -/
  | outermost
  /-- Directly inside round brackets that do not hold arguments. -/
  | group
  /-- Directly inside curly brackets, where a key or a plain entry may stand. -/
  | entry
  /-- Directly inside curly brackets, after the colon of an entry. -/
  | entryValue
  /-- Directly inside square brackets or the brackets of a call. -/
  | listing
  deriving DecidableEq, Repr

/-- What could have stood where reading stopped. -/
inductive Expectation where
  | expression
  | expressionOrName
  | name
  /-- Anything that may follow a complete operand at this place. -/
  | continuation (place : Place)
  deriving DecidableEq, Repr

/-- The end of the input can follow an operand only outside all brackets. -/
def Place.ending : Place → List String
  | .outermost => ["end of input"]
  | _ => []

/-- The separators named at each place. Those of square brackets and calls go without saying. -/
def Place.separators : Place → List String
  | .group => ["`,`"]
  | .entry => ["`,`", "`:`"]
  | .entryValue => ["`,`"]
  | .outermost | .listing => []

/-- The expected items, in the order in which they are listed. -/
def Expectation.items : Expectation → List String
  | .expression => ["expression"]
  | .expressionOrName => ["expression", "name"]
  | .name => ["name"]
  | .continuation place =>
    place.ending ++ ["`(`", "`.`", "`[`", "`or`", "`and`"] ++ place.separators ++
      ["comparison operator", "`<<`", "`>>`", "`&`", "`|`", "`^`", "`+`", "`-`", "`**`", "`*`",
        "`//`", "`/`", "`%`", "`@`"]

/-- Three or more items, separated by commas, the last one after `or`. -/
def enumerateMany : List String → String
  | [] => ""
  | [last] => "or " ++ last
  | item :: rest => item ++ ", " ++ enumerateMany rest

/-- One item alone, two joined by `or`, more of them separated by commas. -/
def enumerate : List String → String
  | [] => ""
  | [item] => item
  | [first, second] => first ++ " or " ++ second
  | items => enumerateMany items

/-- What is wrong with a text that is not an expression. -/
inductive Fault where
  | expected (what : Expectation)
  | mixedEntries
  deriving DecidableEq, Repr

/-- The wording of a fault. -/
def Fault.message : Fault → String
  | .expected what => "expected " ++ enumerate what.items
  | .mixedEntries => "dict and set entries cannot be mixed"

/-! ## Rejections -/

/-- Every way an expression can be rejected. -/
inductive Rejection where
  /-- The text is no expression; columns count from one. -/
  | malformed (column : Nat) (fault : Fault)
  /-- The text holds a construct that is refused by name. -/
  | unsupported (construct : Construct) (text : String)
  | unsupportedOperator (symbol : String)
  | unsupportedConstant (text : String)
  | math (failure : MathError)
  | tooLong (length limit : Nat)
  | tooDeep (limit : Nat)
  deriving DecidableEq, Repr

/-- The wording of a rejection. -/
def Rejection.message : Rejection → String
  | .malformed column fault => s!"invalid syntax at column {column}: {fault.message}"
  | .unsupported construct text => s!"{construct.description} is not allowed: `{text}`"
  | .unsupportedOperator symbol => s!"operator `{symbol}` is not allowed"
  | .unsupportedConstant text => s!"non-numeric constant {text} is not allowed"
  | .math failure => failure.message
  | .tooLong length limit =>
    s!"expression is too long ({length} characters, at most {limit} allowed)"
  | .tooDeep limit => s!"expression nests too deeply (at most {limit} levels allowed)"

/-! ## Small facts -/

end Calculator
