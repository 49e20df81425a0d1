import Calculator.Number.Arithmetic

/-!
# Operators

Every operator that can be written, and what it computes. Only seven binary operators and the two
signs are arithmetic; the others are refused when they are applied.

* `Operator`, `UnaryOperator`: the operators, with `symbol` and its inverse `ofSymbol`.
* `Operator.apply`, `UnaryOperator.apply`: their values.
* `Operator.IsArithmetic`, `UnaryOperator.IsArithmetic`: those that have one.
-/

namespace Calculator

/-- The refusals of arithmetic among all others. -/
def liftMath {α : Type} : Except MathError α → Except Rejection α
  | .ok value => .ok value
  | .error failure => .error (.math failure)

/-! ## Binary operators -/

/-- The binary operators. -/
inductive Operator where
  | add
  | subtract
  | multiply
  | divide
  | power
  | modulo
  | floorDivide
  | matrixMultiply
  | leftShift
  | rightShift
  | bitAnd
  | bitOr
  | bitXor
  deriving DecidableEq, Repr

namespace Operator

/-- All binary operators. -/
def all : List Operator :=
  [.add, .subtract, .multiply, .divide, .power, .modulo, .floorDivide, .matrixMultiply,
    .leftShift, .rightShift, .bitAnd, .bitOr, .bitXor]

/-- How an operator is written. -/
def symbol : Operator → String
  | .add => "+"
  | .subtract => "-"
  | .multiply => "*"
  | .divide => "/"
  | .power => "**"
  | .modulo => "%"
  | .floorDivide => "//"
  | .matrixMultiply => "@"
  | .leftShift => "<<"
  | .rightShift => ">>"
  | .bitAnd => "&"
  | .bitOr => "|"
  | .bitXor => "^"

/-- The operator that is written `text`. -/
def ofSymbol (text : String) : Except Rejection Operator :=
  match all.find? (·.symbol = text) with
  | some operator => .ok operator
  | none => .error (.unsupportedOperator text)

/-- The operators that compute something. -/
def IsArithmetic : Operator → Prop
  | .add | .subtract | .multiply | .divide | .power | .modulo | .floorDivide => True
  | .matrixMultiply | .leftShift | .rightShift | .bitAnd | .bitOr | .bitXor => False

instance (operator : Operator) : Decidable operator.IsArithmetic := by
  cases operator <;> unfold IsArithmetic <;> infer_instance

/-- The value of an operator at two numbers. -/
def apply (operator : Operator) (left right : Number) : Except Rejection Number :=
  match operator with
  | .add => liftMath (left.add right)
  | .subtract => liftMath (left.sub right)
  | .multiply => liftMath (left.mul right)
  | .divide => liftMath (left.div right)
  | .power => liftMath (left.pow right)
  | .modulo => liftMath (left.mod right)
  | .floorDivide => liftMath (left.floorDiv right)
  | .matrixMultiply | .leftShift | .rightShift | .bitAnd | .bitOr | .bitXor =>
    .error (.unsupportedOperator operator.symbol)

/-- Reading a symbol gives its operator back. -/
theorem ofSymbol_symbol (operator : Operator) : ofSymbol operator.symbol = .ok operator := by
  cases operator <;> rfl

end Operator

/-! ## Unary operators -/

/-- The operators written before their operand. -/
inductive UnaryOperator where
  | plus
  | minus
  | invert
  | not
  deriving DecidableEq, Repr

namespace UnaryOperator

/-- All unary operators. -/
def all : List UnaryOperator := [.plus, .minus, .invert, .not]

/-- How an operator is written. -/
def symbol : UnaryOperator → String
  | .plus => "+"
  | .minus => "-"
  | .invert => "~"
  | .not => "not"

/-- The operator that is written `text`. -/
def ofSymbol (text : String) : Except Rejection UnaryOperator :=
  match all.find? (·.symbol = text) with
  | some operator => .ok operator
  | none => .error (.unsupportedOperator text)

/-- The signs compute something, the other two do not. -/
def IsArithmetic : UnaryOperator → Prop
  | .plus | .minus => True
  | .invert | .not => False

instance (operator : UnaryOperator) : Decidable operator.IsArithmetic := by
  cases operator <;> unfold IsArithmetic <;> infer_instance

/-- The value of an operator at a number. -/
def apply (operator : UnaryOperator) (operand : Number) : Except Rejection Number :=
  match operator with
  | .plus => .ok operand
  | .minus => liftMath operand.neg
  | .invert | .not => .error (.unsupportedOperator operator.symbol)

/-- Reading a symbol gives its operator back. -/
theorem ofSymbol_symbol (operator : UnaryOperator) : ofSymbol operator.symbol = .ok operator := by
  cases operator <;> rfl

end UnaryOperator

end Calculator
