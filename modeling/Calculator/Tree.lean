import Calculator.Number.Text
import Calculator.Operator

/-!
# Expression trees

An expression is made of constants and of unary and binary operations. Everything else that can be
written has no tree: it is refused while the tree is built.

* `Constant`: the literals; only those that are numbers have a value, `Constant.toNumber`.
* `Tree`: the expressions.
* `Tree.text`: a tree in brackets, operators first.
-/

namespace Calculator

/-! ## Constants -/

/-- A literal, as it stands in a tree. -/
inductive Constant where
  | integer (value : Int64)
  | float (value : Float)
  | bool (value : Bool)
  | text (content : String)
  | none
  deriving DecidableEq

namespace Constant

/-- How a constant is shown. A text is shown between single quotes, with nothing escaped. -/
def display : Constant → String
  | .integer value => (Number.integer value).text
  | .float value => (Number.float value).text
  | .bool true => "True"
  | .bool false => "False"
  | .text content => "'" ++ content ++ "'"
  | .none => "None"

/-- The number that a constant is; constants that are none are refused. -/
def toNumber : Constant → Except Rejection Number
  | .integer value => .ok (.integer value)
  | .float value => .ok (.float value)
  | constant => .error (.unsupportedConstant constant.display)

/-- The constants that are numbers. -/
def IsNumeric : Constant → Prop
  | .integer _ | .float _ => True
  | .bool _ | .text _ | .none => False

instance (constant : Constant) : Decidable constant.IsNumeric := by
  cases constant <;> unfold IsNumeric <;> infer_instance

end Constant

/-! ## Trees -/

/-- An expression. -/
inductive Tree where
  | constant (value : Constant)
  | binary (left : Tree) (operator : Operator) (right : Tree)
  | unary (operator : UnaryOperator) (operand : Tree)
  deriving DecidableEq

namespace Tree

/-- A tree with its operators in front of their operands and every operation in brackets. -/
def text : Tree → String
  | .constant value => value.display
  | .binary left operator right =>
    "(" ++ operator.symbol ++ " " ++ left.text ++ " " ++ right.text ++ ")"
  | .unary operator operand => "(" ++ operator.symbol ++ " " ++ operand.text ++ ")"

end Tree

end Calculator
