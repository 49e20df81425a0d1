import Calculator.Tree

/-!
# Evaluation

Operands are evaluated from left to right, then the operator is applied; the first failure is the
result.

* `Tree.value`: the value of a tree, by recursion on it.
* `Tree.evaluate`: the same by a loop that keeps its own stack of what is pending, so that the depth
  of a tree is limited by memory only.
* `Tree.run_tree`: the loop does with a tree what it does with its value.
-/

namespace Calculator.Tree

/-! ## By recursion -/

/-- The value of a tree, or the first failure on the way to it. -/
def value : Tree → Except Rejection Number
  | .constant c => c.toNumber
  | .binary left operator right => do
    let a ← left.value
    let b ← right.value
    operator.apply a b
  | .unary operator operand => do
    let a ← operand.value
    operator.apply a

/-! ## By a loop -/

/-- An operation that waits for the value of one of its operands. -/
inductive Pending where
  /-- Waits for its left operand; the right one comes next. -/
  | left (operator : Operator) (next : Tree)
  /-- Waits for its right operand. -/
  | right (operator : Operator) (first : Number)
  /-- Waits for its only operand. -/
  | only (operator : UnaryOperator)

/-- What the loop looks at: a tree still to be evaluated, or a value for what is pending. -/
inductive Focus where
  | tree (t : Tree)
  | value (v : Number)

/-- The steps that a tree takes before its value is there. -/
def steps : Tree → Nat
  | .constant _ => 1
  | .binary left _ right => left.steps + right.steps + 3
  | .unary _ operand => operand.steps + 2

/-- The steps that a pending operation takes. -/
def Pending.steps : Pending → Nat
  | .left _ next => next.steps + 2
  | .right _ _ => 1
  | .only _ => 1

/-- The steps that all pending operations take together. -/
def pendingSteps : List Pending → Nat
  | [] => 0
  | pending :: rest => pending.steps + pendingSteps rest

/-- The steps that what is in focus takes before its value is there. -/
def Focus.steps : Focus → Nat
  | .tree t => t.steps
  | .value _ => 0

/-- Evaluates what is in focus, then what is pending, the last one first. -/
def run : Focus → List Pending → Except Rejection Number
  | .tree (.constant c), pending =>
    match c.toNumber with
    | .ok v => run (.value v) pending
    | .error e => .error e
  | .tree (.binary left operator right), pending =>
    run (.tree left) (.left operator right :: pending)
  | .tree (.unary operator operand), pending => run (.tree operand) (.only operator :: pending)
  | .value v, [] => .ok v
  | .value v, .left operator next :: pending => run (.tree next) (.right operator v :: pending)
  | .value v, .right operator first :: pending =>
    match operator.apply first v with
    | .ok w => run (.value w) pending
    | .error e => .error e
  | .value v, .only operator :: pending =>
    match operator.apply v with
    | .ok w => run (.value w) pending
    | .error e => .error e
termination_by focus pending => focus.steps + pendingSteps pending
decreasing_by
  all_goals simp only [Focus.steps, Pending.steps, Tree.steps, pendingSteps]
  all_goals omega

/-- The value of a tree, or the first failure on the way to it. -/
def evaluate (t : Tree) : Except Rejection Number := run (.tree t) []

/-! ## What the loop does with a tree -/

/-- The loop hands the value of a tree to what is pending, or stops with its failure. -/
theorem run_tree (t : Tree) (pending : List Pending) :
    run (.tree t) pending =
      match t.value with
      | .ok v => run (.value v) pending
      | .error e => .error e := by
  induction t generalizing pending with
  | constant c => rw [run, value]
  | binary left operator right ihl ihr =>
    rw [run, ihl, value]
    cases left.value with
    | error e => rfl
    | ok a =>
      simp only [run, ihr]
      cases right.value with
      | error e => rfl
      | ok b => rfl
  | unary operator operand ih =>
    rw [run, ih, value]
    cases operand.value with
    | error e => rfl
    | ok a => simp only [run]; rfl

end Calculator.Tree
