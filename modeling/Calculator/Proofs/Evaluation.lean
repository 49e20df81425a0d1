import Calculator.Tree.Evaluation

/-!
# The loop computes the recursive value

The stack of pending operations is read as a continuation: what is still to be done with the value
of the tree in focus.

Results:
* `Tree.run_eq`: from every state, also one that no tree leads to, the loop returns what the
  recursive value in focus becomes under the pending operations; with none of these, `Tree.run_nil`,
  that value itself.
* `Tree.evaluate_eq_value`: the loop started on a tree returns its recursive value, or the first
  failure on the way to it.
-/

namespace Calculator

theorem bind_eq_ok_iff {α β : Type} {result : Except Rejection α}
    {next : α → Except Rejection β} {b : β} :
    result >>= next = .ok b ↔ ∃ a, result = .ok a ∧ next a = .ok b := by
  cases result <;> simp [bind, Except.bind]

namespace Tree

/-! ## Pending operations as continuations -/

/-- What a pending operation makes of the value that it waits for. -/
def Pending.resume : Pending → Number → Except Rejection Number
  | .left operator next, a => do
    let b ← next.value
    operator.apply a b
  | .right operator first, b => operator.apply first b
  | .only operator, a => operator.apply a

/-- What pending operations make of a value, the last operation first. -/
def resumeAll : List Pending → Number → Except Rejection Number
  | [], v => .ok v
  | pending :: rest, v => do
    let w ← pending.resume v
    resumeAll rest w

/-- The recursive value of what is in focus. -/
def Focus.result : Focus → Except Rejection Number
  | .tree t => t.value
  | .value v => .ok v

/-! ## Steps and runs -/

/-- Popping one operation applies it, where the right operand of a `left` frame is evaluated in
    between. -/
theorem run_value_cons (v : Number) (pending : Pending) (rest : List Pending) :
    run (.value v) (pending :: rest) =
      match pending.resume v with
      | .ok w => run (.value w) rest
      | .error e => .error e := by
  cases pending with
  | left operator next =>
    rw [run, run_tree, Pending.resume]
    cases next.value with
    | error e => rfl
    | ok b =>
      -- the frame that now waits for the right operand is popped at once
      simp only [run]
      rfl
  | right operator first =>
    rw [run]
    rfl
  | only operator =>
    rw [run]
    rfl

/-- With a value in focus, the loop works off the pending operations. -/
theorem run_value (v : Number) (pending : List Pending) :
    run (.value v) pending = resumeAll pending v := by
  induction pending generalizing v with
  | nil => rw [run, resumeAll]
  | cons pending rest ih =>
    rw [run_value_cons, resumeAll]
    cases pending.resume v with
    | error e => rfl
    | ok w => exact ih w

/-- The loop returns what the value in focus becomes under the pending operations. -/
theorem run_eq (focus : Focus) (pending : List Pending) :
    run focus pending = focus.result >>= resumeAll pending := by
  cases focus with
  | value v => exact run_value v pending
  | tree t =>
    rw [run_tree, Focus.result]
    cases t.value with
    | error e => rfl
    | ok v => exact run_value v pending

/-- With nothing pending, the loop returns the recursive value of what is in focus. -/
theorem run_nil (focus : Focus) : run focus [] = focus.result := by
  rw [run_eq]
  cases focus.result with
  | error e => rfl
  | ok v => rfl

/-- **The loop computes the recursive value.** Started on a tree, it returns the value of the
    recursion, or the first failure on the way to it. -/
theorem evaluate_eq_value (t : Tree) : t.evaluate = t.value := by
  unfold evaluate
  exact run_nil (.tree t)

end Tree

end Calculator
