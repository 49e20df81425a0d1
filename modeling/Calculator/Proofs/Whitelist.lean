import Calculator.Proofs.ArithmeticOnly
import Calculator.Proofs.Refusals

/-!
# No part of a tree escapes the whitelist

The tables of the operators and of the constants are consulted at every part of a tree, wherever it
stands: no operator computes past an operand that is refused. A failure of arithmetic on the way may
come first, but then there is no value either.

* `Tree.constants`, `Tree.operators`, `Tree.unaryOperators`: all parts of a tree.
* `Tree.Failure`: what the evaluation of a tree can fail with.

Results:
* `Tree.isArithmetic_iff`: a tree is arithmetic if each of its parts is on the whitelist.
* `Tree.failure_of_value`: a failure is one of arithmetic, or names a part that is not.
* `Tree.evaluate_whitelist`: trees with such a part, and without.
-/

namespace Calculator

namespace Tree

/-! ## Parts -/

/-- The constants of a tree, from left to right. -/
def constants : Tree → List Constant
  | .constant value => [value]
  | .binary left _ right => left.constants ++ right.constants
  | .unary _ operand => operand.constants

/-- The binary operators of a tree, from left to right. -/
def operators : Tree → List Operator
  | .constant _ => []
  | .binary left operator right => left.operators ++ operator :: right.operators
  | .unary _ operand => operand.operators

/-- The unary operators of a tree, from left to right. -/
def unaryOperators : Tree → List UnaryOperator
  | .constant _ => []
  | .binary left _ right => left.unaryOperators ++ right.unaryOperators
  | .unary operator operand => operator :: operand.unaryOperators

/-- A tree is arithmetic if each of its parts is on the whitelist. -/
theorem isArithmetic_iff (t : Tree) :
    t.IsArithmetic ↔ (∀ c ∈ t.constants, c.IsNumeric) ∧
      (∀ operator ∈ t.operators, operator.IsArithmetic) ∧
        ∀ operator ∈ t.unaryOperators, operator.IsArithmetic := by
  induction t with
  | constant value => simp [IsArithmetic, constants, operators, unaryOperators]
  | binary left operator right ihl ihr =>
    simp only [IsArithmetic, constants, operators, unaryOperators, List.forall_mem_append,
      List.forall_mem_cons, ihl, ihr]
    tauto
  | unary operator operand ih =>
    simp only [IsArithmetic, constants, operators, unaryOperators, List.forall_mem_cons, ih]
    tauto

/-! ## Failures -/

/-- What the evaluation of a tree can fail with. -/
inductive Failure (t : Tree) : Rejection → Prop
  | math (failure : MathError) : Failure t (.math failure)
  | constant {c : Constant} : c ∈ t.constants → ¬c.IsNumeric →
    Failure t (.unsupportedConstant c.display)
  | operator {operator : Operator} : operator ∈ t.operators → ¬operator.IsArithmetic →
    Failure t (.unsupportedOperator operator.symbol)
  | unaryOperator {operator : UnaryOperator} : operator ∈ t.unaryOperators →
    ¬operator.IsArithmetic → Failure t (.unsupportedOperator operator.symbol)

/-- The failures of a tree are failures of all trees that have its parts. -/
theorem Failure.mono {s t : Tree} {rejection : Rejection} (h : Failure s rejection)
    (hconstants : s.constants ⊆ t.constants) (hoperators : s.operators ⊆ t.operators)
    (hunary : s.unaryOperators ⊆ t.unaryOperators) : Failure t rejection := by
  cases h with
  | math failure => exact .math failure
  | constant hmem hno => exact .constant (hconstants hmem) hno
  | operator hmem hno => exact .operator (hoperators hmem) hno
  | unaryOperator hmem hno => exact .unaryOperator (hunary hmem) hno

end Tree

theorem exists_math_of_liftMath {α : Type} {result : Except MathError α} {rejection : Rejection}
    (h : liftMath result = .error rejection) : ∃ failure, rejection = .math failure := by
  cases result with
  | ok value => cases h
  | error failure =>
    cases h
    exact ⟨failure, rfl⟩

/-- A constant fails only if it is no number. -/
theorem Constant.failure_of_toNumber {c : Constant} {rejection : Rejection}
    (h : c.toNumber = .error rejection) :
    ¬c.IsNumeric ∧ rejection = .unsupportedConstant c.display := by
  cases c with
  | integer value => cases h
  | float value => cases h
  | bool value | text content | none =>
    cases h
    exact ⟨id, rfl⟩

/-- An operator fails by arithmetic, or because it is not on the whitelist. -/
theorem Operator.failure_of_apply {operator : Operator} {a b : Number} {rejection : Rejection}
    (h : operator.apply a b = .error rejection) :
    (∃ failure, rejection = .math failure) ∨
      ¬operator.IsArithmetic ∧ rejection = .unsupportedOperator operator.symbol := by
  cases operator with
  | matrixMultiply | leftShift | rightShift | bitAnd | bitOr | bitXor =>
    cases h
    exact .inr ⟨id, rfl⟩
  | _ => exact .inl (exists_math_of_liftMath h)

theorem UnaryOperator.failure_of_apply {operator : UnaryOperator} {a : Number}
    {rejection : Rejection} (h : operator.apply a = .error rejection) :
    (∃ failure, rejection = .math failure) ∨
      ¬operator.IsArithmetic ∧ rejection = .unsupportedOperator operator.symbol := by
  cases operator with
  | plus => cases h
  | minus => exact .inl (exists_math_of_liftMath h)
  | invert | not =>
    cases h
    exact .inr ⟨id, rfl⟩

namespace Tree

/-- A failure is one of arithmetic, or names a part of the tree that is not on the whitelist. -/
theorem failure_of_value {t : Tree} {rejection : Rejection} (h : t.value = .error rejection) :
    Failure t rejection := by
  induction t with
  | constant c =>
    obtain ⟨hno, rfl⟩ := Constant.failure_of_toNumber h
    exact .constant (List.mem_singleton_self c) hno
  | binary left operator right ihl ihr =>
    rw [value] at h
    rcases bind_eq_error_iff.1 h with hl | ⟨a, _, h⟩
    · exact (ihl hl).mono (List.subset_append_left _ _) (List.subset_append_left _ _)
        (List.subset_append_left _ _)
    · rcases bind_eq_error_iff.1 h with hr | ⟨b, _, happly⟩
      · exact (ihr hr).mono (List.subset_append_right _ _)
          (List.subset_append_of_subset_right _ (List.subset_cons_self _ _))
          (List.subset_append_right _ _)
      · rcases Operator.failure_of_apply happly with ⟨failure, rfl⟩ | ⟨hno, rfl⟩
        · exact .math failure
        · exact .operator (List.mem_append_right _ List.mem_cons_self) hno
  | unary operator operand ih =>
    rw [value] at h
    rcases bind_eq_error_iff.1 h with ho | ⟨a, _, happly⟩
    · exact (ih ho).mono (List.Subset.refl _) (List.Subset.refl _) (List.subset_cons_self _ _)
    · rcases UnaryOperator.failure_of_apply happly with ⟨failure, rfl⟩ | ⟨hno, rfl⟩
      · exact .math failure
      · exact .unaryOperator List.mem_cons_self hno

/-! ## The whitelist -/

/-- **No part of a tree escapes the whitelist.** A tree with a constant that is no number or with an
    operator that computes nothing, wherever it stands, has no value. All other trees have a value
    or fail by arithmetic. A refusal of an operator or of a constant names one that stands in the
    tree. -/
theorem evaluate_whitelist (t : Tree) :
    ((∃ c ∈ t.constants, ¬c.IsNumeric) ∨ (∃ operator ∈ t.operators, ¬operator.IsArithmetic) ∨
        (∃ operator ∈ t.unaryOperators, ¬operator.IsArithmetic) →
      ∃ rejection, t.evaluate = .error rejection) ∧
    ((∀ c ∈ t.constants, c.IsNumeric) → (∀ operator ∈ t.operators, operator.IsArithmetic) →
        (∀ operator ∈ t.unaryOperators, operator.IsArithmetic) →
      (∃ v, t.evaluate = .ok v) ∨ ∃ failure, t.evaluate = .error (.math failure)) ∧
    (∀ symbol, t.evaluate = .error (.unsupportedOperator symbol) →
      (∃ operator ∈ t.operators, ¬operator.IsArithmetic ∧ operator.symbol = symbol) ∨
        ∃ operator ∈ t.unaryOperators, ¬operator.IsArithmetic ∧ operator.symbol = symbol) ∧
    ∀ text, t.evaluate = .error (.unsupportedConstant text) →
      ∃ c ∈ t.constants, ¬c.IsNumeric ∧ c.display = text := by
  have hvalue : t.evaluate = t.value := run_nil (.tree t)
  rw [hvalue]
  refine ⟨fun hforbidden => ?_, fun hconstants hoperators hunary => ?_, fun symbol h => ?_,
    fun text h => ?_⟩
  · cases h : t.value with
    | error rejection => exact ⟨rejection, rfl⟩
    | ok v =>
      obtain ⟨hconstants, hoperators, hunary⟩ := t.isArithmetic_iff.1 (isArithmetic_of_value h)
      rcases hforbidden with ⟨c, hmem, hno⟩ | ⟨operator, hmem, hno⟩ | ⟨operator, hmem, hno⟩
      · exact absurd (hconstants c hmem) hno
      · exact absurd (hoperators operator hmem) hno
      · exact absurd (hunary operator hmem) hno
  · cases h : t.value with
    | ok v => exact .inl ⟨v, rfl⟩
    | error rejection =>
      cases failure_of_value h with
      | math failure => exact .inr ⟨failure, rfl⟩
      | constant hmem hno => exact absurd (hconstants _ hmem) hno
      | operator hmem hno => exact absurd (hoperators _ hmem) hno
      | unaryOperator hmem hno => exact absurd (hunary _ hmem) hno
  · generalize hrejection : Rejection.unsupportedOperator symbol = rejection at h
    cases failure_of_value h with
    | math failure => cases hrejection
    | constant hmem hno => cases hrejection
    | operator hmem hno =>
      cases hrejection
      exact .inl ⟨_, hmem, hno, rfl⟩
    | unaryOperator hmem hno =>
      cases hrejection
      exact .inr ⟨_, hmem, hno, rfl⟩
  · generalize hrejection : Rejection.unsupportedConstant text = rejection at h
    cases failure_of_value h with
    | constant hmem hno =>
      cases hrejection
      exact ⟨_, hmem, hno, rfl⟩
    | _ => cases hrejection

/-- A division by zero hides a `<<` further up, but does not cure it, and the exponent zero does not
    cure a text in the base; without them, the division alone fails. -/
theorem evaluate_whitelist_hidden :
    (∃ rejection, (binary (binary (constant (.integer 1)) .floorDivide (constant (.integer 0)))
        .leftShift (constant (.integer 2))).evaluate = .error rejection) ∧
      ((∃ v, (binary (constant (.integer 1)) .floorDivide (constant (.integer 0))).evaluate =
          .ok v) ∨
        ∃ failure, (binary (constant (.integer 1)) .floorDivide
          (constant (.integer 0))).evaluate = .error (.math failure)) ∧
      (∃ operator ∈ (unary .invert (constant (.integer 5))).unaryOperators,
        ¬operator.IsArithmetic ∧ operator.symbol = "~") ∧
      ∃ c ∈ (binary (constant (.text "a")) .power (constant (.integer 0))).constants,
        ¬c.IsNumeric ∧ c.display = "'a'" := by
  obtain ⟨hrefused, -⟩ := evaluate_whitelist (binary (binary (constant (.integer 1)) .floorDivide
    (constant (.integer 0))) .leftShift (constant (.integer 2)))
  obtain ⟨-, hallowed, -⟩ := evaluate_whitelist
    (binary (constant (.integer 1)) .floorDivide (constant (.integer 0)))
  obtain ⟨-, -, hsymbol, -⟩ := evaluate_whitelist (unary .invert (constant (.integer 5)))
  obtain ⟨-, -, -, htext⟩ := evaluate_whitelist
    (binary (constant (.text "a")) .power (constant (.integer 0)))
  refine ⟨hrefused (.inr (.inl ⟨.leftShift, by decide, id⟩)),
    hallowed (by decide) (by decide) (by decide), ?_, htext "'a'" ?_⟩
  · refine (hsymbol "~" ?_).resolve_left ?_
    · rw [evaluate, run_tree]
      rfl
    · rintro ⟨operator, hmem, -⟩
      cases hmem
  · rw [evaluate, run_tree]
    rfl

end Tree

end Calculator
