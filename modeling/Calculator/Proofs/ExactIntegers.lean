import Calculator.Proofs.Evaluation
import Calculator.Proofs.IntegerRange
import Mathlib.Data.Rat.Floor

/-!
# Integer results are exact

A tree has an integer as its value exactly if integer arithmetic without bounds computes that
integer and never leaves the range of 64 bits on the way.

* `Operator.exact`, `Tree.exact`: values over the unbounded integers. Division rounds down, that is,
  to the floor of the rational quotient.
* `Operator.Admits`, `Tree.StaysWhole`: what keeps an operation within the integers.

Results:
* `Operator.apply_eq_ok_integer_iff`, `UnaryOperator.apply_eq_ok_integer_iff`: one operation.
* `Tree.value_eq_ok_integer_iff`: a tree, by recursion on it.
* `Tree.evaluate_eq_ok_integer_iff`: a tree, by the loop.
-/

namespace Calculator

/-! ## Values over the unbounded integers -/

/-- The value of an operator at two unbounded integers; zero for those operators that do not
    compute integers. -/
def Operator.exact : Operator → ℤ → ℤ → ℤ
  | .add, a, b => a + b
  | .subtract, a, b => a - b
  | .multiply, a, b => a * b
  | .floorDivide, a, b => ⌊(a : ℚ) / b⌋
  | .modulo, a, b => a - b * ⌊(a : ℚ) / b⌋
  | .power, a, b => a ^ b.toNat
  | _, _, _ => 0

/-- The right operands for which an operator has an integer as its value. -/
def Operator.Admits : Operator → ℤ → Prop
  | .add, _ | .subtract, _ | .multiply, _ => True
  | .floorDivide, b | .modulo, b => b ≠ 0
  | .power, b => 0 ≤ b
  | _, _ => False

/-- The value of a unary operator at an unbounded integer. -/
def UnaryOperator.exact : UnaryOperator → ℤ → ℤ
  | .minus, a => -a
  | _, a => a

namespace Tree

/-- The value of a tree over the unbounded integers. -/
def exact : Tree → ℤ
  | .constant (.integer n) => n.toInt
  | .constant _ => 0
  | .binary left operator right => operator.exact left.exact right.exact
  | .unary operator operand => operator.exact operand.exact

/-- All subtrees of a tree, itself included. -/
def subtrees : Tree → List Tree
  | .constant c => [.constant c]
  | .binary left operator right =>
    .binary left operator right :: (left.subtrees ++ right.subtrees)
  | .unary operator operand => .unary operator operand :: operand.subtrees

/-- The root of a tree is an integer, a sign, or an integer operation that is defined: a divisor is
    not zero and an exponent is not negative. -/
def StaysWhole : Tree → Prop
  | .constant (.integer _) => True
  | .constant _ => False
  | .binary _ operator right => operator.Admits right.exact
  | .unary operator _ => operator.IsArithmetic

/-- Every subtree stays within the integers and within their range. -/
def IsRepresentable (t : Tree) : Prop :=
  ∀ s ∈ t.subtrees, s.StaysWhole ∧ Number.InRange s.exact

theorem isRepresentable_constant (c : Constant) :
    (constant c).IsRepresentable ↔ ∃ n, c = .integer n := by
  unfold IsRepresentable subtrees
  cases c with
  | integer n => simp [StaysWhole, exact, Number.inRange_toInt]
  | _ => simp [StaysWhole]

theorem isRepresentable_binary (left right : Tree) (operator : Operator) :
    (binary left operator right).IsRepresentable ↔
      (operator.Admits right.exact ∧ Number.InRange (operator.exact left.exact right.exact)) ∧
        left.IsRepresentable ∧ right.IsRepresentable := by
  unfold IsRepresentable
  rw [subtrees, List.forall_mem_cons, List.forall_mem_append]
  exact Iff.rfl

theorem isRepresentable_unary (operator : UnaryOperator) (operand : Tree) :
    (unary operator operand).IsRepresentable ↔
      (operator.IsArithmetic ∧ Number.InRange (operator.exact operand.exact)) ∧
        operand.IsRepresentable := by
  unfold IsRepresentable
  rw [subtrees, List.forall_mem_cons]
  exact Iff.rfl

end Tree

/-! ## Floored division -/

theorem floor_div_eq_fdiv (a b : ℤ) : ⌊(a : ℚ) / b⌋ = a.fdiv b := by
  have of_nonneg : ∀ (a : ℤ) (d : ℕ), ⌊(a : ℚ) / (d : ℤ)⌋ = a.fdiv d := by
    intro a d
    rw [Int.fdiv_eq_ediv_of_nonneg a (Int.natCast_nonneg d)]
    exact Rat.floor_intCast_div_natCast a d
  rcases Int.eq_nat_or_neg b with ⟨d, rfl | rfl⟩
  · exact of_nonneg a d
  · -- both signs of the quotient can be turned round
    have h := of_nonneg (-a) d
    rw [Int.cast_neg, neg_div, ← div_neg, ← Int.cast_neg] at h
    rw [h, ← Int.neg_fdiv_neg, neg_neg]

/-! ## The elementary operations -/

namespace Number

theorem ofInt_eq_ok_integer_iff {z : ℤ} {n : Int64} :
    ofInt z = .ok (.integer n) ↔ z = n.toInt := by
  rw [ofInt_eq_ok_iff]
  constructor
  · rintro ⟨m, hm, rfl⟩
    cases hm
    rfl
  · intro h
    exact ⟨n, rfl, h.symm⟩

variable {a b : Number} {n : Int64}

theorem add_eq_ok_integer_iff :
    a.add b = .ok (.integer n) ↔
      ∃ x y : Int64, a = .integer x ∧ b = .integer y ∧ x.toInt + y.toInt = n.toInt := by
  cases a <;> cases b <;> simp [add, ofInt_eq_ok_integer_iff]

theorem sub_eq_ok_integer_iff :
    a.sub b = .ok (.integer n) ↔
      ∃ x y : Int64, a = .integer x ∧ b = .integer y ∧ x.toInt - y.toInt = n.toInt := by
  cases a <;> cases b <;> simp [sub, ofInt_eq_ok_integer_iff]

theorem mul_eq_ok_integer_iff :
    a.mul b = .ok (.integer n) ↔
      ∃ x y : Int64, a = .integer x ∧ b = .integer y ∧ x.toInt * y.toInt = n.toInt := by
  cases a <;> cases b <;> simp [mul, ofInt_eq_ok_integer_iff]

theorem neg_eq_ok_integer_iff :
    a.neg = .ok (.integer n) ↔ ∃ x : Int64, a = .integer x ∧ -x.toInt = n.toInt := by
  cases a <;> simp [neg, ofInt_eq_ok_integer_iff]

/-- A division of doubles never leads back to the integers, even if its quotient is whole. -/
theorem division_ne_ok_integer (failure : MathError) (zero : Bool) (x : Float) :
    (if zero then .error failure else .ok (.float x)) ≠
      (.ok (.integer n) : Except MathError Number) := by
  split <;> simp

theorem division_eq_ok_integer_iff (failure : MathError) (y : Int64) (z : ℤ) :
    (if y = 0 then .error failure else ofInt z) = .ok (.integer n) ↔
      y.toInt ≠ 0 ∧ z = n.toInt := by
  have hy : y.toInt ≠ 0 ↔ ¬y = 0 := by
    rw [← Int64.toInt_inj]
    rfl
  rw [hy]
  split
  · rename_i h
    simp [h]
  · rename_i h
    simp [h, ofInt_eq_ok_integer_iff]

theorem div_ne_ok_integer : a.div b ≠ .ok (.integer n) := division_ne_ok_integer _ _ _

theorem floorDiv_eq_ok_integer_iff :
    a.floorDiv b = .ok (.integer n) ↔
      ∃ x y : Int64, a = .integer x ∧ b = .integer y ∧ y.toInt ≠ 0 ∧
        ⌊(x.toInt : ℚ) / y.toInt⌋ = n.toInt := by
  simp only [floor_div_eq_fdiv]
  cases a <;> cases b <;>
    simp [floorDiv, division_ne_ok_integer, division_eq_ok_integer_iff]

theorem mod_eq_ok_integer_iff :
    a.mod b = .ok (.integer n) ↔
      ∃ x y : Int64, a = .integer x ∧ b = .integer y ∧ y.toInt ≠ 0 ∧
        x.toInt - y.toInt * ⌊(x.toInt : ℚ) / y.toInt⌋ = n.toInt := by
  simp only [floor_div_eq_fdiv, ← Int.fmod_def]
  cases a <;> cases b <;> simp [mod, division_ne_ok_integer, division_eq_ok_integer_iff]

theorem map_float_ne_integer (result : Except MathError Float) :
    result.map Number.float ≠ .ok (.integer n) := by
  cases result <;> simp [Except.map]

theorem pow_eq_ok_integer_iff :
    a.pow b = .ok (.integer n) ↔
      ∃ x y : Int64, a = .integer x ∧ b = .integer y ∧ 0 ≤ y.toInt ∧
        x.toInt ^ y.toInt.toNat = n.toInt := by
  cases a with
  | float x =>
    have h : (float x).pow b = (floatPow Float.pow x b.asFloat).map .float := by
      cases b <;> rfl
    simp [h, map_float_ne_integer]
  | integer x =>
    cases b with
    | float y => simp [pow, powWith, map_float_ne_integer]
    | integer y =>
      have h : (integer x).pow (integer y) =
          if 0 ≤ y.toInt then ofInt (x.toInt ^ y.toInt.toNat)
          else if x = 0 then .error .zeroToNegativePower
          else
            (floatPow Float.pow (Binary64.ofInt x.toInt) (Binary64.ofInt y.toInt)).map .float := by
        simp only [pow, powWith, integerPow_eq, Int64.le_iff_toInt_le]
        rfl
      rw [h]
      split
      · rename_i nonneg
        simp [nonneg, ofInt_eq_ok_integer_iff]
      · rename_i negative
        -- the power of a negative exponent is a double, if there is one
        split <;> simp [negative, map_float_ne_integer]

end Number

/-! ## One operation -/

theorem liftMath_eq_ok_iff {α : Type} {result : Except MathError α} {a : α} :
    liftMath result = .ok a ↔ result = .ok a := by
  cases result <;> simp [liftMath]

/-- With a double among its operands no operator has an integer as its value, and with two integers
    only the exact one. -/
theorem Operator.apply_eq_ok_integer_iff (operator : Operator) (a b : Number) (n : Int64) :
    operator.apply a b = .ok (.integer n) ↔
      ∃ x y : Int64, a = .integer x ∧ b = .integer y ∧ operator.Admits y.toInt ∧
        operator.exact x.toInt y.toInt = n.toInt := by
  cases operator with
  | add => simp [apply, liftMath_eq_ok_iff, Number.add_eq_ok_integer_iff, Admits, exact]
  | subtract => simp [apply, liftMath_eq_ok_iff, Number.sub_eq_ok_integer_iff, Admits, exact]
  | multiply => simp [apply, liftMath_eq_ok_iff, Number.mul_eq_ok_integer_iff, Admits, exact]
  | divide => simp [apply, liftMath_eq_ok_iff, Number.div_ne_ok_integer, Admits]
  | power => exact liftMath_eq_ok_iff.trans Number.pow_eq_ok_integer_iff
  | modulo => exact liftMath_eq_ok_iff.trans Number.mod_eq_ok_integer_iff
  | floorDivide => exact liftMath_eq_ok_iff.trans Number.floorDiv_eq_ok_integer_iff
  | _ => simp [apply, Admits]

theorem UnaryOperator.apply_eq_ok_integer_iff (operator : UnaryOperator) (a : Number) (n : Int64) :
    operator.apply a = .ok (.integer n) ↔
      ∃ x : Int64, a = .integer x ∧ operator.IsArithmetic ∧
        operator.exact x.toInt = n.toInt := by
  cases operator with
  | plus => simp [apply, IsArithmetic, exact, Int64.toInt_inj]
  | minus => simp [apply, liftMath_eq_ok_iff, Number.neg_eq_ok_integer_iff, IsArithmetic, exact]
  | _ => simp [apply, IsArithmetic]

/-! ## Whole trees -/

namespace Tree

theorem mem_subtrees_self (t : Tree) : t ∈ t.subtrees := by
  cases t <;> simp [subtrees]

theorem IsRepresentable.exists_toInt_eq_exact {t : Tree} (h : t.IsRepresentable) :
    ∃ n : Int64, n.toInt = t.exact :=
  ⟨.ofInt t.exact, Number.toInt_ofInt (h t t.mem_subtrees_self).2⟩

theorem value_eq_ok_integer_iff (t : Tree) (n : Int64) :
    t.value = .ok (.integer n) ↔ t.IsRepresentable ∧ t.exact = n.toInt := by
  induction t generalizing n with
  | constant c =>
    rw [isRepresentable_constant, value]
    cases c with
    | integer m => simp [Constant.toNumber, exact, Int64.toInt_inj]
    | _ => simp [Constant.toNumber]
  | binary left operator right ihl ihr =>
    rw [isRepresentable_binary, value]
    simp only [bind_eq_ok_iff, Operator.apply_eq_ok_integer_iff]
    constructor
    · rintro ⟨a, ha, b, hb, x, y, rfl, rfl, admits, he⟩
      obtain ⟨hl, hx⟩ := (ihl x).1 ha
      obtain ⟨hr, hy⟩ := (ihr y).1 hb
      rw [exact, hx, hy, he]
      exact ⟨⟨⟨admits, Number.inRange_toInt n⟩, hl, hr⟩, rfl⟩
    · rintro ⟨⟨⟨admits, -⟩, hl, hr⟩, he⟩
      obtain ⟨x, hx⟩ := hl.exists_toInt_eq_exact
      obtain ⟨y, hy⟩ := hr.exists_toInt_eq_exact
      rw [exact, ← hx, ← hy] at he
      rw [← hy] at admits
      exact ⟨.integer x, (ihl x).2 ⟨hl, hx.symm⟩, .integer y, (ihr y).2 ⟨hr, hy.symm⟩,
        x, y, rfl, rfl, admits, he⟩
  | unary operator operand ih =>
    rw [isRepresentable_unary, value]
    simp only [bind_eq_ok_iff, UnaryOperator.apply_eq_ok_integer_iff]
    constructor
    · rintro ⟨a, ha, x, rfl, arithmetic, he⟩
      obtain ⟨hr, hx⟩ := (ih x).1 ha
      rw [exact, hx, he]
      exact ⟨⟨⟨arithmetic, Number.inRange_toInt n⟩, hr⟩, rfl⟩
    · rintro ⟨⟨⟨arithmetic, -⟩, hr⟩, he⟩
      obtain ⟨x, hx⟩ := hr.exists_toInt_eq_exact
      rw [exact, ← hx] at he
      exact ⟨.integer x, (ih x).2 ⟨hr, hx.symm⟩, x, rfl, arithmetic, he⟩

/-- **Integer results are exact.** The value of a tree is the integer `n` if and only if all its
    subtrees stay within the integers, their exact values are in range, and its own is `n`. -/
theorem evaluate_eq_ok_integer_iff (t : Tree) (n : Int64) :
    t.evaluate = .ok (.integer n) ↔
      (∀ s ∈ t.subtrees, s.StaysWhole ∧ -2 ^ 63 ≤ s.exact ∧ s.exact ≤ 2 ^ 63 - 1) ∧
        t.exact = n.toInt := by
  have recursive : t.evaluate = t.value := run_nil (.tree t)
  rw [recursive, value_eq_ok_integer_iff]
  simp only [← Number.inRange_iff]
  rfl

end Tree

end Calculator
