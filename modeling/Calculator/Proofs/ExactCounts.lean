import Calculator.Proofs.Composition
import Calculator.Proofs.Surroundings
import Mathlib.Data.Nat.PSub

/-!
# Counts that are never below zero

The nesting pass takes the length of a chain off the total when it ends the chain or closes the
bracket around it, and one off the number of chains to get the number of open brackets. However
brackets, quotes and operators stand in a text, none of these differences is below zero, the total
is that of the chains, and no level is open without a character that opened it.

* `Nesting.Count.step?`, `Nesting.run?`: the pass with checked differences.
* `Nesting.Reached`: the counts that the pass reaches in a text, with what is still unread.

Results:
* `Nesting.Count.Consistent.step?_eq_some`: where the totals are right, no difference is below zero.
* `Nesting.Reached.consistent`, `Nesting.Reached.depth_add_length_le`: what holds of every count
  that is reached.
* `Nesting.counts_exact`: both together, for every text.
-/

namespace Calculator.Nesting

/-! ## Checked differences -/

namespace Count

/-- Ends the innermost chain, if it is no longer than the total. -/
def reset? (count : Count) : Option Count :=
  match count.chains with
  | [] => some { count with afterOperand := false }
  | chain :: outer => do
    let chained ← count.chained.psub chain
    some { count with chains := 0 :: outer, chained := chained, afterOperand := false }

/-- Closes the innermost bracket with its chain, if there is one and the chain is no longer than the
    total. A bracket too many closes nothing. -/
def leave? (count : Count) : Option Count :=
  match count.chains with
  | chain :: enclosing :: outer => do
    let brackets ← count.brackets.psub 1
    let chained ← count.chained.psub chain
    some
      { count with
        brackets := brackets, chains := enclosing :: outer, chained := chained,
        afterOperand := true }
  | _ => some { count with afterOperand := true }

/-- What a piece changes. Only a piece that ends a chain takes anything off. -/
def move? (count : Count) : Piece → Option Count
  | .closing => count.leave?
  | .sign => if count.afterOperand then count.reset? else some count.link
  | .connective | .other => count.reset?
  | piece => some (count.move piece)

/-- The levels that are open. There is one chain more than there are brackets. -/
def depth? (count : Count) : Option Nat := do
  let brackets ← count.chains.length.psub 1
  some (brackets + count.chained)

/-- Reads a piece. -/
def step? (count : Count) (piece : Piece) : Option Count := do
  let moved ← count.move? piece
  let depth ← moved.depth?
  some { moved with deepest := max moved.deepest depth }

end Count

/-- Reads a text piece by piece, as long as no difference is below zero. -/
def run? (count : Count) : List Char → Option Count
  | [] => some count
  | c :: cs =>
    let (piece, width) := next c cs
    (count.step? piece).bind fun moved => run? moved (cs.drop width)
termination_by cs => cs.length
decreasing_by simp only [List.length_drop, List.length_cons]; omega

namespace Count.Consistent

variable {count : Count}

theorem reset?_eq_some (h : count.Consistent) : count.reset? = some count.reset := by
  obtain ⟨chain, outer, afterOperand, deepest, rfl⟩ := h.exists_cons
  have hle : chain ≤ chain + outer.sum := Nat.le_add_right _ _
  simp only [reset?, Nat.psub_eq_sub hle, Option.bind_eq_bind, Option.bind_some]
  rfl

theorem leave?_eq_some (h : count.Consistent) : count.leave? = some count.leave := by
  obtain ⟨chain, outer, afterOperand, deepest, rfl⟩ := h.exists_cons
  cases outer with
  | nil => rfl
  | cons enclosing outer =>
    have hle : chain ≤ chain + (enclosing :: outer).sum := Nat.le_add_right _ _
    have hpos : 1 ≤ (enclosing :: outer).length := Nat.succ_pos _
    simp only [leave?, Nat.psub_eq_sub hle, Nat.psub_eq_sub hpos, Option.bind_eq_bind,
      Option.bind_some]
    rfl

theorem move?_eq_some (h : count.Consistent) (piece : Piece) :
    count.move? piece = some (count.move piece) := by
  cases piece with
  | closing => exact h.leave?_eq_some
  | sign =>
    rw [move?, Count.move, h.reset?_eq_some]
    split <;> rfl
  | connective | other => exact h.reset?_eq_some
  | _ => rfl

theorem depth?_eq_some (h : count.Consistent) : count.depth? = some count.depth := by
  have hbrackets : count.chains.length.psub 1 = some count.brackets :=
    Nat.psub_eq_some.2 h.length.symm
  rw [depth?, hbrackets]
  rfl

/-- Where the totals are right, no difference is below zero. -/
theorem step?_eq_some (h : count.Consistent) (piece : Piece) :
    count.step? piece = some (count.step piece) := by
  have hdepth := (h.move piece).depth?_eq_some
  simp only [step?, h.move?_eq_some, hdepth, Option.bind_eq_bind, Option.bind_some]
  rfl

end Count.Consistent

/-- So no difference is below zero in a whole run. -/
theorem run?_eq_some {count : Count} (h : count.Consistent) (cs : List Char) :
    run? count cs = some (run count cs) := by
  fun_induction run count cs with
  | case1 count => rw [run?]
  | case2 count c cs piece width hnext ih =>
    have hstep := h.step?_eq_some piece
    rw [run?]
    simp only [hnext, hstep, Option.bind_some]
    exact ih (h.step piece)

/-! ## The counts that are reached -/

/-- The counts that the pass reaches in a text, with what is still unread. -/
inductive Reached (text : List Char) : Count → List Char → Prop where
  | start : Reached text .initial text
  | piece {count : Count} {c : Char} {cs : List Char} :
    Reached text count (c :: cs) →
    Reached text (count.step (next c cs).1) (cs.drop (next c cs).2)

namespace Reached

variable {text rest : List Char} {count : Count}

/-- The last count is reached. -/
theorem last (h : Reached text count rest) : Reached text (run count rest) [] := by
  fun_induction run count rest with
  | case1 count => exact h
  | case2 count c cs piece width hnext ih =>
    have hreached := h.piece
    rw [hnext] at hreached
    exact ih hreached

theorem isSuffix (h : Reached text count rest) : rest <:+ text := by
  induction h with
  | start => exact List.suffix_rfl
  | piece _ ih => exact (List.drop_suffix _ _).trans ((List.suffix_cons _ _).trans ih)

theorem consistent (h : Reached text count rest) : count.Consistent := by
  induction h with
  | start => exact Count.consistent_initial
  | piece _ ih => exact ih.step _

/-- No level is open without a character of its own. -/
theorem depth_add_length_le (h : Reached text count rest) :
    count.depth + rest.length ≤ text.length := by
  induction h with
  | start => exact (Nat.zero_add _).le
  | @piece count c cs _ ih =>
    -- a piece takes one character at least and opens one level at most
    have hdepth := (count.depth_move_le (next c cs).1).1
    have hstep : (count.step (next c cs).1).depth = (count.move (next c cs).1).depth := rfl
    rw [List.length_cons] at ih
    rw [hstep, List.length_drop]
    omega

end Reached

/-- **The counts are exact.** In no text is a difference below zero, and at every count that the
    pass reaches there are chains, one more than open brackets, the total is that of their lengths,
    and no more levels are open than characters are read. So no text nests more deeply than it is
    long. -/
theorem counts_exact (text : List Char) :
    run? .initial text = some (run .initial text) ∧
      (∀ count rest, Reached text count rest →
        count.chains ≠ [] ∧ count.chains.length - 1 = count.brackets ∧
          count.chained = count.chains.sum ∧
          ∃ consumed, text = consumed ++ rest ∧
            count.brackets + count.chained ≤ consumed.length) ∧
      Reached text (run .initial text) [] ∧ depth text ≤ text.length := by
  refine ⟨run?_eq_some Count.consistent_initial text, fun count rest h => ?_, Reached.start.last,
    depth_le_length text⟩
  obtain ⟨hlength, hsum⟩ := h.consistent
  obtain ⟨consumed, rfl⟩ := h.isSuffix
  have hdepth : count.brackets + count.chained + rest.length ≤ (consumed ++ rest).length :=
    h.depth_add_length_le
  rw [List.length_append] at hdepth
  refine ⟨List.ne_nil_of_length_pos (by omega), by omega, hsum, consumed, rfl, by omega⟩

/-- A bracket too many, one that is closed by another kind, and a quote that stays open. -/
theorem counts_exact_mismatched :
    Reached "](+[-)\"*".toList ⟨1, [1, 0], 1, true, 4⟩ ['"', '*'] ∧ 1 = [1, 0].sum ∧
      ∃ consumed, "](+[-)\"*".toList = consumed ++ ['"', '*'] ∧ 1 + 1 ≤ consumed.length := by
  have hstart : Reached "](+[-)\"*".toList .initial [']', '(', '+', '[', '-', ')', '"', '*'] :=
    .start
  have hopened : Reached "](+[-)\"*".toList ⟨1, [1, 0], 1, false, 2⟩ ['[', '-', ')', '"', '*'] :=
    hstart.piece.piece.piece
  have hreached : Reached "](+[-)\"*".toList ⟨1, [1, 0], 1, true, 4⟩ ['"', '*'] :=
    hopened.piece.piece.piece
  obtain ⟨-, -, hsum, hconsumed⟩ := (counts_exact "](+[-)\"*".toList).2.1 _ _ hreached
  exact ⟨hreached, hsum, hconsumed⟩

end Calculator.Nesting
