import Calculator.Proofs.Lexemes
import Mathlib.Data.List.Find

/-!
# Texts before a break

No token goes on with a closing bracket or with a character that separates tokens, and none that is
complete at the end of a text could go on at all. So a text is read the same way before such a
character as at its end, as long as everything in it is some token.

* `Token.isBreak`: the characters with which no token goes on.

Results:
* `Token.read?_break`: what is read before a break.
* `Token.exists_scan_break`: the tokens of a text before a break.
* `Token.scan_before_closing`: the tokens of a text before a closing bracket.
-/

namespace Calculator

/-- The characters with which no token goes on: those that separate tokens, and the bracket that
    closes a group. -/
def Token.isBreak (c : Char) : Bool := isGap c || c == ')'

namespace Token

variable {d : Char}

theorem isBreak_cases (h : isBreak d) :
    d = ' ' ∨ d = '\t' ∨ d = '\r' ∨ d = '\n' ∨ d = ')' := by
  simpa [isBreak, isGap, or_assoc] using h

/-- A break is nothing that a number or a word could go on with. -/
theorem isBreak_apart (h : isBreak d) :
    d.isDigit = false ∧ Text.continuesWord d = false ∧ d ∉ ['.', '+', '-', 'e', 'E'] := by
  rcases isBreak_cases h with rfl | rfl | rfl | rfl | rfl <;> decide

end Token

theorem takeWhile_break {p : Char → Bool} {d : Char} (hp : p d = false) (cs rest : List Char) :
    (cs ++ d :: rest).takeWhile p = cs.takeWhile p := by
  induction cs with
  | nil => simp [hp]
  | cons c cs ih => simp only [List.cons_append, List.takeWhile_cons, ih]

/-! ## Numbers -/

namespace Numeral

variable {d : Char}

theorem digits_break (hd : Token.isBreak d) (cs rest : List Char) :
    digits (cs ++ d :: rest) = digits cs :=
  takeWhile_break (Token.isBreak_apart hd).1 cs rest

theorem exponentSign_break (hd : Token.isBreak d) (cs rest : List Char) :
    exponentSign (cs ++ d :: rest) = exponentSign cs ∧ (exponentSign cs).2 ≤ cs.length := by
  cases cs with
  | nil =>
    refine ⟨?_, Nat.le_refl 0⟩
    rcases Token.isBreak_cases hd with rfl | rfl | rfl | rfl | rfl <;> rfl
  | cons c cs =>
    by_cases hplus : c = '+'
    · subst hplus
      exact ⟨rfl, Nat.le_add_left 1 _⟩
    · by_cases hminus : c = '-'
      · subst hminus
        exact ⟨rfl, Nat.le_add_left 1 _⟩
      · simp [exponentSign, hplus, hminus]

theorem exponent?_break (hd : Token.isBreak d) (cs rest : List Char) :
    exponent? (cs ++ d :: rest) = exponent? cs := by
  cases cs with
  | nil =>
    obtain ⟨-, -, hletters⟩ := Token.isBreak_apart hd
    simp only [List.mem_cons, not_or] at hletters
    simp [exponent?, hletters]
  | cons c cs =>
    obtain ⟨hsign, hwidth⟩ := exponentSign_break hd cs rest
    have hdrop : (cs ++ d :: rest).drop (exponentSign cs).2 =
        cs.drop (exponentSign cs).2 ++ d :: rest := List.drop_append_of_le_length hwidth
    simp only [List.cons_append, exponent?, hsign, hdrop, digits_break hd]

theorem read?_break (hd : Token.isBreak d) (cs rest : List Char) :
    read? (cs ++ d :: rest) = read? cs := by
  obtain ⟨hnodigit, -, hmarks⟩ := Token.isBreak_apart hd
  have hdigit : Stops Char.isDigit (d :: rest) := Stops.cons_iff.2 hnodigit
  have hpoint : Stops (· == '.') (d :: rest) :=
    Stops.cons_iff.2 (beq_false_of_ne (List.ne_of_not_mem_cons hmarks))
  obtain ⟨whole, tail, rfl, hw, ht⟩ := Stops.exists_append Char.isDigit cs
  rcases Stops.or_exists_cons '.' tail with hp | ⟨tail, rfl⟩
  · rw [List.append_assoc, read?_unpointed hw (ht.append hdigit) (hp.append hpoint),
      read?_unpointed hw ht hp, exponent?_break hd]
  · obtain ⟨fraction, tail, rfl, hf, htail⟩ := Stops.exists_append Char.isDigit tail
    rw [List.append_assoc, List.cons_append, List.append_assoc,
      read?_pointed hw hf (htail.append hdigit), read?_pointed hw hf htail, exponent?_break hd]

end Numeral

namespace Token

variable {d : Char}

/-- A mark is at most two characters, and a break is not the second one. -/
theorem marks_break (hd : isBreak d) : ∀ mark ∈ marks, ∀ c cs rest,
    mark.1.isPrefixOf (c :: (cs ++ d :: rest)) = mark.1.isPrefixOf (c :: cs) := by
  have hshape : ∀ mark ∈ marks,
      (∃ a, mark.1 = [a]) ∨ ∃ a b, isBreak b = false ∧ mark.1 = [a, b] := by
    simp [marks, isBreak, isGap]
  intro mark hmark c cs rest
  rcases hshape mark hmark with ⟨a, hmark⟩ | ⟨a, b, hb, hmark⟩
  · simp [hmark, List.isPrefixOf]
  · have hne : b ≠ d := by
      rintro rfl
      rw [hb] at hd
      cases hd
    cases cs <;> simp [hmark, List.isPrefixOf, hne]

theorem mark?_break (hd : isBreak d) (c : Char) (cs rest : List Char) :
    mark? (c :: (cs ++ d :: rest)) = mark? (c :: cs) := by
  rw [mark?, mark?, List.find?_congr fun mark hmark => marks_break hd mark hmark c cs rest]

theorem startsNumeral_break (hd : isBreak d) (afterOperand : Bool) (c : Char)
    (cs rest : List Char) :
    startsNumeral afterOperand c (cs ++ d :: rest) = startsNumeral afterOperand c cs := by
  cases cs with
  | nil => simp [startsNumeral, (isBreak_apart hd).1]
  | cons e cs => rfl

/-- What is read at the start of a text is read there before a break. -/
theorem read?_break {afterOperand : Bool} {c : Char} {cs : List Char} {kind : Kind} {width : Nat}
    (hd : isBreak d) (h : read? afterOperand c cs = some (kind, width)) (rest : List Char) :
    read? afterOperand c (cs ++ d :: rest) = some (kind, width) := by
  unfold read? at h ⊢
  rw [startsNumeral_break hd]
  split at h
  · rename_i hstarts
    rw [if_pos hstarts, ← List.cons_append, Numeral.read?_break hd]
    exact h
  · rename_i hstarts
    rw [if_neg hstarts]
    split at h
    · rename_i hquote
      have hescape : c ≠ '\\' := by rcases hquote with rfl | rfl <;> decide
      rw [if_pos hquote]
      obtain ⟨content, hread, heq⟩ := Option.map_eq_some_iff.1 h
      obtain ⟨tail, rfl, hcontent⟩ := Quoted.content?_sound hread
      rw [List.append_assoc, List.cons_append, Quoted.content?_append hescape hcontent]
      exact congrArg some heq
    · rename_i hquote
      rw [if_neg hquote, takeWhile_break (isBreak_apart hd).2.1, mark?_break hd]
      exact h

/-- The tokens of a text before a break are those of the text, and then whatever the scanner finds
    from the break on. -/
theorem exists_scan_break (hd : isBreak d) (afterOperand : Bool) (point : Nat)
    (cs rest : List Char) (h : ∀ token ∈ scan afterOperand point cs, token.kind ≠ .unknown) :
    ∃ ended, scan afterOperand point (cs ++ d :: rest) =
      scan afterOperand point cs ++ scan ended (point + cs.length) (d :: rest) := by
  fun_induction scan afterOperand point cs with
  | case1 afterOperand point => exact ⟨afterOperand, rfl⟩
  | case2 afterOperand point c cs hgap ih =>
    obtain ⟨ended, hscan⟩ := ih h
    refine ⟨ended, ?_⟩
    rw [List.cons_append, scan, if_pos hgap, hscan, List.length_cons, Nat.add_right_comm,
      Nat.add_assoc point]
  | case3 afterOperand point c cs hgap hread => exact absurd rfl (h _ List.mem_cons_self)
  | case4 afterOperand point c cs hgap kind width hread ih =>
    obtain ⟨_, hlater⟩ := List.forall_mem_cons.1 h
    obtain ⟨word, tail, htext, rfl, hlexeme⟩ := read?_sound hread
    obtain ⟨e, es, rfl⟩ := List.exists_cons_of_ne_nil hlexeme.ne_nil
    obtain ⟨rfl, rfl⟩ : c = e ∧ cs = es ++ tail := List.cons.inj htext
    simp only [List.length_cons, Nat.add_sub_cancel, List.drop_left] at ih hlater ⊢
    obtain ⟨ended, hscan⟩ := ih hlater
    refine ⟨ended, ?_⟩
    have hlength :
        point + (es.length + 1) + tail.length = point + (es.length + tail.length + 1) := by
      omega
    rw [List.cons_append, scan, if_neg hgap, read?_break hd hread rest]
    simp only [List.length_cons, Nat.add_sub_cancel, List.append_assoc, List.drop_left]
    rw [hscan, List.length_append, hlength, List.cons_append]

/-- The tokens of a text before a closing bracket are those of the text, and then the bracket. -/
theorem scan_before_closing (afterOperand : Bool) (point : Nat) (cs rest : List Char)
    (h : ∀ token ∈ scan afterOperand point cs, token.kind ≠ .unknown) :
    scan afterOperand point (cs ++ ')' :: rest) =
      scan afterOperand point cs ++
        ⟨.closing .round, ⟨point + cs.length, point + cs.length + 1⟩⟩ ::
          scan true (point + cs.length + 1) rest := by
  obtain ⟨ended, hscan⟩ := exists_scan_break (d := ')') rfl afterOperand point cs rest h
  rw [hscan, scan_closing]

end Token

end Calculator
