import Calculator.Evaluator
import Calculator.Proofs.Levels
import Calculator.Proofs.Surroundings

/-!
# The nesting pass sees every bracket

The pass has rules of its own for the extent of numbers and words, and takes `1or` for one number
where the scanner reads two tokens. But neither reads a bracket or a quote as a part of these, so
that both agree on quoted texts and on the brackets outside of them.

* `Text.unquoted`: the characters of a text outside its quoted texts.
* `Text.openBrackets`: the brackets that are open behind some characters.

Results:
* `Nesting.bracketsIn_unquoted`: the brackets outside the quoted texts are those of the tokens.
* `Nesting.openBrackets_le_deepest`: the pass counts every bracket that it sees.
* `Text.openBrackets_le_depth`: no more brackets are open at once in an expression than the pass
  says.
-/

namespace Calculator

/-! ## Open brackets -/

namespace Text

/-- The characters that open a bracket. -/
def isOpening (c : Char) : Bool := c == '(' || c == '[' || c == '{'

/-- The characters that close a bracket. -/
def isClosing (c : Char) : Bool := c == ')' || c == ']' || c == '}'

/-- The brackets that are open behind some characters. -/
def openBrackets (cs : List Char) : Nat := cs.countP isOpening - cs.countP isClosing

end Text

/-- Quoted texts. -/
def Token.Kind.isQuoted : Token.Kind → Bool
  | .literal (.text _) => true
  | _ => false

/-- The characters of a token in a text, but those of a quoted text. -/
def Token.unquoted (text : List Char) (token : Token) : List Char :=
  if token.kind.isQuoted then [] else token.span.of text

/-- The characters of a text outside its quoted texts, apart from the gaps between tokens. -/
def Text.unquoted (text : List Char) : List Char :=
  (Token.ofText text).flatMap (Token.unquoted text)

namespace Nesting

/-! ## The scanner -/

/-- The bracket that a character is. -/
def bracketOf (c : Char) : List Piece :=
  if Text.isOpening c then [.opening] else if Text.isClosing c then [.closing] else []

/-- The brackets among some characters. -/
def bracketsIn (cs : List Char) : List Piece := cs.flatMap bracketOf

theorem bracketOf_of_isFlat {c : Char} (h : isFlat c) : bracketOf c = [] := by
  simp only [isFlat, delimiters, List.contains_eq_mem, List.mem_cons, List.not_mem_nil, or_false,
    Bool.not_eq_true', decide_eq_false_iff_not, not_or] at h
  simp [bracketOf, Text.isOpening, Text.isClosing, h]

theorem bracketsIn_of_isFlat {cs : List Char} (h : ∀ c ∈ cs, isFlat c) : bracketsIn cs = [] := by
  refine List.flatMap_eq_nil_iff.2 fun c hc => ?_
  exact bracketOf_of_isFlat (h c hc)

theorem bracketsIn_append (front back : List Char) :
    bracketsIn (front ++ back) = bracketsIn front ++ bracketsIn back :=
  List.flatMap_append

/-- The brackets of a lexeme are those of its token, if it is no quoted text. -/
theorem bracketsIn_lexeme {word rest : List Char} {kind : Token.Kind} (h : Lexeme word rest kind)
    (hkind : kind.isQuoted = false) : bracketsIn word = (Piece.ofKind kind).brackets := by
  cases h with
  | number hnumber => exact bracketsIn_of_isFlat (isFlat_number hnumber)
  | text => cases hkind
  | @word c cs _ hc hcs =>
    have hflat : ∀ d ∈ c :: cs, isFlat d := List.forall_mem_cons.2
      ⟨isFlat_of_continuesWord (continuesWord_of_startsWord hc), fun d hd =>
        isFlat_of_continuesWord (hcs d hd)⟩
    rw [bracketsIn_of_isFlat hflat, ← ofWord_eq, brackets_ofWord]
  | mark hmark =>
    have hmarks : ∀ mark ∈ Token.marks, bracketsIn mark.1 = (Piece.ofKind mark.2).brackets := by
      decide
    exact hmarks _ hmark

/-- The characters of a token that has been read stand in its span. -/
theorem unquoted_of_lexeme (before : List Char) {word rest : List Char} {kind : Token.Kind}
    (h : Lexeme word rest kind) :
    bracketsIn (Token.unquoted (before ++ (word ++ rest))
        ⟨kind, ⟨before.length, before.length + word.length⟩⟩) =
      (Piece.ofKind kind).brackets := by
  unfold Token.unquoted
  split
  · rename_i hquoted
    unfold Token.Kind.isQuoted at hquoted
    split at hquoted
    · rename_i content hkind
      dsimp only at hkind
      rw [hkind]
      rfl
    · cases hquoted
  · rename_i hquoted
    have hword : (Span.mk before.length (before.length + word.length)).of
        (before ++ (word ++ rest)) = word := by
      simp [Span.of]
    rw [hword]
    exact bracketsIn_lexeme h (Bool.eq_false_iff.2 hquoted)

/-- The brackets outside the quoted texts are those of the tokens, behind whatever they stand. -/
theorem bracketsIn_scan (afterOperand : Bool) (before cs : List Char)
    (hknown : ∀ token ∈ Token.scan afterOperand before.length cs, token.kind ≠ .unknown) :
    bracketsIn ((Token.scan afterOperand before.length cs).flatMap
        (Token.unquoted (before ++ cs))) =
      bracketsOf (Token.scan afterOperand before.length cs) := by
  generalize hpoint : before.length = point at hknown ⊢
  fun_induction Token.scan afterOperand point cs generalizing before with
  | case1 => rfl
  | case2 afterOperand point c cs hgap ih =>
    have hlater := ih (before ++ [c]) (by simp [hpoint]) hknown
    rwa [List.append_assoc, List.singleton_append] at hlater
  | case3 => exact absurd rfl (hknown _ List.mem_cons_self)
  | case4 afterOperand point c cs hgap kind width hread ih =>
    obtain ⟨tail, rest, rfl, rfl, hlexeme⟩ := Token.exists_word hread
    rw [List.length_cons, Nat.add_sub_cancel, List.drop_left] at ih hknown ⊢
    obtain ⟨-, hlater⟩ := List.forall_mem_cons.1 hknown
    have hrest := ih (before ++ c :: tail) (by simp [hpoint]) hlater
    rw [List.append_assoc, List.cons_append] at hrest
    have hfirst := unquoted_of_lexeme before hlexeme
    rw [List.cons_append, List.length_cons, hpoint] at hfirst
    rw [List.flatMap_cons, bracketsIn_append, hfirst, hrest]
    rfl

/-- Outside the quoted texts of a text, the pass finds the brackets that stand there. -/
theorem bracketsIn_unquoted {text : List Char}
    (hknown : ∀ token ∈ Token.ofText text, token.kind ≠ .unknown) :
    bracketsIn (Text.unquoted text) = brackets text := by
  have hscan := bracketsIn_scan false [] text hknown
  rw [brackets_of_scan hknown]
  exact hscan

/-! ## The pass -/

namespace Count

/-- A piece that is no bracket leaves the open ones as they are. -/
theorem brackets_step_of_nil {count : Count} {piece : Piece} (h : count.Consistent)
    (hpiece : piece.brackets = []) : (count.step piece).brackets = count.brackets := by
  obtain ⟨chain, outer, afterOperand, deepest, rfl⟩ := h.exists_cons
  cases piece with
  | opening | closing => cases hpiece
  | sign => cases afterOperand <;> rfl
  | _ => rfl

/-- A closing bracket closes at most one. -/
theorem brackets_le_step_closing {count : Count} (h : count.Consistent) :
    count.brackets ≤ (count.step .closing).brackets + 1 := by
  obtain ⟨chain, outer, afterOperand, deepest, rfl⟩ := h.exists_cons
  cases outer with
  | nil => exact Nat.zero_le _
  | cons enclosing outer => exact Nat.le_refl _

end Count

/-- The open brackets before any of the brackets of a text are within the greatest depth. -/
theorem brackets_le_deepest {count : Count} (hsettled : count.Settled) (cs : List Char) :
    count.brackets ≤ (run count cs).deepest := by
  have hdeepest := count.deepest_le_run cs
  have hdepth : count.brackets + count.chained ≤ count.deepest := hsettled
  omega

/-- The pass counts every bracket that it sees: wherever it stands among the brackets of a text,
    those that are open are within the greatest depth. -/
theorem openBrackets_le_deepest {count : Count} (h : count.Consistent) (hsettled : count.Settled)
    {cs : List Char} {front : List Piece} (hfront : front <+: brackets cs) :
    count.brackets + front.count .opening ≤ front.count .closing + (run count cs).deepest := by
  fun_induction run count cs generalizing front with
  | case1 count =>
    rw [brackets, List.prefix_nil] at hfront
    subst hfront
    have hdepth : count.brackets + count.chained ≤ count.deepest := hsettled
    simp only [List.count_nil]
    omega
  | case2 count c cs piece width hnext ih =>
    have hdeepest := brackets_le_deepest hsettled (c :: cs)
    rw [run, hnext] at hdeepest
    dsimp only at hdeepest
    rw [brackets_cons, hnext] at hfront
    have hrest {later : List Piece} (hlater : later <+: brackets (cs.drop width)) :=
      ih (h.step piece) (count.settled_step piece) hlater
    by_cases hpiece : piece.brackets = []
    · dsimp only at hfront
      rw [hpiece, List.nil_append] at hfront
      have hcount := hrest hfront
      rwa [Count.brackets_step_of_nil h hpiece] at hcount
    · -- a bracket is the first of them, unless the front ends before it
      cases front with
      | nil => simpa using hdeepest
      | cons first later =>
        cases piece with
        | opening =>
          obtain ⟨rfl, hlater⟩ := List.cons_prefix_cons.1 hfront
          have hcount := hrest hlater
          have hopen : (count.step .opening).brackets = count.brackets + 1 := rfl
          simp only [List.count_cons_self,
            List.count_cons_of_ne (by decide : Piece.opening ≠ .closing)]
          omega
        | closing =>
          obtain ⟨rfl, hlater⟩ := List.cons_prefix_cons.1 hfront
          have hcount := hrest hlater
          have hclosed := Count.brackets_le_step_closing h
          simp only [List.count_cons_self,
            List.count_cons_of_ne (by decide : Piece.closing ≠ .opening)]
          omega
        | _ => exact absurd rfl hpiece

/-! ## Characters -/

theorem count_bracketsIn (cs : List Char) :
    (bracketsIn cs).count .opening = cs.countP Text.isOpening ∧
      (bracketsIn cs).count .closing = cs.countP Text.isClosing := by
  have hexclusive (c : Char) (h : Text.isOpening c) : Text.isClosing c = false := by
    simp only [Text.isOpening, Bool.or_eq_true, beq_iff_eq] at h
    rcases h with (rfl | rfl) | rfl <;> rfl
  induction cs with
  | nil => exact ⟨rfl, rfl⟩
  | cons c cs ih =>
    obtain ⟨hopening, hclosing⟩ := ih
    rw [bracketsIn, List.flatMap_cons, List.count_append, List.count_append, List.countP_cons,
      List.countP_cons, ← hopening, ← hclosing, bracketOf]
    by_cases ho : Text.isOpening c
    · simp [ho, hexclusive c ho, bracketsIn, Nat.add_comm]
    · by_cases hc : Text.isClosing c
      · simp [ho, hc, bracketsIn, Nat.add_comm]
      · simp [ho, hc, bracketsIn]

end Nesting

open Nesting in
/-- **The pass sees every bracket of an expression.** Whether the expression is then accepted or
    refused, no more brackets of any kind are open at once outside its quoted texts than the
    estimate of its nesting. -/
theorem Text.openBrackets_le_depth {text front : List Char} {phrase : Phrase}
    (h : Phrase.ofText text = .ok phrase) (hfront : front <+: Text.unquoted text) :
    Text.openBrackets front ≤ Nesting.depth text := by
  obtain ⟨last, hrun⟩ := Phrase.exists_run h
  obtain ⟨behind, hbehind⟩ := hfront
  have hbrackets : bracketsIn front <+: brackets text := by
    refine ⟨bracketsIn behind, ?_⟩
    rw [← bracketsIn_append, hbehind, bracketsIn_unquoted (State.known_of_run hrun)]
  have hcount := openBrackets_le_deepest Count.consistent_initial Count.settled_initial hbrackets
  obtain ⟨hopening, hclosing⟩ := count_bracketsIn front
  rw [hopening, hclosing] at hcount
  have hnone : Count.initial.brackets = 0 := rfl
  rw [openBrackets, depth]
  omega

/-- Three brackets of three kinds are open before a quoted text with two more, which do not count;
    the pass has taken `1or` for one number before. -/
theorem Text.openBrackets_le_depth_quoted :
    Text.openBrackets "1orf([\x7b".toList ≤
      Nesting.depth "1or f([\x7b'((\\'': 2\x7d, k])".toList := by
  have h : (Phrase.ofText "1or f([\x7b'((\\'': 2\x7d, k])".toList).toBool = true := by
    with_unfolding_all rfl
  cases hphrase : Phrase.ofText "1or f([\x7b'((\\'': 2\x7d, k])".toList with
  | error misfit =>
    rw [hphrase] at h
    cases h
  | ok phrase =>
    refine openBrackets_le_depth hphrase ⟨":2\x7d,k])".toList, ?_⟩
    with_unfolding_all rfl

end Calculator
