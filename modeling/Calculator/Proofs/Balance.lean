import Calculator.Nesting
import Calculator.Phrase
import Calculator.Proofs.Pieces
import Calculator.Proofs.Slices

/-!
# Brackets that fit together

The brackets of a phrase fit together, and both the scanner and the nesting pass find the same
brackets in a text: those outside its quoted texts.

* `Token.Balanced`: tokens whose brackets fit together.
* `Nesting.brackets`: the brackets of a text outside its quoted texts.
* `Nesting.ClosesAtMost`: brackets that close so many of those before them, and no more.

Results:
* `Phrase.balanced`: the brackets of a phrase fit together.
* `Nesting.closesAtMost_append`: so they close none of those before them.
* `Nesting.brackets_cons`: the brackets of a text, piece by piece.
* `Nesting.brackets_of_scan`: the brackets of a text, token by token.
-/

namespace Calculator

/-! ## Phrases -/

/-- Brackets are the only tokens that enclose others. -/
def Token.Kind.isBracket : Token.Kind → Bool
  | .opening _ | .closing _ => true
  | _ => false

/-- Tokens whose brackets fit together. -/
inductive Token.Balanced : List Token → Prop
  | nil : Balanced []
  | flat {token : Token} {tokens : List Token} (hk : token.kind.isBracket = false) :
    Balanced tokens → Balanced (token :: tokens)
  | enclosed {bracket : Bracket} {opening closing : Span} {inside tokens : List Token} :
    Balanced inside → Balanced tokens →
    Balanced (⟨.opening bracket, opening⟩ :: (inside ++ ⟨.closing bracket, closing⟩ :: tokens))

namespace Token.Balanced

variable {front back : List Token}

theorem append (hf : Balanced front) (hb : Balanced back) : Balanced (front ++ back) := by
  induction hf with
  | nil => exact hb
  | flat hk _ ih => exact .flat hk ih
  | enclosed hi _ _ ih =>
    rw [List.cons_append, List.append_assoc, List.cons_append]
    exact .enclosed hi ih

theorem bracketed {bracket : Bracket} {opening closing : Span} (h : Balanced front) :
    Balanced (⟨.opening bracket, opening⟩ :: (front ++ [⟨.closing bracket, closing⟩])) :=
  .enclosed h .nil

end Token.Balanced

mutual

/-- The brackets of a phrase fit together. -/
theorem Phrase.balanced : (phrase : Phrase) → Token.Balanced phrase.tokens
  | .literal _ _ | .name _ => .flat rfl .nil
  | .prefixed operator _ operand => .flat (by cases operator <;> rfl) operand.balanced
  | .joined left connector _ right =>
    left.balanced.append (.flat (by cases connector <;> rfl) right.balanced)
  | .group _ inner _ => inner.balanced.bracketed
  | .display _ _ items _ => items.balanced.bracketed
  | .trailed target trailer => target.balanced.append trailer.balanced

theorem Trailer.balanced : (trailer : Trailer) → Token.Balanced trailer.tokens
  | .attribute _ _ => .flat rfl (.flat rfl .nil)
  | .call _ items _ | .subscript _ items _ => items.balanced.bracketed

theorem Item.balanced : (item : Item) → Token.Balanced item.tokens
  | .plain value => value.balanced
  | .named _ _ value => .flat rfl (.flat rfl value.balanced)
  | .keyed key _ value => key.balanced.append (.flat rfl value.balanced)

theorem Items.balanced : (items : Items) → Token.Balanced items.tokens
  | .nil => .nil
  | .last item => item.balanced
  | .cons item _ rest => item.balanced.append (.flat rfl rest.balanced)

end

/-! ## Texts -/

namespace Nesting

/-- The bracket that a piece is. -/
def Piece.brackets : Piece → List Piece
  | .opening => [.opening]
  | .closing => [.closing]
  | _ => []

/-- The brackets of a text outside its quoted texts. -/
def brackets : List Char → List Piece
  | [] => []
  | c :: cs =>
    if c = '(' ∨ c = '[' ∨ c = '{' then .opening :: brackets cs
    else if c = ')' ∨ c = ']' ∨ c = '}' then .closing :: brackets cs
    else if c = '\'' ∨ c = '"' then brackets (cs.drop (quotedWidth c false cs))
    else brackets cs
termination_by cs => cs.length
decreasing_by all_goals simp only [List.length_drop, List.length_cons]; omega

/-- The brackets and quotes. -/
def delimiters : List Char := ['(', '[', '{', ')', ']', '}', '\'', '"']

/-- The characters that are neither brackets nor quotes. -/
def isFlat (c : Char) : Bool := !delimiters.contains c

variable {c : Char} {cs word rest : List Char}

theorem brackets_cons_flat (h : isFlat c) : brackets (c :: cs) = brackets cs := by
  simp only [isFlat, delimiters, List.contains_eq_mem, List.mem_cons, List.not_mem_nil, or_false,
    Bool.not_eq_true', decide_eq_false_iff_not, not_or] at h
  simp only [brackets, h, or_self, if_false]

theorem brackets_append (h : ∀ c ∈ word, isFlat c) : brackets (word ++ rest) = brackets rest := by
  induction word with
  | nil => rfl
  | cons c word ih =>
    obtain ⟨hc, hword⟩ := List.forall_mem_cons.1 h
    rw [List.cons_append, brackets_cons_flat hc, ih hword]

/-- Neither brackets nor quotes stand in a number or behind the start of a word. -/
theorem brackets_drop {width : Nat} (h : ∀ c ∈ cs.take width, isFlat c) :
    brackets (cs.drop width) = brackets cs := by
  rw [← brackets_append h, List.take_append_drop]

/-- Characters of a kind to which neither brackets nor quotes belong. -/
theorem isFlat_of_any {p : Char → Bool} (h : delimiters.any p = false) (hc : p c) :
    isFlat c := by
  rw [isFlat, Bool.not_eq_true', Bool.eq_false_iff]
  intro hmem
  exact List.any_eq_false.1 h c (List.contains_iff_mem.1 hmem) hc

theorem isFlat_take_numberWidth (previous : Char) (cs : List Char) :
    ∀ c ∈ cs.take (numberWidth previous cs), isFlat c := by
  induction cs generalizing previous with
  | nil => simp
  | cons c cs ih =>
    rw [numberWidth]
    split
    · rename_i hc
      rw [List.take_succ_cons]
      refine List.forall_mem_cons.2 ⟨?_, ih c⟩
      have hnone : delimiters.any (fun c => c.isAlphanum || c == '.' || c == '_' ||
          (c == '+' || c == '-')) = false := by decide
      refine isFlat_of_any hnone ?_
      simp only [Bool.or_eq_true, Bool.and_eq_true] at hc ⊢
      tauto
    · simp

theorem isFlat_takeWhile (cs : List Char) : ∀ c ∈ cs.takeWhile continuesWord, isFlat c := by
  have hall : delimiters.all (fun d => d.toNat < 128 && !Text.continuesWord d) = true := by decide
  have hnone : delimiters.any continuesWord = false := by
    refine List.any_eq_false.2 fun d hd => ?_
    have hd := List.all_eq_true.1 hall d hd
    simp only [Bool.and_eq_true, decide_eq_true_eq, Bool.not_eq_true'] at hd
    rw [continuesWord_eq_of_ascii hd.1, hd.2]
    exact Bool.false_ne_true
  exact fun c hc => isFlat_of_any hnone (List.all_eq_true.1 List.all_takeWhile c hc)

theorem brackets_ofWord (word : List Char) : (ofWord word).brackets = [] := by
  unfold ofWord
  split_ifs <;> rfl

/-- A piece that begins with no bracket and no quote holds none. -/
theorem flat_next (h : isFlat c) (cs : List Char) :
    (next c cs).1.brackets = [] ∧ ∀ d ∈ cs.take (next c cs).2, isFlat d := by
  simp only [isFlat, delimiters, List.contains_eq_mem, List.mem_cons, List.not_mem_nil, or_false,
    Bool.not_eq_true', decide_eq_false_iff_not, not_or] at h
  simp only [next, h, or_self, if_false]
  split
  · rename_i hstar
    cases cs with
    | nil => simp [Piece.brackets]
    | cons d cs =>
      obtain rfl : d = '*' := Option.some.inj hstar.2
      exact ⟨rfl, by simp [isFlat, delimiters]⟩
  split
  · simp [Piece.brackets]
  split
  · exact ⟨rfl, isFlat_take_numberWidth c cs⟩
  split
  · refine ⟨brackets_ofWord _, ?_⟩
    rw [← List.prefix_iff_eq_take.1 (List.takeWhile_prefix _)]
    exact isFlat_takeWhile cs
  repeat' split
  all_goals simp [Piece.brackets]

/-- The brackets of a text are those of its first piece and of what follows. -/
theorem brackets_cons (c : Char) (cs : List Char) :
    brackets (c :: cs) = (next c cs).1.brackets ++ brackets (cs.drop (next c cs).2) := by
  by_cases hopening : c = '(' ∨ c = '[' ∨ c = '{'
  · rw [brackets, if_pos hopening, next, if_pos hopening]
    rfl
  by_cases hclosing : c = ')' ∨ c = ']' ∨ c = '}'
  · rw [brackets, if_neg hopening, if_pos hclosing, next, if_neg hopening, if_pos hclosing]
    rfl
  by_cases hquote : c = '\'' ∨ c = '"'
  · rw [brackets, if_neg hopening, if_neg hclosing, if_pos hquote]
    rcases hquote with rfl | rfl <;> rfl
  · have hflat : isFlat c := by
      simp only [not_or] at hopening hclosing hquote
      simp [isFlat, delimiters, hopening, hclosing, hquote]
    obtain ⟨hpiece, hwidth⟩ := flat_next hflat cs
    rw [brackets_cons_flat hflat, hpiece, brackets_drop hwidth, List.nil_append]

/-! ### Tokens -/

theorem Piece.brackets_ofKind {kind : Token.Kind} (h : kind.isBracket = false) :
    (ofKind kind).brackets = [] := by
  cases kind with
  | operator symbol => cases symbol <;> rfl
  | logical connective => cases connective <;> rfl
  | opening | closing => cases h
  | _ => rfl

/-- The brackets of tokens. -/
def bracketsOf (tokens : List Token) : List Piece :=
  tokens.flatMap fun token => (Piece.ofKind token.kind).brackets

theorem isFlat_number {value : Literal} (h : Grammar.Number word value) :
    ∀ c ∈ word, isFlat c := by
  have hbreaks : Breaks [] := Stops.nil _
  have hwidth := Continues.number h (.of_breaks hbreaks) '0' (.inl rfl)
  have hflat := isFlat_take_numberWidth '0' (word ++ [])
  rwa [hwidth, Nat.add_zero, List.append_nil, List.take_length] at hflat

theorem isFlat_of_continuesWord (h : Text.continuesWord c) : isFlat c :=
  isFlat_of_any (by decide) h

/-- Marks are brackets, or neither brackets nor quotes stand in them. -/
theorem mark_brackets : ∀ mark ∈ Token.marks,
    mark.1 ∈ [['('], ['['], ['{']] ∧ Piece.ofKind mark.2 = .opening ∨
      mark.1 ∈ [[')'], [']'], ['}']] ∧ Piece.ofKind mark.2 = .closing ∨
      mark.1.all isFlat ∧ (Piece.ofKind mark.2).brackets = [] := by
  decide

/-- The brackets of a lexeme are those of its token. -/
theorem brackets_lexeme {kind : Token.Kind} (h : Lexeme word rest kind) :
    brackets (word ++ rest) = (Piece.ofKind kind).brackets ++ brackets rest := by
  cases h with
  | number hn =>
    rw [brackets_append (isFlat_number hn)]
    rfl
  | @text quote cs _ hq hcontent =>
    have hescape : quote ≠ '\\' := by rcases hq with rfl | rfl <;> decide
    have hdrop : (cs ++ quote :: rest).drop (cs.length + 1) = rest := by
      rw [← List.drop_drop, List.drop_left, List.drop_one, List.tail_cons]
    rw [List.cons_append, List.append_assoc, List.singleton_append]
    rcases hq with rfl | rfl <;>
      simp [brackets, quotedWidth_append hescape hcontent, hdrop, Piece.ofKind, Piece.brackets]
  | @word c cs _ hc hcs =>
    have hflat : ∀ d ∈ c :: cs, isFlat d := List.forall_mem_cons.2
      ⟨isFlat_of_continuesWord (continuesWord_of_startsWord hc), fun d hd =>
        isFlat_of_continuesWord (hcs d hd)⟩
    rw [brackets_append hflat, ← ofWord_eq, brackets_ofWord]
    rfl
  | mark hm =>
    rcases mark_brackets _ hm with ⟨hword, hk⟩ | ⟨hword, hk⟩ | ⟨hflat, hk⟩
    · dsimp only at hword hk
      rw [hk]
      simp only [List.mem_cons, List.not_mem_nil, or_false] at hword
      rcases hword with rfl | rfl | rfl <;> simp [brackets, Piece.brackets]
    · dsimp only at hword hk
      rw [hk]
      simp only [List.mem_cons, List.not_mem_nil, or_false] at hword
      rcases hword with rfl | rfl | rfl <;> simp [brackets, Piece.brackets]
    · rw [brackets_append (List.all_eq_true.1 hflat), hk, List.nil_append]

/-- The scanner finds the same brackets. -/
theorem brackets_of_scan {afterOperand : Bool} {point : Nat}
    (h : ∀ token ∈ Token.scan afterOperand point cs, token.kind ≠ .unknown) :
    brackets cs = bracketsOf (Token.scan afterOperand point cs) := by
  fun_induction Token.scan afterOperand point cs with
  | case1 =>
    rw [brackets]
    rfl
  | case2 afterOperand point c cs hgap ih =>
    have hnone : delimiters.any Token.isGap = false := by decide
    have hflat : isFlat c := isFlat_of_any hnone hgap
    rw [brackets_cons_flat hflat, ih h]
  | case3 => exact absurd rfl (h _ List.mem_cons_self)
  | case4 afterOperand point c cs hgap kind width hread ih =>
    obtain ⟨tail, rest, rfl, rfl, hword⟩ := Token.exists_word hread
    rw [List.length_cons, Nat.add_sub_cancel, List.drop_left] at ih h ⊢
    rw [← List.cons_append, brackets_lexeme hword, ih (List.forall_mem_cons.1 h).2]
    rfl

/-! ### Heights -/

/-- Brackets that close at most `height` of those that are open before them. -/
def ClosesAtMost : Nat → List Piece → Prop
  | _, [] => True
  | height, piece :: pieces =>
    match piece with
    | .opening => ClosesAtMost (height + 1) pieces
    | .closing => 0 < height ∧ ClosesAtMost (height - 1) pieces
    | _ => ClosesAtMost height pieces

/-- Brackets that fit together close none of those before them. -/
theorem closesAtMost_append {tokens : List Token} (h : Token.Balanced tokens) (height : Nat)
    (pieces : List Piece) :
    ClosesAtMost height (bracketsOf tokens ++ pieces) ↔ ClosesAtMost height pieces := by
  induction h generalizing height pieces with
  | nil => exact Iff.rfl
  | @flat token tokens hk _ ih =>
    rw [bracketsOf, List.flatMap_cons, Piece.brackets_ofKind hk]
    exact ih height pieces
  | @enclosed bracket opening closing inside tokens _ _ ihi iht =>
    have hlist : bracketsOf (⟨.opening bracket, opening⟩ ::
        (inside ++ ⟨.closing bracket, closing⟩ :: tokens)) ++ pieces =
          .opening :: (bracketsOf inside ++ .closing :: (bracketsOf tokens ++ pieces)) := by
      simp [bracketsOf, Piece.ofKind, Piece.brackets]
    rw [hlist, ClosesAtMost, ihi, ClosesAtMost, Nat.add_sub_cancel, iht]
    exact and_iff_right (Nat.succ_pos height)

end Nesting

end Calculator
