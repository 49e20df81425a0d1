import Calculator.Proofs.Balance

/-!
# The estimate for a part of a text

The nesting pass may read a part of a text inside the text as it does alone, or run a number at its
end into what follows. Neither makes the part nest more deeply alone: inside the text the pass
starts from open brackets and chains, none of which the part closes.

* `Nesting.Count.Consistent`: a count whose totals are right.
* `Nesting.Count.Below`: two counts, the first one as far inside a part of a text as the second.
* `Nesting.EndsApart`: a text whose last word does not go on in what follows.

Results:
* `Nesting.Count.Below.step`: a piece that closes no surrounding bracket keeps one count below the
  other.
* `Nesting.next_before`: a piece is the same before further text, unless it is the last and flat.
* `Nesting.deepest_run_le_of_below`: a whole run stays below too.
* `Nesting.run_reads`, `Nesting.depth_le_of_reads`: the pass reaches a part of a text behind whole
  tokens, so the part nests no more deeply alone than the text.
-/

namespace Calculator

open Grammar

namespace Nesting

/-! ## Counts -/

namespace Count

/-- A count whose totals are right: there is a chain for each open bracket and one outside of
    all. -/
structure Consistent (count : Count) : Prop where
  length : count.chains.length = count.brackets + 1
  sum : count.chained = count.chains.sum

theorem consistent_initial : initial.Consistent := ⟨rfl, rfl⟩

namespace Consistent

variable {count : Count}

/-- The innermost chain and the chains around it make up a consistent count. -/
theorem exists_cons (h : count.Consistent) :
    ∃ (chain : Nat) (outer : List Nat) (afterOperand : Bool) (deepest : Nat),
      count = ⟨outer.length, chain :: outer, chain + outer.sum, afterOperand, deepest⟩ := by
  obtain ⟨hlength, hsum⟩ := h
  rcases count with ⟨brackets, _ | ⟨chain, outer⟩, chained, afterOperand, deepest⟩
  · cases hlength
  · obtain rfl : outer.length = brackets := Nat.succ.inj hlength
    obtain rfl : chained = chain + outer.sum := hsum
    exact ⟨chain, outer, afterOperand, deepest, rfl⟩

theorem enter (h : count.Consistent) : count.enter.Consistent :=
  ⟨congrArg (· + 1) h.length, h.sum.trans (Nat.zero_add _).symm⟩

theorem link (h : count.Consistent) : count.link.Consistent := by
  obtain ⟨chain, outer, afterOperand, deepest, rfl⟩ := h.exists_cons
  refine ⟨rfl, ?_⟩
  show chain + outer.sum + 1 = chain + 1 + outer.sum
  omega

theorem reset (h : count.Consistent) : count.reset.Consistent := by
  obtain ⟨chain, outer, afterOperand, deepest, rfl⟩ := h.exists_cons
  refine ⟨rfl, ?_⟩
  show chain + outer.sum - chain = 0 + outer.sum
  omega

theorem leave (h : count.Consistent) : count.leave.Consistent := by
  obtain ⟨chain, outer, afterOperand, deepest, rfl⟩ := h.exists_cons
  cases outer with
  | nil => exact ⟨rfl, rfl⟩
  | cons enclosing outer =>
    refine ⟨rfl, ?_⟩
    show chain + (enclosing + outer.sum) - chain = enclosing + outer.sum
    omega

/-- Every piece keeps the totals right. -/
theorem move (h : count.Consistent) (piece : Piece) : (count.move piece).Consistent := by
  cases piece with
  | opening => exact h.enter
  | closing => exact h.leave
  | power | not => exact h.link
  | sign =>
    rw [Count.move]
    split
    · exact h.reset
    · exact h.link
  | connective | other => exact h.reset
  | operand | dot | blank => exact ⟨h.length, h.sum⟩

theorem step (h : count.Consistent) (piece : Piece) : (count.step piece).Consistent :=
  ⟨(h.move piece).length, (h.move piece).sum⟩

theorem readTokens (h : count.Consistent) (tokens : List Token) :
    (count.readTokens tokens).Consistent := by
  induction tokens generalizing count with
  | nil => exact h
  | cons token tokens ih => exact ih (h.step (.ofKind token.kind))

end Consistent

/-- One list of chains is as long as the beginning of another, and has no longer chain. -/
def Covered : List Nat → List Nat → Prop
  | [], _ => True
  | _ :: _, [] => False
  | chain :: outer, chain' :: outer' => chain ≤ chain' ∧ Covered outer outer'

theorem Covered.le {chains chains' : List Nat} (h : Covered chains chains') :
    chains.length ≤ chains'.length ∧ chains.sum ≤ chains'.sum := by
  induction chains generalizing chains' with
  | nil => simp
  | cons chain chains ih =>
    cases chains' with
    | nil => exact h.elim
    | cons chain' chains' =>
      obtain ⟨hchain, houter⟩ := h
      have := ih houter
      simp only [List.length_cons, List.sum_cons]
      omega

/-- Two counts, the first of a part of a text alone and the second of the same part inside the
    text. -/
structure Below (part whole : Count) : Prop where
  consistent : part.Consistent
  surrounding : whole.Consistent
  covered : Covered part.chains whole.chains
  operand : part.afterOperand = whole.afterOperand
  deepest : part.deepest ≤ whole.deepest

namespace Below

variable {part whole : Count}

theorem depth_le (h : Below part whole) : part.depth ≤ whole.depth := by
  obtain ⟨hlength, hsum⟩ := h.covered.le
  have := h.consistent.length
  have := h.surrounding.length
  rw [depth, depth, h.consistent.sum, h.surrounding.sum]
  omega

theorem enter (h : Below part whole) : Below part.enter whole.enter :=
  ⟨h.consistent.enter, h.surrounding.enter, ⟨Nat.le_refl 0, h.covered⟩, rfl, h.deepest⟩

theorem link (h : Below part whole) : Below part.link whole.link := by
  obtain ⟨chain, outer, _, _, rfl⟩ := h.consistent.exists_cons
  obtain ⟨chain', outer', _, _, rfl⟩ := h.surrounding.exists_cons
  obtain ⟨hchain, houter⟩ := h.covered
  exact ⟨h.consistent.link, h.surrounding.link, ⟨Nat.succ_le_succ hchain, houter⟩, rfl, h.deepest⟩

theorem reset (h : Below part whole) : Below part.reset whole.reset := by
  obtain ⟨chain, outer, _, _, rfl⟩ := h.consistent.exists_cons
  obtain ⟨chain', outer', _, _, rfl⟩ := h.surrounding.exists_cons
  obtain ⟨-, houter⟩ := h.covered
  exact ⟨h.consistent.reset, h.surrounding.reset, ⟨Nat.le_refl 0, houter⟩, rfl, h.deepest⟩

theorem leave (h : Below part whole) (hopen : 0 < part.brackets) :
    Below part.leave whole.leave := by
  have hconsistent := h.consistent.leave
  have hsurrounding := h.surrounding.leave
  obtain ⟨chain, outer, _, _, rfl⟩ := h.consistent.exists_cons
  obtain ⟨chain', outer', _, _, rfl⟩ := h.surrounding.exists_cons
  obtain ⟨-, houter⟩ := h.covered
  obtain ⟨enclosing, outer, rfl⟩ := List.exists_cons_of_length_pos hopen
  cases outer' with
  | nil => exact houter.elim
  | cons enclosing' outer' => exact ⟨hconsistent, hsurrounding, houter, rfl, h.deepest⟩

/-- A piece is read alone as inside the text, as long as it closes no bracket outside the part. -/
theorem step (h : Below part whole) (piece : Piece)
    (hopen : piece = .closing → 0 < part.brackets) :
    Below (part.step piece) (whole.step piece) := by
  have hmove : Below (part.move piece) (whole.move piece) := by
    cases piece with
    | opening => exact h.enter
    | closing => exact h.leave (hopen rfl)
    | power | not => exact h.link
    | sign =>
      rw [move, move, h.operand]
      split
      · exact h.reset
      · exact h.link
    | connective | other => exact h.reset
    | operand | dot =>
      exact ⟨⟨h.consistent.length, h.consistent.sum⟩, ⟨h.surrounding.length, h.surrounding.sum⟩,
        h.covered, rfl, h.deepest⟩
    | blank => exact h
  have hdepth := hmove.depth_le
  have hdeepest := hmove.deepest
  refine ⟨h.consistent.step piece, h.surrounding.step piece, hmove.covered, hmove.operand, ?_⟩
  show max (part.move piece).deepest (part.move piece).depth ≤
    max (whole.move piece).deepest (whole.move piece).depth
  omega

end Below

end Count

/-! ## Pieces before further text -/

/-- The pieces that can open a level. -/
def Piece.opensLevel : Piece → Bool
  | .opening | .power | .sign | .not => true
  | _ => false

/-- A text whose last word does not go on in what follows. -/
def EndsApart (cs following : List Char) : Prop :=
  Stops continuesWord following ∨ ∀ c ∈ cs.getLast?, c.isAlpha = false

theorem EndsApart.drop {cs following : List Char} (h : EndsApart cs following) (width : Nat) :
    EndsApart (cs.drop width) following := by
  rcases h with hstops | hlast
  · exact .inl hstops
  · refine .inr fun c hc => hlast c ?_
    rw [List.getLast?_drop] at hc
    split at hc
    · cases hc
    · exact hc

variable {c : Char} {cs following : List Char}

theorem quotedWidth_before (quote : Char) (escaped : Bool) (cs following : List Char) :
    quotedWidth quote escaped (cs ++ following) = quotedWidth quote escaped cs ∨
      quotedWidth quote escaped cs = cs.length := by
  induction cs generalizing escaped with
  | nil => exact .inr rfl
  | cons c cs ih =>
    simp only [List.cons_append, quotedWidth, List.length_cons]
    split
    · simpa using ih false
    · split
      · simpa using ih true
      · split
        · exact .inl rfl
        · simpa using ih false

theorem numberWidth_before (previous : Char) (cs following : List Char) :
    numberWidth previous (cs ++ following) = numberWidth previous cs ∨
      numberWidth previous cs = cs.length := by
  induction cs generalizing previous with
  | nil => exact .inr rfl
  | cons c cs ih =>
    simp only [List.cons_append, numberWidth, List.length_cons]
    split
    · simpa using ih c
    · exact .inl rfl

theorem takeWhile_before (p : Char → Bool) (cs following : List Char) :
    (cs ++ following).takeWhile p = cs.takeWhile p ∨ cs.takeWhile p = cs := by
  induction cs with
  | nil => exact .inr rfl
  | cons c cs ih =>
    simp only [List.cons_append, List.takeWhile_cons]
    split
    · simpa using ih
    · exact .inl rfl

theorem quotedWidth_le (quote : Char) (escaped : Bool) (cs : List Char) :
    quotedWidth quote escaped cs ≤ cs.length := by
  induction cs generalizing escaped with
  | nil => exact Nat.le_refl 0
  | cons c cs ih =>
    have := ih true
    have := ih false
    rw [quotedWidth, List.length_cons]
    split_ifs <;> omega

theorem numberWidth_le (previous : Char) (cs : List Char) :
    numberWidth previous cs ≤ cs.length := by
  induction cs generalizing previous with
  | nil => exact Nat.le_refl 0
  | cons c cs ih =>
    have := ih c
    rw [numberWidth, List.length_cons]
    split_ifs <;> omega

/-- No piece is longer than the text. -/
theorem next_width_le (c : Char) (cs : List Char) : (next c cs).2 ≤ cs.length := by
  have hquoted := quotedWidth_le c false cs
  have hnumber := numberWidth_le c cs
  have hword := (List.takeWhile_sublist continuesWord (l := cs)).length_le
  have hpower : c = '*' ∧ cs.head? = some '*' → 1 ≤ cs.length := by
    rintro ⟨_, hstar⟩
    cases cs with
    | nil => cases hstar
    | cons d cs => exact Nat.le_add_left 1 _
  fun_cases next c cs with
  | case3 _ _ hstar => exact hpower hstar
  | case5 => exact hquoted
  | case6 => exact hnumber
  | case7 => exact hword
  | _ => exact Nat.zero_le _

/-- `not` ends in a letter. -/
theorem opensLevel_ofWord {word : List Char} (h : ∀ c ∈ word.getLast?, c.isAlpha = false) :
    (ofWord word).opensLevel = false := by
  have hnot : word ≠ ['n', 'o', 't'] := by
    rintro rfl
    cases h 't' rfl
  rw [ofWord, if_neg hnot]
  split <;> rfl

/-- A word is the same before further text, unless it is the last one and is not `not`. -/
theorem word_before (h : EndsApart (c :: cs) following) :
    (cs ++ following).takeWhile continuesWord = cs.takeWhile continuesWord ∨
      cs.takeWhile continuesWord = cs ∧ (ofWord (c :: cs)).opensLevel = false := by
  rcases takeWhile_before continuesWord cs following with hsame | hall
  · exact .inl hsame
  · rcases h with hstops | hlast
    · left
      rw [hall]
      exact hstops.takeWhile_append fun d hd => by
        rw [← hall] at hd
        exact List.all_eq_true.1 List.all_takeWhile d hd
    · exact .inr ⟨hall, opensLevel_ofWord hlast⟩

theorem next_quote {quote : Char} (h : quote = '\'' ∨ quote = '"') (cs : List Char) :
    next quote cs = (.operand, quotedWidth quote false cs) := by
  rcases h with rfl | rfl <;> rfl

/-- A piece that does not begin with a mark is the same before further text, unless it reaches to
    the end and opens no level. -/
theorem next_before_of_not_leading (hc : c ∉ leading) (h : EndsApart (c :: cs) following) :
    next c (cs ++ following) = next c cs ∨
      (next c cs).2 = cs.length ∧ (next c cs).1.opensLevel = false := by
  rw [next_of_not_leading hc, next_of_not_leading hc]
  cases cs with
  | nil =>
    have hflat : (ofWord [c]).opensLevel = false := by
      rw [ofWord, if_neg (by simp)]
      split <;> rfl
    right
    split_ifs
    · exact ⟨rfl, rfl⟩
    · exact ⟨rfl, hflat⟩
    all_goals exact ⟨rfl, rfl⟩
  | cons d cs =>
    rw [List.cons_append, List.head?_cons, List.head?_cons, ← List.cons_append]
    split
    · rcases numberWidth_before c (d :: cs) following with hwidth | hwidth
      · exact .inl (by rw [hwidth])
      · exact .inr ⟨hwidth, rfl⟩
    split
    · rcases word_before h with hword | ⟨hword, hflat⟩
      · exact .inl (by rw [hword])
      · exact .inr (by rw [hword]; exact ⟨rfl, hflat⟩)
    · exact .inl rfl

/-- A star is half of `**` before another one. -/
theorem next_star_before (cs following : List Char) :
    next '*' (cs ++ following) = next '*' cs ∨
      (next '*' cs).2 = cs.length ∧ (next '*' cs).1.opensLevel = false := by
  cases cs with
  | nil => exact .inr ⟨rfl, rfl⟩
  | cons d cs =>
    rcases Stops.or_exists_cons '*' (d :: cs) with hd | ⟨rest, heq⟩
    · have hmore : Stops (· == '*') (d :: cs ++ following) := hd
      exact .inl (by rw [next_star hd, next_star hmore])
    · cases heq
      exact .inl rfl

/-- A piece is the same before further text, unless it reaches to the end and opens no level. -/
theorem next_before (h : EndsApart (c :: cs) following) :
    next c (cs ++ following) = next c cs ∨
      (next c cs).2 = cs.length ∧ (next c cs).1.opensLevel = false := by
  by_cases hquote : c = '\'' ∨ c = '"'
  · rw [next_quote hquote, next_quote hquote]
    rcases quotedWidth_before c false cs following with hwidth | hwidth
    · exact .inl (by rw [hwidth])
    · exact .inr ⟨hwidth, rfl⟩
  by_cases hleading : c ∈ leading
  · simp only [leading, List.mem_cons, List.not_mem_nil, or_false] at hleading
    rcases hleading with rfl | rfl | rfl | rfl | rfl | rfl | rfl | rfl | rfl | rfl | hc
    any_goals exact .inl rfl
    · exact next_star_before cs following
    · exact absurd hc hquote
  · exact next_before_of_not_leading hleading h

/-! ## Runs -/

namespace Count

theorem deepest_move (count : Count) (piece : Piece) :
    (count.move piece).deepest = count.deepest := by
  rcases count with ⟨brackets, chains, chained, afterOperand, deepest⟩
  cases piece <;> rcases chains with _ | ⟨chain, _ | ⟨enclosing, outer⟩⟩ <;> cases afterOperand <;>
    rfl

theorem deepest_le_step (count : Count) (piece : Piece) :
    count.deepest ≤ (count.step piece).deepest := by
  rw [← count.deepest_move piece]
  exact Nat.le_max_left _ _

theorem deepest_le_run (count : Count) (cs : List Char) :
    count.deepest ≤ (run count cs).deepest := by
  fun_induction run count cs with
  | case1 count => exact Nat.le_refl _
  | case2 count c cs piece width hnext ih => exact (count.deepest_le_step piece).trans ih

/-- A piece that opens no level leads no deeper. -/
theorem deepest_step_of_flat {count : Count} {piece : Piece} (h : count.Consistent)
    (hcount : count.Settled) (hflat : piece.opensLevel = false) :
    (count.step piece).deepest = count.deepest := by
  have hdepth : (count.move piece).depth ≤ count.depth := by
    obtain ⟨chain, outer, afterOperand, deepest, rfl⟩ := h.exists_cons
    have hreset : outer.length + (chain + outer.sum - chain) ≤ outer.length + (chain + outer.sum) :=
      Nat.add_le_add_left (Nat.sub_le _ _) _
    cases piece with
    | opening | power | sign | not => cases hflat
    | operand | dot | blank => exact Nat.le_refl _
    | connective | other => exact hreset
    | closing =>
      cases outer with
      | nil => exact Nat.le_refl _
      | cons enclosing outer => exact (Nat.add_le_add_right (Nat.sub_le _ _) _).trans hreset
  have hdeepest := count.deepest_move piece
  have hsettled : count.depth ≤ count.deepest := hcount
  show max (count.move piece).deepest (count.move piece).depth = count.deepest
  omega

/-- A piece opens a bracket, closes one or leaves the open ones as they are. -/
theorem closesAtMost_step {count : Count} {piece : Piece} {pieces : List Piece}
    (h : count.Consistent) (hopen : ClosesAtMost count.brackets (piece.brackets ++ pieces)) :
    (piece = .closing → 0 < count.brackets) ∧ ClosesAtMost (count.step piece).brackets pieces := by
  obtain ⟨chain, outer, afterOperand, deepest, rfl⟩ := h.exists_cons
  cases piece with
  | closing =>
    obtain ⟨hpos, hopen⟩ := hopen
    obtain ⟨enclosing, outer, rfl⟩ := List.exists_cons_of_length_pos hpos
    exact ⟨fun _ => hpos, hopen⟩
  | opening => exact ⟨nofun, hopen⟩
  | sign => cases afterOperand <;> exact ⟨nofun, hopen⟩
  | _ => exact ⟨nofun, hopen⟩

end Count

open Nesting.Count

/-- **No part of a text nests more deeply alone**: what the pass does to a part alone stays below
    what it does to the part inside the text. -/
theorem deepest_run_le_of_below {part whole : Count} {cs following : List Char}
    (h : Below part whole) (hsettled : part.Settled)
    (hopen : ClosesAtMost part.brackets (brackets cs)) (hend : EndsApart cs following) :
    (run part cs).deepest ≤ (run whole (cs ++ following)).deepest := by
  fun_induction run part cs generalizing whole with
  | case1 part => exact h.deepest.trans (whole.deepest_le_run _)
  | case2 part c cs piece width hnext ih =>
    rw [brackets_cons, hnext] at hopen
    obtain ⟨hclosing, hopen⟩ := closesAtMost_step h.consistent hopen
    rcases next_before hend with hsame | ⟨hwidth, hflat⟩
    · have hdrop : (cs ++ following).drop width = cs.drop width ++ following := by
        have hwidth := next_width_le c cs
        rw [hnext] at hwidth
        exact List.drop_append_of_le_length hwidth
      rw [List.cons_append, run, hsame, hnext]
      simp only [hdrop]
      exact ih (h.step piece hclosing) (settled_step part piece) hopen (hend.drop (width + 1))
    · -- the last piece, which may go on behind the part
      rw [hnext] at hwidth hflat
      dsimp only at hwidth hflat
      rw [hwidth, List.drop_length, run, deepest_step_of_flat h.consistent hsettled hflat]
      exact h.deepest.trans (whole.deepest_le_run _)

/-! ## Parts of a text -/

/-- The pass goes along the tokens that the scanner reads, if they are apart from each other and
    from the next one. -/
theorem run_reads {count : Count} {first last : Cursor} {tokens : List Token}
    (h : Cursor.Reads first tokens last) (hcount : count.Settled)
    (hknown : ∀ token ∈ first.tokens, token.kind ≠ .unknown)
    (hapart : (tokens ++ last.tokens.take 1).IsChain Token.Apart) :
    run count first.rest = run (count.readTokens tokens) last.rest := by
  induction h generalizing count with
  | done cursor => rfl
  | @token first next last token tokens head tail ih =>
    rw [head.tokens_eq] at hknown
    obtain ⟨-, hbehind⟩ := List.forall_mem_cons.1 hknown
    rw [List.cons_append] at hapart
    obtain ⟨hhead, hchain⟩ := List.isChain_cons.1 hapart
    have hnext : next.tokens.head? = (tokens ++ last.tokens.take 1).head? := by
      rw [tail.tokens_eq, List.head?_append, List.head?_append, List.head?_take, if_neg one_ne_zero]
    rw [← hnext] at hhead
    cases head with
    | @read afterOperand point start stop gap cs rest c kind hgap hc hread hstart hstop =>
      have hlexeme : run count (c :: cs ++ rest) = run (count.step (.ofKind kind)) rest :=
        run_lexeme hread (Token.lexeme_of_read? hread) hbehind hhead
      rw [run_gap hcount hgap, hlexeme]
      exact ih (count.settled_step (.ofKind kind)) hbehind hchain

namespace Count

theorem settled_readTokens {count : Count} (h : count.Settled) (tokens : List Token) :
    (count.readTokens tokens).Settled := by
  induction tokens generalizing count with
  | nil => exact h
  | cons token tokens ih => exact ih (count.settled_step (.ofKind token.kind))

/-- The pass knows which tokens complete an operand. -/
theorem afterOperand_readToken (count : Count) {token : Token} (hk : token.kind ≠ .unknown) :
    (count.readToken token).afterOperand = token.kind.endsOperand := by
  have hlink : count.link.afterOperand = false := by
    unfold link
    split <;> rfl
  have hreset : count.reset.afterOperand = false := by
    unfold reset
    split <;> rfl
  have hleave : count.leave.afterOperand = true := by
    unfold leave
    split <;> rfl
  have hsign : (count.move .sign).afterOperand = false := by
    rw [move]
    split <;> assumption
  show (count.move (.ofKind token.kind)).afterOperand = token.kind.endsOperand
  cases hkind : token.kind with
  | operator symbol => cases symbol <;> assumption
  | logical connective => cases connective <;> exact hreset
  | literal | name | opening | dot => rfl
  | tilde => exact hsign
  | not => exact hlink
  | closing => exact hleave
  | comma | colon | equals => exact hreset
  | unknown => exact absurd hkind hk

/-- Before the first token and behind one that completes no operand, no operand has ended. -/
theorem afterOperand_readTokens {front : List Token}
    (hknown : ∀ token ∈ front, token.kind ≠ .unknown)
    (hlast : ∀ token ∈ front.getLast?, token.kind.endsOperand = false) :
    (initial.readTokens front).afterOperand = false := by
  rcases List.eq_nil_or_concat front with rfl | ⟨tokens, token, rfl⟩
  · rfl
  · rw [List.concat_eq_append] at hknown hlast ⊢
    rw [readTokens, List.foldl_append]
    have hk := hknown token (List.mem_append_right _ List.mem_cons_self)
    rw [← hlast token List.getLast?_concat]
    exact afterOperand_readToken _ hk

/-- A part of a text is read from the start of the text alone, and inside the text from where its
    tokens begin. -/
theorem below_initial {front : List Token} (hknown : ∀ token ∈ front, token.kind ≠ .unknown)
    (hlast : ∀ token ∈ front.getLast?, token.kind.endsOperand = false) :
    Below initial (initial.readTokens front) := by
  have hconsistent := consistent_initial.readTokens front
  refine ⟨consistent_initial, hconsistent, ?_, (afterOperand_readTokens hknown hlast).symm,
    Nat.zero_le _⟩
  have hlength := hconsistent.length
  cases hchains : (initial.readTokens front).chains with
  | nil =>
    rw [hchains] at hlength
    cases hlength
  | cons chain outer => exact ⟨Nat.zero_le chain, trivial⟩

end Count

/-- **No part of a text nests more deeply alone than the text.** -/
theorem depth_le_of_reads {front : List Token} {point : Nat} {whole gap cs following : List Char}
    (hreads : Cursor.Reads ⟨false, 0, whole⟩ front ⟨false, point, gap ++ (cs ++ following)⟩)
    (hgap : Gap gap) (hknown : ∀ token ∈ Token.ofText whole, token.kind ≠ .unknown)
    (hapart : (front ++ (Token.scan false point (gap ++ (cs ++ following))).take 1).IsChain
      Token.Apart)
    (hlast : ∀ token ∈ front.getLast?, token.kind.endsOperand = false)
    (hopen : ClosesAtMost 0 (brackets cs)) (hend : EndsApart cs following) :
    depth cs ≤ depth whole := by
  have hfront : ∀ token ∈ front, token.kind ≠ .unknown := fun token htoken => by
    refine hknown token ?_
    have htokens : Token.ofText whole = _ := hreads.tokens_eq
    rw [htokens]
    exact List.mem_append_left _ htoken
  have hrun : run .initial whole = run (initial.readTokens front) (gap ++ (cs ++ following)) :=
    run_reads hreads settled_initial hknown hapart
  rw [run_gap (settled_readTokens settled_initial front) hgap] at hrun
  rw [depth, depth, hrun]
  exact deepest_run_le_of_below (below_initial hfront hlast) settled_initial hopen hend

end Nesting

end Calculator
