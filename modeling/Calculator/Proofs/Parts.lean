import Calculator.Proofs.Shift
import Calculator.Proofs.Surroundings
import Calculator.Text.Blank

/-!
# Parts of a text that are texts themselves

A phrase inside another one covers a part of the text, from the first character of its first token
to the last one of its last token. Alone this part is a text of the same phrase, and it nests no
more deeply than the whole.

* `Part`: a part of a text, with the tokens before it, in it and behind it.

Results:
* `Lexeme.isVisible_first`, `Lexeme.isVisible_last`: no token begins or ends with white space.
* `exists_part`: tokens in the middle of a text are those of a part of it.
* `Part.exists_phrase`, `Part.depth_le`: the phrase of a part, and how deep it nests.
-/

namespace Calculator

open Grammar

/-! ## The edges of tokens -/

/-- The visible ASCII characters. -/
def Text.isVisible (c : Char) : Bool := 32 < c.toNat && c.toNat < 127

theorem Text.isBlank_of_isVisible {c : Char} (h : isVisible c) : isBlank c = false := by
  simp only [isVisible, Bool.and_eq_true, decide_eq_true_eq] at h
  simp only [isBlank, blankRanges, Ranges.contains, List.any_cons, List.any_nil, Bool.or_false,
    Bool.or_eq_false_iff, Bool.and_eq_false_iff, decide_eq_false_iff_not]
  omega

theorem Text.isVisible_of_continuesWord {c : Char} (h : continuesWord c) : isVisible c := by
  have := Nesting.toNat_of_continuesWord h
  simp only [isVisible, Bool.and_eq_true, decide_eq_true_eq]
  omega

theorem Text.isVisible_of_number {c : Char} (h : c.isDigit ∨ c = '.') : isVisible c := by
  rcases h with hdigit | rfl
  · have hword : continuesWord c := by simp [continuesWord, Char.isAlphanum, hdigit]
    exact isVisible_of_continuesWord hword
  · rfl

theorem isDigit_last (front : List Char) {digits : List Char} (h : AllDigits digits)
    (hne : digits ≠ []) : ∀ c ∈ (front ++ digits).getLast?, c.isDigit := by
  rw [List.getLast?_append_of_ne_nil front hne]
  exact fun c hc => h c (List.mem_of_getLast? hc)

/-- An exponent ends with a digit. -/
theorem Grammar.ExponentPart.last {front part : List Char} {power : Int}
    (h : ExponentPart part power) :
    ∀ c ∈ (front ++ part).getLast?, c.isDigit := by
  obtain ⟨mark, sign, d, digits, rfl, _, _, hdigits⟩ := h.exists_cons
  have hlast := isDigit_last (front ++ mark :: sign) hdigits (by simp)
  rwa [List.append_assoc] at hlast

/-- A number ends with a digit or with its point. -/
theorem Grammar.Number.last {word : List Char} {value : Literal} (h : Number word value) :
    ∀ c ∈ word.getLast?, c.isDigit ∨ c = '.' := by
  intro c hc
  cases h with
  | integer hi =>
    obtain ⟨hdigits, hne⟩ := hi.allDigits
    exact .inl (isDigit_last [] hdigits hne c hc)
  | float hf =>
    cases hf with
    | @pointed whole fraction _ hfraction _ =>
      by_cases hne : fraction = []
      · subst hne
        rw [List.getLast?_concat] at hc
        exact .inr (Option.some.inj hc).symm
      · rw [List.append_cons] at hc
        exact .inl (isDigit_last _ hfraction hne c hc)
    | @pointedExponent whole fraction part power _ _ _ he =>
      rw [List.append_cons, ← List.append_assoc] at hc
      exact .inl (he.last c hc)
    | exponent _ _ he => exact .inl (he.last c hc)

namespace Lexeme

variable {word rest : List Char} {kind : Token.Kind}

theorem isVisible_first (h : Lexeme word rest kind) : ∀ c ∈ word.head?, Text.isVisible c := by
  intro c hc
  cases h with
  | number hn =>
    obtain ⟨cs, rfl⟩ := List.head?_eq_some_iff.1 hc
    exact Text.isVisible_of_number (first_number hn)
  | text hq =>
    obtain rfl := Option.some.inj hc
    rcases hq with rfl | rfl <;> rfl
  | word hd =>
    obtain rfl := Option.some.inj hc
    exact Text.isVisible_of_continuesWord (Nesting.continuesWord_of_startsWord hd)
  | mark hm =>
    have hall : ∀ mark ∈ Token.marks, mark.1.head?.all Text.isVisible = true := by decide
    have hword := hall _ hm
    dsimp only at hword
    rw [Option.mem_def.1 hc] at hword
    exact hword

theorem isVisible_last (h : Lexeme word rest kind) : ∀ c ∈ word.getLast?, Text.isVisible c := by
  intro c hc
  cases h with
  | number hn => exact Text.isVisible_of_number (hn.last c hc)
  | @text quote cs _ hq =>
    rw [← List.cons_append, List.getLast?_concat] at hc
    obtain rfl := Option.some.inj hc
    rcases hq with rfl | rfl <;> rfl
  | @word d ds _ hd hds =>
    have hall : ∀ c ∈ d :: ds, Text.continuesWord c :=
      List.forall_mem_cons.2 ⟨Nesting.continuesWord_of_startsWord hd, hds⟩
    exact Text.isVisible_of_continuesWord (hall c (List.mem_of_getLast? hc))
  | mark hm =>
    have hall : ∀ mark ∈ Token.marks, mark.1.getLast?.all Text.isVisible = true := by decide
    have hword := hall _ hm
    dsimp only at hword
    rw [Option.mem_def.1 hc] at hword
    exact hword

end Lexeme

/-! ## Reading from edge to edge -/

namespace Cursor

variable {afterOperand : Bool} {point : Nat} {cs : List Char} {first last : Cursor} {token : Token}
  {tokens : List Token}

/-- The gap before the first token can be left out. -/
theorem Reads.skip (h : Reads ⟨afterOperand, point, cs⟩ (token :: tokens) last) :
    ∃ gap rest, cs = gap ++ rest ∧ Gap gap ∧ (∀ c ∈ rest.head?, Text.isVisible c) ∧
      Reads ⟨afterOperand, point + gap.length, rest⟩ (token :: tokens) last := by
  cases h with
  | token head tail =>
    cases head with
    | @read _ _ start stop gap cs rest c kind hgap hc hread hstart hstop =>
      refine ⟨gap, c :: cs ++ rest, rfl, hgap, ?_, ?_⟩
      · exact (Token.lexeme_of_read? hread).isVisible_first
      · have hnone : Gap [] := by simp [Gap]
        exact .token (.read hnone hc hread hstart hstop) tail

/-- Where no gap begins, the first token begins. -/
theorem Reads.start_eq {others : List Token} (h : Reads first tokens last)
    (htokens : tokens = token :: others) (hfirst : ∀ c ∈ first.rest.head?, Text.isVisible c) :
    token.span.start = first.point := by
  subst htokens
  cases h with
  | token head tail =>
    cases head with
    | @read _ point _ _ gap cs rest c _ hgap _ _ hstart =>
      cases gap with
      | nil => exact hstart
      | cons d gap =>
        have hd : Text.isVisible d := hfirst d rfl
        rcases (List.forall_mem_cons.1 hgap).1 with rfl | rfl | rfl | rfl <;> cases hd

/-- What is read ends with the last token. -/
theorem Reads.exists_last {others : List Token} (h : Reads first tokens last)
    (htokens : tokens = others ++ [token]) :
    ∃ before word, first.rest = before ++ (word ++ last.rest) ∧ Lexeme word last.rest token.kind ∧
      token.span.stop = last.point ∧ last.afterOperand = token.kind.endsOperand := by
  subst htokens
  obtain ⟨middle, hfront, hlast⟩ := reads_append_iff.1 h
  obtain ⟨cs, hcs, -, -⟩ := hfront.cut
  cases hlast with
  | token head tail =>
    cases tail
    cases head with
    | @read _ _ _ _ gap word rest c kind _ _ hread =>
      refine ⟨cs ++ gap, c :: word, ?_, Token.lexeme_of_read? hread, rfl, rfl⟩
      rw [hcs, List.append_assoc]

/-- Behind a token that completes no operand, no operand has ended. -/
theorem Reads.afterOperand_of_last (h : Reads first tokens last)
    (hfirst : first.afterOperand = false)
    (hlast : ∀ token ∈ tokens.getLast?, token.kind.endsOperand = false) :
    last.afterOperand = false := by
  rcases List.eq_nil_or_concat tokens with rfl | ⟨others, other, rfl⟩
  · rwa [← h.eq_of_nil]
  · rw [List.concat_eq_append] at hlast
    obtain ⟨_, _, _, _, _, hafter⟩ := h.exists_last List.concat_eq_append
    exact hafter.trans (hlast other List.getLast?_concat)

/-- What is read lies between a gap before its first token and the end of its last one. -/
theorem Reads.exists_edges {others : List Token} (h : Reads ⟨afterOperand, point, cs⟩ tokens last)
    (htokens : tokens = others ++ [token]) :
    ∃ gap before word, cs = gap ++ (before ++ word ++ last.rest) ∧ Gap gap ∧
      (∀ c ∈ (before ++ word ++ last.rest).head?, Text.isVisible c) ∧
      Lexeme word last.rest token.kind ∧
      last = ⟨token.kind.endsOperand, point + gap.length + (before ++ word).length, last.rest⟩ ∧
      Reads ⟨afterOperand, point + gap.length, before ++ word ++ last.rest⟩ tokens last := by
  obtain ⟨head, tail, hcons⟩ : ∃ head tail, tokens = head :: tail :=
    List.exists_cons_of_ne_nil (by simp [htokens])
  rw [hcons] at h
  obtain ⟨gap, rest, rfl, hgap, hfirst, hreads⟩ := h.skip
  rw [← hcons] at hreads
  obtain ⟨text, htext, hpoint, -⟩ := hreads.cut
  obtain ⟨before, word, hword, hlexeme, -, hafter⟩ := hreads.exists_last htokens
  dsimp only at htext hpoint hword
  rw [← List.append_assoc] at hword
  subst hword
  obtain rfl : text = before ++ word := (List.append_cancel_right htext).symm
  refine ⟨gap, before, word, rfl, hgap, hfirst, hlexeme, ?_, hreads⟩
  rw [← hafter, ← hpoint]

end Cursor

/-- Behind a token that completes an operand, no word goes on. -/
theorem Lexeme.endsApart {before word rest : List Char} {kind : Token.Kind} {point : Nat}
    (h : Lexeme word rest kind) (hk : kind.endsOperand)
    (hknown : ∀ token ∈ Token.scan true point rest, token.kind ≠ .unknown) :
    Nesting.EndsApart (before ++ word) rest := by
  have hword := h.ne_nil
  cases h with
  | number hn =>
    refine .inr fun c hc => ?_
    rw [List.getLast?_append_of_ne_nil before hword] at hc
    rcases hn.last c hc with hdigit | rfl
    · refine Bool.eq_false_iff.2 fun halpha => ?_
      have hstarts : Text.startsWord c := by simp [Text.startsWord, halpha]
      rw [Token.isDigit_of_startsWord hstarts] at hdigit
      cases hdigit
    · rfl
  | text hq =>
    refine .inr fun c hc => ?_
    rw [List.getLast?_append_of_ne_nil before hword, ← List.cons_append, List.getLast?_concat] at hc
    obtain rfl := Option.some.inj hc
    rcases hq with rfl | rfl <;> rfl
  | word _ _ hstops => exact .inl (Nesting.stops_continuesWord hstops hknown)
  | mark hm =>
    have hall : Token.marks.all (fun mark => !mark.2.endsOperand ||
        mark.1.getLast?.all (!·.isAlpha)) = true := by decide
    have hmark := List.all_eq_true.1 hall _ hm
    refine .inr fun c hc => ?_
    rw [List.getLast?_append_of_ne_nil before hword] at hc
    rw [hk, hc] at hmark
    simpa using hmark

/-! ## Parts -/

/-- A part of a text, from the first character of its first token to the last one of its last token,
    with the tokens before it, in it and behind it. -/
structure Part (whole : List Char) (front middle back : List Token) where
  head : List Char
  gap : List Char
  text : List Char
  rest : List Char
  isGap : Gap gap
  whole_eq : whole = head ++ (gap ++ (text ++ rest))
  reads_front : Cursor.Reads ⟨false, 0, whole⟩ front ⟨false, head.length, gap ++ (text ++ rest)⟩
  reads_middle : Cursor.Reads ⟨false, head.length + gap.length, text ++ rest⟩ middle
    ⟨true, head.length + gap.length + text.length, rest⟩
  scan_rest : Token.scan true (head.length + gap.length + text.length) rest = back
  ne_nil : text ≠ []
  first : ∀ c ∈ (text ++ rest).head?, Text.isVisible c
  last : ∀ c ∈ text.getLast?, Text.isVisible c
  endsApart : Nesting.EndsApart text rest

/-- Tokens in the middle of a text are those of a part of it, if an operand begins and ends with
    them. -/
theorem exists_part {whole : List Char} {front middle back tokens : List Token} {token : Token}
    (h : Token.ofText whole = front ++ (middle ++ back))
    (hknown : ∀ token ∈ Token.ofText whole, token.kind ≠ .unknown)
    (hfront : ∀ token ∈ front.getLast?, token.kind.endsOperand = false)
    (hmiddle : middle = tokens ++ [token]) (hk : token.kind.endsOperand) :
    Nonempty (Part whole front middle back) := by
  rw [h] at hknown
  obtain ⟨hknownFront, hknownMiddle, hknownBack⟩ :
      (∀ token ∈ front, token.kind ≠ .unknown) ∧ (∀ token ∈ middle, token.kind ≠ .unknown) ∧
        ∀ token ∈ back, token.kind ≠ .unknown := by
    simpa only [List.forall_mem_append] using hknown
  -- the tokens before the part
  have hwhole : (⟨false, 0, whole⟩ : Cursor).tokens = front ++ (middle ++ back) := h
  obtain ⟨⟨afterFront, point, inside⟩, hreadsFront, hinside⟩ :=
    Cursor.exists_reads hwhole hknownFront
  obtain rfl : afterFront = false := hreadsFront.afterOperand_of_last rfl hfront
  obtain ⟨head, hhead, hpoint, -⟩ := hreadsFront.cut
  dsimp only at hhead hpoint
  rw [Nat.zero_add] at hpoint
  subst hpoint
  -- its own tokens, behind a gap
  obtain ⟨last, hreadsMiddle, hrest⟩ := Cursor.exists_reads hinside hknownMiddle
  obtain ⟨gap, before, word, rfl, hgap, hfirst, hlexeme, hlast, hreads⟩ :=
    hreadsMiddle.exists_edges hmiddle
  rw [hk] at hlast
  rw [hlast] at hreads hrest
  have hvisible : ∀ c ∈ (before ++ word).getLast?, Text.isVisible c := by
    rw [List.getLast?_append_of_ne_nil before hlexeme.ne_nil]
    exact hlexeme.isVisible_last
  have hrest :
      Token.scan true (head.length + gap.length + (before ++ word).length) last.rest = back :=
    hrest
  rw [← hrest] at hknownBack
  have hne : before ++ word ≠ [] := List.append_ne_nil_of_right_ne_nil before hlexeme.ne_nil
  exact ⟨⟨head, gap, before ++ word, last.rest, hgap, hhead, hreadsFront, hreads, hrest, hne,
    hfirst, hvisible, hlexeme.endsApart hk hknownBack⟩⟩

namespace Part

variable {whole : List Char} {front middle back : List Token}

/-- What stands before a part. -/
def lead (part : Part whole front middle back) : List Char := part.head ++ part.gap

theorem whole_eq_lead (part : Part whole front middle back) :
    whole = part.lead ++ (part.text ++ part.rest) := by
  rw [lead, List.append_assoc]
  exact part.whole_eq

theorem length_le (part : Part whole front middle back) : part.text.length ≤ whole.length := by
  have hlength := congrArg List.length part.whole_eq_lead
  rw [List.length_append, List.length_append] at hlength
  omega

theorem first_text (part : Part whole front middle back) :
    ∀ c ∈ part.text.head?, Text.isVisible c := by
  intro c hc
  refine part.first c ?_
  rw [List.head?_append, hc]
  rfl

/-- The tokens of a part alone are those that it has in the text. -/
theorem tokens_text (part : Part whole front middle back) :
    Token.scan false part.lead.length part.text = middle := by
  obtain ⟨cs, hcs, -, hcut⟩ := part.reads_middle.cut
  obtain rfl : cs = part.text := (List.append_cancel_right hcs).symm
  have hreads := (hcut [] List.nil_prefix).tokens_eq
  simp only [List.append_nil, Cursor.tokens, Token.scan] at hreads
  rw [lead, List.length_append]
  exact hreads

/-- A part whose tokens are those of a phrase is what the phrase covers. -/
theorem span_eq {phrase : Phrase} (part : Part whole front phrase.tokens back) :
    phrase.span = ⟨part.lead.length, part.lead.length + part.text.length⟩ := by
  obtain ⟨first, others, htokens, hstart⟩ := phrase.exists_first
  obtain ⟨others', last, htokens', hstop, -⟩ := phrase.exists_last
  have hlead : part.lead.length = part.head.length + part.gap.length := List.length_append
  have hbegin := part.reads_middle.start_eq htokens part.first
  obtain ⟨_, _, _, _, hend, -⟩ := part.reads_middle.exists_last htokens'
  rw [Phrase.span, ← hstart, ← hstop, hbegin, hend, hlead]

theorem of_span {phrase : Phrase} (part : Part whole front phrase.tokens back) :
    phrase.span.of whole = part.text := by
  have hdrop : whole.drop part.lead.length = part.text ++ part.rest :=
    (congrArg (List.drop part.lead.length) part.whole_eq_lead).trans List.drop_left
  rw [part.span_eq, Span.of, hdrop, Nat.add_sub_cancel_left, List.take_left]

/-- So its text is one of the phrase. -/
theorem exists_phrase {phrase : Phrase} (part : Part whole front phrase.tokens back)
    (h : phrase.WellFormed) :
    ∃ alone : Phrase, Phrase.ofText part.text = .ok alone ∧
      alone.shift part.lead.length = phrase := by
  refine Phrase.exists_alone ?_ h
  rw [Token.ofText, ← Token.scan_shift, Nat.zero_add]
  exact part.tokens_text

/-- Behind the tokens before a part, its own are read. -/
theorem scan_gap_text (part : Part whole front middle back) :
    Token.scan false part.head.length (part.gap ++ (part.text ++ part.rest)) = middle ++ back := by
  have hmiddle := part.reads_middle.tokens_eq
  simp only [Cursor.tokens, part.scan_rest] at hmiddle
  rw [Token.scan_gap part.isGap, hmiddle]

theorem tokens_whole (part : Part whole front middle back) :
    Token.ofText whole = front ++ (middle ++ back) := by
  have hfront := part.reads_front.tokens_eq
  simp only [Cursor.tokens, part.scan_gap_text] at hfront
  exact hfront

/-- No part nests more deeply alone than the whole text. -/
theorem depth_le (part : Part whole front middle back) (hbalanced : Token.Balanced middle)
    (hknown : ∀ token ∈ Token.ofText whole, token.kind ≠ .unknown)
    (hapart : (front ++ (middle ++ back).take 1).IsChain Token.Apart)
    (hfront : ∀ token ∈ front.getLast?, token.kind.endsOperand = false) :
    Nesting.depth part.text ≤ Nesting.depth whole := by
  have hmiddle : ∀ token ∈ Token.scan false part.lead.length part.text, token.kind ≠ .unknown := by
    rw [part.tokens_text]
    intro token htoken
    refine hknown token ?_
    rw [part.tokens_whole]
    exact List.mem_append_right _ (List.mem_append_left _ htoken)
  have hopen : Nesting.ClosesAtMost 0 (Nesting.brackets part.text) := by
    have hclosed := (Nesting.closesAtMost_append hbalanced 0 []).2 trivial
    rwa [Nesting.brackets_of_scan hmiddle, part.tokens_text,
      ← List.append_nil (Nesting.bracketsOf _)]
  rw [← part.scan_gap_text] at hapart
  exact Nesting.depth_le_of_reads part.reads_front part.isGap hknown hapart hfront hopen
    part.endsApart

end Part

end Calculator
