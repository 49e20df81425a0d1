import Calculator.Proofs.Lexemes

/-!
# Parts of a text

The scanner needs nothing behind a token but to see where the token ends. So a text can be cut
behind any of its tokens, and both parts have the tokens that they have in the whole text.

* `Cursor`: where the scanner stands in a text.
* `Cursor.Step`, `Cursor.Reads`: one token, or several, that the scanner reads from there.

Results:
* `Numeral.read?_take`, `Token.read?_take`: what is read is read in every beginning that holds it.
* `Cursor.exists_reads`: a text whose tokens are two lists is read in two parts.
* `Cursor.Reads.cut`: the first part is read alone as in the text.
-/

namespace Calculator

open Grammar

theorem Stops.take {p : Char → Bool} {rest : List Char} (h : Stops p rest) (n : Nat) :
    Stops p (rest.take n) := by
  rw [← List.take_append_drop n rest] at h
  exact h.of_append

/-- The beginning of a text that reaches into its second part. -/
theorem take_append_of_length_le {front : List Char} {n : Nat} (h : front.length ≤ n)
    (back : List Char) : (front ++ back).take n = front ++ back.take (n - front.length) := by
  rw [List.take_append, List.take_of_length_le h]

/-! ## Numbers -/

namespace Numeral

variable {cs : List Char} {n : Nat}

theorem digits_take (cs : List Char) (n : Nat) : digits (cs.take n) = (digits cs).take n :=
  List.take_takeWhile.symm

theorem exponentSign_take (h : 0 < n) : exponentSign (cs.take n) = exponentSign cs := by
  obtain ⟨n, rfl⟩ := Nat.exists_eq_add_one_of_ne_zero (Nat.ne_of_gt h)
  cases cs with
  | nil => rfl
  | cons c cs =>
    rw [List.take_succ_cons]
    unfold exponentSign
    split <;> simp_all

/-- The beginning of a text that holds the exponent of the text has the same exponent. -/
theorem exponent?_take {power : Int} {width : Nat} (h : exponent? cs = some (power, width))
    (hn : width ≤ n) : exponent? (cs.take n) = some (power, width) := by
  cases cs with
  | nil => cases h
  | cons c cs =>
    rw [exponent?] at h
    split at h
    · rename_i hmark
      dsimp only at h
      split at h
      · cases h
      · rename_i hempty
        cases h
        have hpos : 0 < (digits (cs.drop (exponentSign cs).2)).length :=
          List.length_pos_iff.2 (mt List.isEmpty_iff.2 hempty)
        obtain ⟨n, rfl⟩ : ∃ m, n = m + 1 := ⟨n - 1, by omega⟩
        have hdigits : digits ((cs.take n).drop (exponentSign cs).2) =
            digits (cs.drop (exponentSign cs).2) := by
          rw [List.drop_take, digits_take, List.take_of_length_le (by omega)]
        rw [List.take_succ_cons, exponent?, if_pos hmark, exponentSign_take (by omega)]
        simp only [hdigits, if_neg hempty]
    · cases h

/-- No beginning of a text without an exponent has one. -/
theorem exponent?_take_eq_none (h : exponent? cs = none) (n : Nat) :
    exponent? (cs.take n) = none := by
  rcases n with _ | _ | n
  · rfl
  · -- a letter alone is no exponent
    cases cs with
    | nil => rfl
    | cons c cs => simp [exponent?, exponentSign, digits]
  · cases cs with
    | nil => rfl
    | cons c cs =>
      rw [exponent?] at h
      split at h
      · rename_i hmark
        dsimp only at h
        split at h
        · rename_i hempty
          have hdigits : digits ((cs.take (n + 1)).drop (exponentSign cs).2) = [] := by
            rw [List.drop_take, digits_take, List.isEmpty_iff.1 hempty, List.take_nil]
          rw [List.take_succ_cons, exponent?, if_pos hmark, exponentSign_take (Nat.succ_pos n)]
          simp only [hdigits, List.isEmpty_nil, if_true]
        · cases h
      · rename_i hmark
        rw [List.take_succ_cons, exponent?, if_neg hmark]

/-- The beginning of a text that holds a number without a point has the same number. -/
theorem unpointed_take {whole tail : List Char} {literal : Literal} {width : Nat}
    (hw : AllDigits whole) (ht : Stops Char.isDigit tail) (hp : Stops (· == '.') tail)
    (h : read? (whole ++ tail) = some (literal, width)) (hn : width ≤ n) :
    read? ((whole ++ tail).take n) = some (literal, width) := by
  rw [read?_unpointed hw ht hp] at h
  split at h
  · cases h
  · rename_i hempty
    split at h
    · rename_i power more hexponent
      cases h
      rw [take_append_of_length_le (by omega), read?_unpointed hw (ht.take _) (hp.take _),
        if_neg hempty, exponent?_take hexponent (by omega)]
    · rename_i hexponent
      split at h
      · rename_i hinteger
        cases h
        rw [take_append_of_length_le hn, read?_unpointed hw (ht.take _) (hp.take _),
          if_neg hempty, exponent?_take_eq_none hexponent, if_pos hinteger]
      · cases h

/-- The beginning of a text that holds a number with a point has the same number. -/
theorem pointed_take {whole fraction tail : List Char} {literal : Literal} {width : Nat}
    (hw : AllDigits whole) (hf : AllDigits fraction) (ht : Stops Char.isDigit tail)
    (h : read? (whole ++ '.' :: (fraction ++ tail)) = some (literal, width)) (hn : width ≤ n) :
    read? ((whole ++ '.' :: (fraction ++ tail)).take n) = some (literal, width) := by
  rw [read?_pointed hw hf ht] at h
  split at h
  · cases h
  · rename_i hempty
    have hlength : (whole ++ '.' :: fraction).length = whole.length + 1 + fraction.length := by
      rw [List.length_append, List.length_cons]
      omega
    have hwidth : whole.length + 1 + fraction.length + ((exponent? tail).getD (0, 0)).2 = width :=
      congrArg Prod.snd (Option.some.inj h)
    have hexponent : exponent? (tail.take (n - (whole.length + 1 + fraction.length))) =
        exponent? tail := by
      cases hexponent : exponent? tail with
      | none => exact exponent?_take_eq_none hexponent _
      | some found =>
        rw [hexponent, Option.getD_some] at hwidth
        exact exponent?_take hexponent (by omega)
    have htake := take_append_of_length_le (by omega : (whole ++ '.' :: fraction).length ≤ n) tail
    rw [hlength, List.append_assoc, List.append_assoc, List.cons_append, List.cons_append] at htake
    rw [htake, read?_pointed hw hf (ht.take _), if_neg hempty, hexponent]
    exact h

/-- The beginning of a text that holds the number of the text has the same number. -/
theorem read?_take {literal : Literal} {width : Nat} (h : read? cs = some (literal, width))
    (hn : width ≤ n) : read? (cs.take n) = some (literal, width) := by
  obtain ⟨whole, tail, rfl, hw, ht⟩ := Stops.exists_append Char.isDigit cs
  rcases Stops.or_exists_cons '.' tail with hp | ⟨tail, rfl⟩
  · exact unpointed_take hw ht hp h hn
  · obtain ⟨fraction, tail, rfl, hf, htail⟩ := Stops.exists_append Char.isDigit tail
    exact pointed_take hw hf htail h hn

end Numeral

/-! ## Tokens -/

/-- The beginning of a text that holds the closing quote holds the same quoted text. -/
theorem Quoted.content?_take {quote : Char} {cs content : List Char} {n : Nat}
    (hq : quote = '\'' ∨ quote = '"') (h : content? quote cs = some content)
    (hn : content.length + 1 ≤ n) : content? quote (cs.take n) = some content := by
  have hescape : quote ≠ '\\' := by rcases hq with rfl | rfl <;> decide
  obtain ⟨rest, rfl, hcontent⟩ := content?_sound h
  obtain ⟨m, hm⟩ : ∃ m, n - content.length = m + 1 := ⟨n - content.length - 1, by omega⟩
  rw [take_append_of_length_le (by omega), hm, List.take_succ_cons]
  exact content?_append hescape hcontent

namespace Token

variable {afterOperand : Bool} {c : Char} {cs : List Char} {kind : Kind} {width n : Nat}

/-- A mark begins the beginning of a text if that is no shorter and the mark begins the text. -/
theorem isPrefixOf_take {mark cs : List Char} (hn : mark.length ≤ n) :
    mark.isPrefixOf (cs.take n) = mark.isPrefixOf cs := by
  refine Bool.eq_iff_iff.2 ?_
  rw [List.isPrefixOf_iff_prefix, List.isPrefixOf_iff_prefix, List.prefix_take_iff]
  exact and_iff_left hn

theorem mark?_take (h : mark? cs = some (kind, width)) (hn : width ≤ n) :
    mark? (cs.take n) = some (kind, width) := by
  obtain ⟨mark, hfind, heq⟩ := Option.map_eq_some_iff.1 h
  obtain ⟨hmark, before, after, hmarks, hbefore⟩ := List.find?_eq_some_iff_append.1 hfind
  have hwidth : mark.1.length ≤ n := by
    cases heq
    exact hn
  refine Option.map_eq_some_iff.2 ⟨mark, List.find?_eq_some_iff_append.2
    ⟨?_, before, after, hmarks, fun other hother => ?_⟩, heq⟩
  · rw [isPrefixOf_take hwidth]
    exact hmark
  · -- what begins the beginning of a text begins the text
    rw [Bool.not_eq_true', Bool.eq_false_iff, ne_eq, List.isPrefixOf_iff_prefix]
    intro hstart
    have hnone := hbefore other hother
    rw [Bool.not_eq_true', Bool.eq_false_iff, ne_eq, List.isPrefixOf_iff_prefix] at hnone
    exact hnone (hstart.trans (List.take_prefix n cs))

theorem startsNumeral_take_succ (afterOperand : Bool) (c : Char) (cs : List Char) (n : Nat) :
    startsNumeral afterOperand c (cs.take (n + 1)) = startsNumeral afterOperand c cs := by
  cases cs with
  | nil => rfl
  | cons d cs => rfl

/-- Where no number starts, none starts in the beginning of the text. -/
theorem not_startsNumeral_take (h : ¬startsNumeral afterOperand c cs) :
    ¬startsNumeral afterOperand c (cs.take n) := by
  cases n with
  | zero =>
    simp only [startsNumeral, List.take_zero, List.head?_nil, Option.any_none, Bool.and_false,
      Bool.or_false, Bool.or_eq_true, not_or] at h ⊢
    exact h.1
  | succ n => rwa [startsNumeral_take_succ]

/-- A number of one character is a digit. -/
theorem isDigit_of_read? {literal : Literal} (h : Numeral.read? (c :: cs) = some (literal, width))
    (hn : width ≤ 1) : c.isDigit := by
  obtain ⟨word, rest, htext, rfl, hword⟩ := Numeral.read?_sound h
  obtain ⟨d, tail, rfl, hstarts⟩ := beginsNumeral_number hword
  obtain rfl : tail = [] := List.length_eq_zero_iff.1 (by simpa using hn)
  cases htext
  simpa [startsNumeral] using hstarts []

/-- What is read is read in every beginning of the text that holds it. -/
theorem read?_take (h : read? afterOperand c cs = some (kind, width)) (hn : width ≤ n + 1) :
    read? afterOperand c (cs.take n) = some (kind, width) := by
  unfold read? at h ⊢
  split at h
  · rename_i hstarts
    obtain ⟨⟨literal, w⟩, hread, heq⟩ := Option.map_eq_some_iff.1 h
    cases heq
    have hstarts : startsNumeral afterOperand c (cs.take n) := by
      cases n with
      | zero => simp [startsNumeral, isDigit_of_read? hread hn]
      | succ n => rwa [startsNumeral_take_succ]
    rw [if_pos hstarts, ← List.take_succ_cons, Numeral.read?_take hread hn]
    rfl
  · rename_i hstarts
    rw [if_neg (not_startsNumeral_take hstarts)]
    split at h
    · rename_i hquote
      obtain ⟨content, hread, heq⟩ := Option.map_eq_some_iff.1 h
      cases heq
      rw [if_pos hquote, Quoted.content?_take hquote hread (by omega)]
      rfl
    · rename_i hquote
      rw [if_neg hquote]
      split at h
      · rename_i hword
        cases h
        rw [if_pos hword, ← List.take_takeWhile, List.take_of_length_le]
        simpa using hn
      · rename_i hword
        rw [if_neg hword, ← List.take_succ_cons]
        exact mark?_take h hn

/-- A character that is read is no gap, and what is read holds it. -/
theorem exists_word (h : read? afterOperand c cs = some (kind, width)) :
    ∃ tail rest, cs = tail ++ rest ∧ width = (c :: tail).length ∧ Lexeme (c :: tail) rest kind := by
  obtain ⟨word, rest, htext, rfl, hword⟩ := read?_sound h
  obtain ⟨d, tail, rfl⟩ := List.exists_cons_of_ne_nil hword.ne_nil
  cases htext
  exact ⟨tail, rest, rfl, rfl, hword⟩

/-- What is read is a lexeme. -/
theorem lexeme_of_read? {rest : List Char}
    (h : read? afterOperand c (cs ++ rest) = some (kind, (c :: cs).length)) :
    Lexeme (c :: cs) rest kind := by
  obtain ⟨tail, rest', htext, hlength, hword⟩ := exists_word h
  obtain ⟨rfl, rfl⟩ := List.append_inj htext (Nat.succ.inj hlength)
  exact hword

end Token

/-! ## Reading on -/

/-- Where the scanner stands: whether an operand has just ended, the point, and what is left of the
    text. -/
structure Cursor where
  afterOperand : Bool
  point : Nat
  rest : List Char

namespace Cursor

/-- The tokens that are left. -/
def tokens (cursor : Cursor) : List Token :=
  Token.scan cursor.afterOperand cursor.point cursor.rest

/-- A token that the scanner reads behind a gap or none, and where it stands then. -/
inductive Step : Cursor → Token → Cursor → Prop
  | read {afterOperand : Bool} {point start stop : Nat} {gap cs rest : List Char} {c : Char}
      {kind : Token.Kind} (hgap : Gap gap) (hc : Token.isGap c = false)
      (hread : Token.read? afterOperand c (cs ++ rest) = some (kind, (c :: cs).length))
      (hstart : start = point + gap.length) (hstop : stop = start + (c :: cs).length) :
      Step ⟨afterOperand, point, gap ++ (c :: cs ++ rest)⟩ ⟨kind, ⟨start, stop⟩⟩
        ⟨kind.endsOperand, stop, rest⟩

/-- Tokens that the scanner reads one after another, and where it stands then. -/
inductive Reads : Cursor → List Token → Cursor → Prop
  | done (cursor : Cursor) : Reads cursor [] cursor
  | token {first next last : Cursor} {token : Token} {tokens : List Token}
      (head : Step first token next) (tail : Reads next tokens last) :
      Reads first (token :: tokens) last

variable {first next last : Cursor} {token : Token} {tokens front back : List Token}

/-! ### One token -/

theorem Step.tokens_eq (h : Step first token next) : first.tokens = token :: next.tokens := by
  cases h with
  | read hgap hc hread hstart hstop =>
    subst hstart hstop
    rw [tokens, tokens, Token.scan_gap hgap, Token.scan_read hc hread]

/-- A gap goes before the first token. -/
theorem Step.gap {afterOperand : Bool} {point : Nat} {c : Char} {cs : List Char}
    (h : Step ⟨afterOperand, point + 1, cs⟩ token next) (hc : Token.isGap c) :
    Step ⟨afterOperand, point, c :: cs⟩ token next := by
  cases h with
  | @read _ _ _ _ gap _ _ _ _ hgap hc' hread hstart hstop =>
    have hgap : Gap (c :: gap) := List.forall_mem_cons.2 ⟨Token.isGap_iff.1 hc, hgap⟩
    exact .read hgap hc' hread (by rw [hstart, List.length_cons]; omega) hstop

/-- The first token of a text is read first. -/
theorem exists_step (h : first.tokens = token :: tokens) (hk : token.kind ≠ .unknown) :
    ∃ next, Step first token next ∧ next.tokens = tokens := by
  obtain ⟨afterOperand, point, cs⟩ := first
  dsimp only [Cursor.tokens] at h
  induction cs generalizing point with
  | nil =>
    rw [Token.scan] at h
    cases h
  | cons c cs ih =>
    rw [Token.scan] at h
    split at h
    · rename_i hc
      obtain ⟨next, hstep, htokens⟩ := ih (point + 1) h
      exact ⟨next, hstep.gap hc, htokens⟩
    · rename_i hc
      split at h
      · cases h
        exact absurd rfl hk
      · rename_i kind width hread
        cases h
        obtain ⟨tail, rest, rfl, rfl, hword⟩ := Token.exists_word hread
        have hnone : Gap [] := by simp [Gap]
        refine ⟨_, .read hnone (Bool.eq_false_iff.2 hc) hread rfl rfl, ?_⟩
        rw [Cursor.tokens, List.length_cons, Nat.add_sub_cancel, List.drop_left]

/-- A token is read the same way where the text ends earlier behind it. -/
theorem Step.cut (h : Step first token next) :
    ∃ cs, first.rest = cs ++ next.rest ∧ next.point = first.point + cs.length ∧
      ∀ back, back <+: next.rest →
        Step ⟨first.afterOperand, first.point, cs ++ back⟩ token
          ⟨next.afterOperand, next.point, back⟩ := by
  cases h with
  | @read afterOperand point start stop gap cs rest c kind hgap hc hread hstart hstop =>
    refine ⟨gap ++ c :: cs, ?_, ?_, ?_⟩
    · rw [List.append_assoc]
    · dsimp only
      rw [hstop, hstart, List.length_append, Nat.add_assoc]
    · rintro back ⟨more, rfl⟩
      have hback : Token.read? afterOperand c (cs ++ back) = some (kind, (c :: cs).length) := by
        have htake := Token.read?_take (n := (cs ++ back).length) hread (by simp)
        rwa [← List.append_assoc, List.take_left] at htake
      rw [List.append_assoc]
      exact .read hgap hc hback hstart hstop

/-! ### Several tokens -/

theorem Reads.tokens_eq (h : Reads first front last) : first.tokens = front ++ last.tokens := by
  induction h with
  | done => rfl
  | token head _ ih => rw [head.tokens_eq, ih, List.cons_append]

theorem Reads.eq_of_nil (h : Reads first [] last) : first = last := by
  cases h
  rfl

/-- A text whose tokens are two lists is read in two parts. -/
theorem exists_reads (h : first.tokens = front ++ back)
    (hknown : ∀ token ∈ front, token.kind ≠ .unknown) :
    ∃ middle, Reads first front middle ∧ middle.tokens = back := by
  induction front generalizing first with
  | nil => exact ⟨first, .done first, h⟩
  | cons token front ih =>
    obtain ⟨hk, hknown⟩ := List.forall_mem_cons.1 hknown
    obtain ⟨next, hstep, hnext⟩ := exists_step h hk
    obtain ⟨middle, hreads, hmiddle⟩ := ih hnext hknown
    exact ⟨middle, .token hstep hreads, hmiddle⟩

theorem reads_append_iff :
    Reads first (front ++ back) last ↔
      ∃ middle, Reads first front middle ∧ Reads middle back last := by
  induction front generalizing first with
  | nil =>
    constructor
    · intro h
      exact ⟨first, .done first, h⟩
    · rintro ⟨_, hfront, hback⟩
      cases hfront
      exact hback
  | cons token front ih =>
    constructor
    · intro h
      cases h with
      | token head tail =>
        obtain ⟨middle, hfront, hback⟩ := ih.1 tail
        exact ⟨middle, .token head hfront, hback⟩
    · rintro ⟨middle, hfront, hback⟩
      cases hfront with
      | token head tail => exact .token head (ih.2 ⟨middle, tail, hback⟩)

/-- Tokens are read the same way where the text ends earlier behind them. -/
theorem Reads.cut (h : Reads first front last) :
    ∃ cs, first.rest = cs ++ last.rest ∧ last.point = first.point + cs.length ∧
      ∀ back, back <+: last.rest →
        Reads ⟨first.afterOperand, first.point, cs ++ back⟩ front
          ⟨last.afterOperand, last.point, back⟩ := by
  induction h with
  | done cursor => exact ⟨[], rfl, rfl, fun back _ => .done _⟩
  | @token first next last token tokens head _ ih =>
    obtain ⟨word, hfirst, hpoint, hhead⟩ := head.cut
    obtain ⟨cs, hnext, hlast, htail⟩ := ih
    refine ⟨word ++ cs, ?_, ?_, fun back hback => ?_⟩
    · rw [hfirst, hnext, List.append_assoc]
    · rw [hlast, hpoint, List.length_append, Nat.add_assoc]
    · have hstart : cs ++ back <+: next.rest := by
        rw [hnext]
        exact (List.prefix_append_right_inj cs).2 hback
      rw [List.append_assoc]
      exact .token (hhead _ hstart) (htail back hback)

end Cursor

end Calculator
