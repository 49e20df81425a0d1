import Calculator.Proofs.IntegerRange
import Calculator.Proofs.Numerals

/-!
# The tokens of a text

The scanner takes a text for gaps and lexemes in turn, each lexeme with its own kind; and where the
grammar has a token, the scanner finds it, if only nothing runs into it.

* `Lexeme`: the words that are tokens of some kind, given what follows.

Results:
* `Token.read?_sound`: what is read is a lexeme, and the text goes on behind it.
* `Token.exists_of_scan`, `Token.gap_of_scan`: a text from which tokens are scanned, or none.
* `Token.scan_gap`, `Token.scan_number`, `Token.scan_text`, `Token.scan_word`,
  `Token.scan_operator`: one step of the scanner over each part of an expression.
-/

namespace Calculator

open Grammar

/-! ## Quoted texts -/

namespace Quoted

variable {quote c : Char} {cs rest : List Char}

theorem content?_closing (hq : quote ≠ '\\') : content? quote (quote :: rest) = some [] := by
  cases rest <;> simp [content?, hq]

theorem content?_plain (hq : c ≠ quote) (he : c ≠ '\\') (hl : c ≠ '\n') (hcs : cs ≠ []) :
    content? quote (c :: cs) = (content? quote cs).map (c :: ·) := by
  obtain ⟨d, cs, rfl⟩ := List.exists_cons_of_ne_nil hcs
  rw [content?, if_neg he, if_neg hq, if_neg hl]

/-- A quoted text is read up to the quote behind it. -/
theorem content?_append (hq : quote ≠ '\\') (h : QuotedContent quote cs) :
    content? quote (cs ++ quote :: rest) = some cs := by
  induction h with
  | nil => exact content?_closing hq
  | escaped _ ih =>
    rw [List.cons_append, List.cons_append, content?, if_pos rfl, ih]
    rfl
  | plain hc he hl _ ih =>
    rw [List.cons_append, content?_plain hc he hl (by simp), ih]
    rfl

/-- What is read may stand between quotes, and the second quote follows it. -/
theorem content?_sound {content : List Char} (h : content? quote cs = some content) :
    ∃ rest, cs = content ++ quote :: rest ∧ QuotedContent quote content := by
  fun_induction content? quote cs generalizing content with
  | case1 => cases h
  | case2 =>
    cases h
    exact ⟨[], rfl, .nil⟩
  | case3 => cases h
  | case4 d rest ih =>
    -- a backslash and the character that it takes along
    obtain ⟨inner, hinner, rfl⟩ := Option.map_eq_some_iff.1 h
    obtain ⟨tail, rfl, hcontent⟩ := ih hinner
    exact ⟨tail, rfl, .escaped hcontent⟩
  | case5 d rest he =>
    cases h
    exact ⟨d :: rest, rfl, .nil⟩
  | case6 => cases h
  | case7 c d rest he hq hl ih =>
    obtain ⟨inner, hinner, rfl⟩ := Option.map_eq_some_iff.1 h
    obtain ⟨tail, heq, hcontent⟩ := ih hinner
    exact ⟨tail, by rw [heq]; rfl, .plain hq he hl hcontent⟩

end Quoted

/-! ## Lexemes -/

/-- The words that are tokens of some kind, given what follows. -/
inductive Lexeme : List Char → List Char → Token.Kind → Prop where
  | number {word rest : List Char} {value : Literal} :
    Grammar.Number word value → Lexeme word rest (.literal value)
  | text {quote : Char} {cs rest : List Char} :
    quote = '\'' ∨ quote = '"' → QuotedContent quote cs →
    Lexeme (quote :: (cs ++ [quote])) rest (.literal (.text (.ofList cs)))
  | word {c : Char} {cs rest : List Char} :
    Text.startsWord c → (∀ c ∈ cs, Text.continuesWord c) → Stops Text.continuesWord rest →
    Lexeme (c :: cs) rest (.ofWord (c :: cs))
  | mark {word rest : List Char} {kind : Token.Kind} :
    (word, kind) ∈ Token.marks → Lexeme word rest kind

namespace Token

theorem mark?_sound {cs : List Char} {kind : Kind} {width : Nat}
    (h : mark? cs = some (kind, width)) :
    ∃ word rest, cs = word ++ rest ∧ width = word.length ∧ (word, kind) ∈ marks := by
  obtain ⟨⟨word, kind'⟩, hfind, heq⟩ := Option.map_eq_some_iff.1 h
  cases heq
  have hstart := List.find?_some hfind
  have hprefix : word <+: cs := List.isPrefixOf_iff_prefix.1 hstart
  obtain ⟨rest, rfl⟩ := hprefix
  exact ⟨word, rest, rfl, rfl, List.mem_of_find?_eq_some hfind⟩

/-- What is read is a lexeme, and the text goes on behind it. -/
theorem read?_sound {afterOperand : Bool} {c : Char} {cs : List Char} {kind : Kind} {width : Nat}
    (h : read? afterOperand c cs = some (kind, width)) :
    ∃ word rest, c :: cs = word ++ rest ∧ width = word.length ∧ Lexeme word rest kind := by
  unfold read? at h
  split at h
  · obtain ⟨⟨literal, n⟩, hread, heq⟩ := Option.map_eq_some_iff.1 h
    cases heq
    obtain ⟨word, rest, hcs, hwidth, hnumber⟩ := Numeral.read?_sound hread
    exact ⟨word, rest, hcs, hwidth, .number hnumber⟩
  · split at h
    · rename_i hquote
      obtain ⟨content, hread, heq⟩ := Option.map_eq_some_iff.1 h
      cases heq
      obtain ⟨rest, rfl, hcontent⟩ := Quoted.content?_sound hread
      exact ⟨c :: (content ++ [c]), rest, by simp, by simp, .text hquote hcontent⟩
    · split at h
      · rename_i hstarts
        cases h
        obtain ⟨run, rest, rfl, hrun, hrest⟩ := Stops.exists_append Text.continuesWord cs
        rw [hrest.takeWhile_append hrun]
        exact ⟨c :: run, rest, rfl, rfl, .word hstarts hrun hrest⟩
      · obtain ⟨word, rest, hcs, hwidth, hmark⟩ := mark?_sound h
        exact ⟨word, rest, hcs, hwidth, .mark hmark⟩

/-! ### Words and marks -/

/-- The words with a meaning of their own are the only ones of their kinds. -/
theorem Kind.ofWord_cases (word : List Char) :
    (ofWord word = .logical .and ∨ ofWord word = .logical .or ∨ ofWord word = .name) ∨
      (word = ['n', 'o', 't'] ∧ ofWord word = .not) ∨
      (word = ['T', 'r', 'u', 'e'] ∧ ofWord word = .literal (.bool true)) ∨
      (word = ['F', 'a', 'l', 's', 'e'] ∧ ofWord word = .literal (.bool false)) ∨
      word = ['N', 'o', 'n', 'e'] ∧ ofWord word = .literal .none := by
  unfold ofWord
  repeat' split
  all_goals simp [*]

/-- The kinds that only marks have. -/
def Kind.isMark : Kind → Bool
  | .literal _ | .name | .logical _ | .not | .unknown => false
  | .operator _ | .tilde | .opening _ | .closing _ | .comma | .colon | .dot | .equals => true

theorem Kind.isMark_ofWord (word : List Char) : (ofWord word).isMark = false := by
  rcases ofWord_cases word with (h | h | h) | ⟨_, h⟩ | ⟨_, h⟩ | ⟨_, h⟩ | ⟨_, h⟩
  all_goals
    rw [h]
    rfl

/-! ### How numbers begin -/

/-- A text that begins as a number does, where an operand can stand. -/
def BeginsNumeral (cs : List Char) : Prop :=
  ∃ c tail, cs = c :: tail ∧ ∀ rest, startsNumeral false c (tail ++ rest)

theorem beginsNumeral_digits {ds : List Char} (hds : AllDigits ds) (hne : ds ≠ [])
    (rest : List Char) : BeginsNumeral (ds ++ rest) := by
  obtain ⟨c, cs, rfl⟩ := List.exists_cons_of_ne_nil hne
  have hc : c.isDigit := (List.forall_mem_cons.1 hds).1
  exact ⟨c, cs ++ rest, rfl, fun _ => by simp [startsNumeral, hc]⟩

/-- A point without digits before it has one behind it. -/
theorem beginsNumeral_pointed {whole fraction : List Char} (hw : AllDigits whole)
    (hf : AllDigits fraction) (hne : ¬(whole = [] ∧ fraction = [])) (rest : List Char) :
    BeginsNumeral (whole ++ '.' :: (fraction ++ rest)) := by
  by_cases hempty : whole = []
  · subst hempty
    obtain ⟨d, ds, rfl⟩ := List.exists_cons_of_ne_nil fun h => hne ⟨rfl, h⟩
    have hd : d.isDigit := (List.forall_mem_cons.1 hf).1
    exact ⟨'.', d :: ds ++ rest, rfl, fun _ => by simp [startsNumeral, hd]⟩
  · exact beginsNumeral_digits hw hempty _

theorem beginsNumeral_number {word : List Char} {value : Literal}
    (h : Grammar.Number word value) : BeginsNumeral word := by
  cases h with
  | integer hi =>
    have hbegins := beginsNumeral_digits hi.allDigits.1 hi.allDigits.2 []
    rwa [List.append_nil] at hbegins
  | float hf =>
    cases hf with
    | pointed hw hf hne =>
      have hbegins := beginsNumeral_pointed hw hf hne []
      rwa [List.append_nil] at hbegins
    | pointedExponent hw hf hne _ => exact beginsNumeral_pointed hw hf hne _
    | exponent hw hne _ => exact beginsNumeral_digits hw hne _

end Token

/-! ### Lexemes of one kind -/

/-- Integers up to `2 ^ 63 - 1` are constants. -/
theorem Literal.toConstant_integer_eq_ok_iff {n : Nat} {constant : Constant} :
    (Literal.integer n).toConstant = .ok constant ↔
      n ≤ 2 ^ 63 - 1 ∧ constant = .integer (.ofNat n) := by
  have hrange : Number.InRange n ↔ n ≤ 2 ^ 63 - 1 := by
    rw [Number.inRange_iff]
    omega
  rw [toConstant, ← hrange]
  by_cases h : Number.InRange n
  · simp [h, eq_comm]
  · simp [h]

namespace Lexeme

variable {word rest : List Char}

/-- A literal in the range of constants is an atom. -/
theorem derives {value : Literal} {constant : Constant} (h : Lexeme word rest (.literal value))
    (hc : value.toConstant = .ok constant) : Derives .atom word (.constant constant) := by
  generalize hkind : Token.Kind.literal value = kind at h
  cases h with
  | number hn =>
    cases hkind
    cases hn with
    | integer hi =>
      obtain ⟨hle, rfl⟩ := Literal.toConstant_integer_eq_ok_iff.1 hc
      exact .integer hi hle
    | float hf =>
      cases hc
      exact .float hf
  | text hq hcontent =>
    cases hkind
    cases hc
    exact .string hq hcontent
  | @word c cs =>
    rcases Token.Kind.ofWord_cases (c :: cs) with
      (h | h | h) | ⟨_, h⟩ | ⟨hw, h⟩ | ⟨hw, h⟩ | ⟨hw, h⟩ <;> rw [h] at hkind <;> cases hkind
    -- only the words that are constants are left
    · cases hc
      rw [hw]
      exact .true
    · cases hc
      rw [hw]
      exact .false
    · cases hc
      rw [hw]
      exact .none
  | mark hm =>
    have hall : ∀ mark ∈ Token.marks, ∀ value, mark.2 ≠ .literal value := by
      simp [Token.marks]
    exact absurd hkind.symm (hall _ hm value)

theorem mem_marks {kind : Token.Kind} (h : Lexeme word rest kind) (hk : kind.isMark) :
    (word, kind) ∈ Token.marks := by
  cases h with
  | number => cases hk
  | text => cases hk
  | word => rw [Token.Kind.isMark_ofWord] at hk; cases hk
  | mark hm => exact hm

/-- A kind that one mark has alone gives the mark away. -/
theorem eq_of_marks {kind : Token.Kind} {mark : List Char} (h : Lexeme word rest kind)
    (hk : kind.isMark) (hall : ∀ entry ∈ Token.marks, entry.2 = kind → entry.1 = mark) :
    word = mark :=
  hall (word, kind) (h.mem_marks hk) rfl

theorem eq_operator {operator : Operator} (h : Lexeme word rest (.operator operator)) :
    word = operator.symbol.toList :=
  h.eq_of_marks rfl (by cases operator <;> decide)

theorem eq_tilde (h : Lexeme word rest .tilde) : word = ['~'] :=
  h.eq_of_marks rfl (by decide)

theorem eq_opening (h : Lexeme word rest (.opening .round)) : word = ['('] :=
  h.eq_of_marks rfl (by decide)

theorem eq_closing (h : Lexeme word rest (.closing .round)) : word = [')'] :=
  h.eq_of_marks rfl (by decide)

/-- `not` is a word of its own. -/
theorem eq_not (h : Lexeme word rest .not) :
    word = ['n', 'o', 't'] ∧ Stops Text.continuesWord rest := by
  generalize hkind : Token.Kind.not = kind at h
  cases h with
  | number => cases hkind
  | text => cases hkind
  | @word c cs _ _ _ hrest =>
    rcases Token.Kind.ofWord_cases (c :: cs) with
      (h | h | h) | ⟨hw, h⟩ | ⟨_, h⟩ | ⟨_, h⟩ | ⟨_, h⟩ <;> rw [h] at hkind <;> cases hkind
    exact ⟨hw, hrest⟩
  | mark hm =>
    have hall : ∀ mark ∈ Token.marks, mark.2 ≠ .not := by decide
    exact absurd hkind.symm (hall _ hm)

theorem ne_nil {kind : Token.Kind} (h : Lexeme word rest kind) : word ≠ [] := by
  cases h with
  | number hn =>
    obtain ⟨c, cs, rfl, _⟩ := Token.beginsNumeral_number hn
    simp
  | text => simp
  | word => simp
  | mark hm =>
    have hall : ∀ mark ∈ Token.marks, mark.1 ≠ [] := by decide
    exact hall _ hm

end Lexeme

/-! ## Runs of the scanner -/

namespace Token

theorem isGap_iff {c : Char} : isGap c ↔ c = ' ' ∨ c = '\t' ∨ c = '\r' ∨ c = '\n' := by
  simp [isGap, or_assoc]

variable {afterOperand : Bool} {point : Nat} {cs rest : List Char}

theorem scan_gap {gap : List Char} (h : Gap gap) :
    scan afterOperand point (gap ++ rest) = scan afterOperand (point + gap.length) rest := by
  induction gap generalizing point with
  | nil => rfl
  | cons c gap ih =>
    obtain ⟨hc, hgap⟩ := List.forall_mem_cons.1 h
    rw [List.cons_append, scan, if_pos (isGap_iff.2 hc), ih hgap, List.length_cons, Nat.add_assoc,
      Nat.add_comm 1]

/-- The scanner goes on behind what it reads. -/
theorem scan_read {c : Char} {kind : Kind} (hgap : isGap c = false)
    (h : read? afterOperand c (cs ++ rest) = some (kind, (c :: cs).length)) :
    scan afterOperand point (c :: cs ++ rest) =
      ⟨kind, ⟨point, point + (c :: cs).length⟩⟩ ::
        scan kind.endsOperand (point + (c :: cs).length) rest := by
  have hno : ¬isGap c = true := by simp [hgap]
  rw [List.cons_append, scan, if_neg hno, h]
  simp

/-- What no token is scanned from is a gap. -/
theorem gap_of_scan (h : scan afterOperand point cs = []) : Gap cs := by
  induction cs generalizing point with
  | nil => simp [Gap]
  | cons c cs ih =>
    rw [scan] at h
    split at h
    · rename_i hgap
      exact List.forall_mem_cons.2 ⟨isGap_iff.1 hgap, ih h⟩
    · split at h <;> cases h

/-- What a token is scanned from begins with a gap and the lexeme of this token. -/
theorem exists_of_scan {token : Token} {tokens : List Token}
    (h : scan afterOperand point cs = token :: tokens) (hk : token.kind ≠ .unknown) :
    ∃ gap word rest next, cs = gap ++ (word ++ rest) ∧ Gap gap ∧ Lexeme word rest token.kind ∧
      tokens = scan token.kind.endsOperand next rest := by
  induction cs generalizing point with
  | nil =>
    rw [scan] at h
    cases h
  | cons c cs ih =>
    rw [scan] at h
    split at h
    · rename_i hgap
      obtain ⟨gap, word, rest, next, rfl, hg, hw, ht⟩ := ih h
      exact ⟨c :: gap, word, rest, next, rfl, List.forall_mem_cons.2 ⟨isGap_iff.1 hgap, hg⟩, hw, ht⟩
    · split at h
      · cases h
        exact absurd rfl hk
      · rename_i kind width hread
        cases h
        obtain ⟨word, rest, hcs, rfl, hw⟩ := read?_sound hread
        obtain ⟨d, ds, rfl⟩ := List.exists_cons_of_ne_nil hw.ne_nil
        cases hcs
        exact ⟨[], c :: ds, rest, point + (c :: ds).length, rfl, by simp [Gap], hw, by simp⟩

/-! ### Operands -/

theorem isGap_of_startsNumeral {c : Char} (h : startsNumeral afterOperand c cs) :
    isGap c = false := by
  refine Bool.eq_false_iff.2 fun hgap => ?_
  rcases isGap_iff.1 hgap with rfl | rfl | rfl | rfl <;> cases h

/-- No digit begins a word. -/
theorem isDigit_of_startsWord {c : Char} (h : Text.startsWord c) : c.isDigit = false := by
  refine Bool.eq_false_iff.2 fun hdigit => ?_
  have hle : c.toNat ≤ 57 := (Char.isDigit_iff_toNat.1 hdigit).2
  rcases Bool.or_eq_true_iff.1 h with hletter | hmark
  · rcases Bool.or_eq_true_iff.1 hletter with hupper | hlower
    · have hbounds : c.val ≥ 'A'.val ∧ c.val ≤ 'Z'.val := of_decide_eq_true hupper
      have : 65 ≤ c.toNat := UInt32.le_iff_toNat_le.1 hbounds.1
      omega
    · have hge : c.val ≥ 'a'.val := of_decide_eq_true (Bool.and_eq_true_iff.1 hlower).1
      have : 97 ≤ c.toNat := UInt32.le_iff_toNat_le.1 hge
      omega
  · rw [beq_iff_eq.1 hmark] at hdigit
    cases hdigit

theorem startsNumeral_of_startsWord {c : Char} (h : Text.startsWord c) :
    startsNumeral afterOperand c cs = false := by
  have hpoint : (c == '.') = false := by
    refine Bool.eq_false_iff.2 fun hc => ?_
    rw [beq_iff_eq.1 hc] at h
    cases h
  simp [startsNumeral, hpoint, isDigit_of_startsWord h]

theorem isGap_of_startsWord {c : Char} (h : Text.startsWord c) : isGap c = false := by
  refine Bool.eq_false_iff.2 fun hgap => ?_
  rcases isGap_iff.1 hgap with rfl | rfl | rfl | rfl <;> cases h

theorem scan_number {word : List Char} {value : Literal} (h : Grammar.Number word value)
    (hr : Breaks rest) :
    scan false point (word ++ rest) =
      ⟨.literal value, ⟨point, point + word.length⟩⟩ :: scan true (point + word.length) rest := by
  obtain ⟨c, cs, rfl, hstarts⟩ := beginsNumeral_number h
  have hc : startsNumeral false c (cs ++ rest) := hstarts rest
  have hread := Numeral.read?_append h hr
  rw [List.cons_append] at hread
  refine scan_read (isGap_of_startsNumeral hc) ?_
  rw [read?, if_pos hc, hread]
  rfl

theorem scan_text {quote : Char} (hq : quote = '\'' ∨ quote = '"') (h : QuotedContent quote cs) :
    scan afterOperand point (quote :: (cs ++ [quote]) ++ rest) =
      ⟨.literal (.text (.ofList cs)), ⟨point, point + (quote :: (cs ++ [quote])).length⟩⟩ ::
        scan true (point + (quote :: (cs ++ [quote])).length) rest := by
  have hgap : isGap quote = false := by rcases hq with rfl | rfl <;> rfl
  have hstarts : ¬startsNumeral afterOperand quote (cs ++ [quote] ++ rest) = true := by
    rcases hq with rfl | rfl <;> simp [startsNumeral]
  have hescape : quote ≠ '\\' := by rcases hq with rfl | rfl <;> decide
  refine scan_read hgap ?_
  rw [read?, if_neg hstarts, if_pos hq, List.append_assoc, List.singleton_append,
    Quoted.content?_append hescape h]
  simp

theorem scan_word {c : Char} (hc : Text.startsWord c) (hcs : cs.all Text.continuesWord)
    (hr : Stops Text.continuesWord rest) :
    scan afterOperand point (c :: cs ++ rest) =
      ⟨.ofWord (c :: cs), ⟨point, point + (c :: cs).length⟩⟩ ::
        scan (Kind.ofWord (c :: cs)).endsOperand (point + (c :: cs).length) rest := by
  have hstarts : ¬startsNumeral afterOperand c (cs ++ rest) = true := by
    simp [startsNumeral_of_startsWord hc]
  have hquote : ¬(c = '\'' ∨ c = '"') := by
    rintro (rfl | rfl) <;> cases hc
  refine scan_read (isGap_of_startsWord hc) ?_
  rw [read?, if_neg hstarts, if_neg hquote, if_pos hc, hr.takeWhile_append (List.all_eq_true.1 hcs)]

/-! ### Marks -/

/-- The characters that can begin nothing but a mark, wherever they stand. -/
def beginsMark (c : Char) : Bool :=
  !isGap c && !c.isDigit && c != '.' && c != '\'' && c != '"' && !Text.startsWord c

theorem scan_mark {c : Char} {kind : Kind} (hc : beginsMark c)
    (h : mark? (c :: cs ++ rest) = some (kind, (c :: cs).length)) :
    scan afterOperand point (c :: cs ++ rest) =
      ⟨kind, ⟨point, point + (c :: cs).length⟩⟩ ::
        scan kind.endsOperand (point + (c :: cs).length) rest := by
  simp only [beginsMark, Bool.and_eq_true, Bool.not_eq_true', bne_iff_ne] at hc
  obtain ⟨⟨⟨⟨⟨hgap, hdigit⟩, hpoint⟩, hsingle⟩, hdouble⟩, hword⟩ := hc
  have hstarts : ¬startsNumeral afterOperand c (cs ++ rest) = true := by
    simp [startsNumeral, hdigit, hpoint]
  have hquote : ¬(c = '\'' ∨ c = '"') := by simp [hsingle, hdouble]
  refine scan_read hgap ?_
  rw [read?, if_neg hstarts, if_neg hquote, if_neg (by simp [hword])]
  exact h

/-- Where no longer mark stands, a mark that others begin with is read. -/
theorem mark?_single {c : Char} {operator : Operator}
    (hc : c = '*' ∧ operator = .multiply ∨ c = '/' ∧ operator = .divide)
    (hr : Stops (· == c) rest) :
    mark? (c :: rest) = some (.operator operator, 1) := by
  cases rest with
  | nil => rcases hc with ⟨rfl, rfl⟩ | ⟨rfl, rfl⟩ <;> rfl
  | cons d rest =>
    have hd : (d == c) = false := hr d rfl
    have hd : d ≠ c := beq_eq_false_iff_ne.1 hd
    rcases hc with ⟨rfl, rfl⟩ | ⟨rfl, rfl⟩ <;> simp [mark?, marks, hd.symm]

theorem scan_operator (operator : Operator) (hr : Stops (fun c => c == '*' || c == '/') rest) :
    scan afterOperand point (operator.symbol.toList ++ rest) =
      ⟨.operator operator, ⟨point, point + operator.symbol.toList.length⟩⟩ ::
        scan false (point + operator.symbol.toList.length) rest := by
  cases operator with
  | multiply =>
    have hstar : Stops (· == '*') rest := hr.mono fun c hc => by simp [hc]
    exact scan_mark rfl (mark?_single (.inl ⟨rfl, rfl⟩) hstar)
  | divide =>
    have hslash : Stops (· == '/') rest := hr.mono fun c hc => by simp [hc]
    exact scan_mark rfl (mark?_single (.inr ⟨rfl, rfl⟩) hslash)
  | _ => exact scan_mark rfl rfl

theorem scan_tilde :
    scan afterOperand point ('~' :: rest) =
      ⟨.tilde, ⟨point, point + 1⟩⟩ :: scan false (point + 1) rest := by
  show scan afterOperand point (['~'] ++ rest) = _
  exact scan_mark rfl rfl

theorem scan_opening :
    scan afterOperand point ('(' :: rest) =
      ⟨.opening .round, ⟨point, point + 1⟩⟩ :: scan false (point + 1) rest := by
  show scan afterOperand point (['('] ++ rest) = _
  exact scan_mark rfl rfl

theorem scan_closing :
    scan afterOperand point (')' :: rest) =
      ⟨.closing .round, ⟨point, point + 1⟩⟩ :: scan true (point + 1) rest := by
  show scan afterOperand point ([')'] ++ rest) = _
  exact scan_mark rfl rfl

end Token

end Calculator
