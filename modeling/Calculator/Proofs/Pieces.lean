import Calculator.Nesting
import Calculator.Proofs.Lexemes
import Mathlib.Data.List.Chain

/-!
# The nesting pass goes along the tokens

The pass that estimates the nesting of a text knows nothing of tokens, and yet it keeps in step with
them: each token is one piece for it, or two that count as one, as long as no number runs into the
word or the point behind it.

* `Piece.ofKind`: what the pass takes a token for.
* `Count.readTokens`: what the tokens of a text make of a count.
* `Token.Apart`: two tokens that the pass tells apart.

Results:
* `run_number`, `run_text`, `run_word`, `run_mark`: the pass over one token.
* `run_of_scan`: over the tokens of a text, from any count.
-/

namespace Calculator

open Grammar

/-! ## Tokens that the pass tells apart -/

/-- A number. -/
def Token.Kind.isNumber : Token.Kind → Bool
  | .literal (.integer _) | .literal (.float _) => true
  | _ => false

/-- A character that the pass finds at the end of a number: all digits are the same to it. -/
def Token.Kind.numberEnd? (kind : Token.Kind) : Option Char :=
  if kind.isNumber then some '0' else none

/-- Words, numbers and points, which the pass takes for a part of the number before them if nothing
    stands between. -/
def Token.Kind.continuesNumber : Token.Kind → Bool
  | .literal _ | .name | .not | .logical .and | .logical .or | .dot => true
  | _ => false

/-- A token and the next one, where a number ends before what would continue it and a point stands
    before a name. -/
structure Token.Apart (token next : Token) : Prop where
  number : token.kind.isNumber → next.kind.continuesNumber → token.span.stop < next.span.start
  dot : token.kind = .dot → next.kind = .name

namespace Nesting

/-- What the pass takes a token for. -/
def Piece.ofKind : Token.Kind → Piece
  | .literal _ | .name => .operand
  | .operator .power => .power
  | .operator .add | .operator .subtract | .tilde => .sign
  | .not => .not
  | .logical .and | .logical .or => .connective
  | .opening _ => .opening
  | .closing _ => .closing
  | .dot => .dot
  | .operator _ | .logical .comparison | .comma | .colon | .equals | .unknown => .other

/-! ## Counts -/

namespace Count

/-- The greatest depth so far takes the levels that are open into account. -/
def Settled (count : Count) : Prop := count.depth ≤ count.deepest

/-- Reads a token. -/
def readToken (count : Count) (token : Token) : Count := count.step (.ofKind token.kind)

/-- Reads tokens. -/
def readTokens (count : Count) (tokens : List Token) : Count := tokens.foldl readToken count

theorem settled_initial : initial.Settled := Nat.le_refl 0

theorem settled_step (count : Count) (piece : Piece) : (count.step piece).Settled :=
  Nat.le_max_right _ _

theorem step_blank {count : Count} (h : count.Settled) : count.step .blank = count := by
  have hmax : max count.deepest count.depth = count.deepest := Nat.max_eq_left h
  simp only [step, move, hmax]

/-- A mark of two characters resets a chain as one of them does. -/
theorem step_other_other (count : Count) :
    (count.step .other).step .other = count.step .other := by
  simp only [step, move, reset]
  cases hchains : count.chains <;> simp [depth]

end Count

/-! ## One token -/

variable {count : Count} {rest : List Char}

/-- The pass goes on behind a piece, which may run on into what follows. -/
theorem run_piece_running_on {c : Char} {cs : List Char} {piece : Piece} {width : Nat}
    (h : next c (cs ++ rest) = (piece, cs.length + width)) :
    run count (c :: cs ++ rest) = run (count.step piece) (rest.drop width) := by
  rw [List.cons_append, run, h]
  simp only [List.drop_length_add_append]

theorem run_piece {c : Char} {cs : List Char} {piece : Piece}
    (h : next c (cs ++ rest) = (piece, cs.length)) :
    run count (c :: cs ++ rest) = run (count.step piece) rest :=
  @run_piece_running_on count rest c cs piece 0 h

/-- The characters with which the pieces begin that are looked for first. -/
def leading : List Char := ['(', '[', '{', ')', ']', '}', '*', '+', '-', '~', '\'', '"']

theorem next_of_not_leading {c : Char} {cs : List Char} (h : c ∉ leading) :
    next c cs =
      if c.isDigit || (c == '.' && cs.head?.any Char.isDigit) then (.operand, numberWidth c cs)
      else if Text.isAlphabetic c || c == '_' then
        (ofWord (c :: cs.takeWhile continuesWord), (cs.takeWhile continuesWord).length)
      else if Text.isBlank c then (.blank, 0)
      else if c = '.' then (.dot, 0)
      else (.other, 0) := by
  simp only [leading, List.mem_cons, List.not_mem_nil, or_false, not_or] at h
  simp only [next, h, false_and, or_self, if_false]

theorem run_gap {gap : List Char} (hcount : count.Settled) (h : Gap gap) :
    run count (gap ++ rest) = run count rest := by
  induction gap with
  | nil => rfl
  | cons c gap ih =>
    obtain ⟨hc, hgap⟩ := List.forall_mem_cons.1 h
    have hblank : next c (gap ++ rest) = (.blank, 0) := by
      rcases hc with rfl | rfl | rfl | rfl <;> rfl
    rw [List.cons_append, run, hblank]
    simp only [Count.step_blank hcount, List.drop_zero]
    exact ih hgap

/-! ### Numbers -/

/-- How many characters the pass takes for a part of a number behind its character `previous`; no
    other piece runs on. -/
def skipped : Option Char → List Char → Nat
  | none, _ => 0
  | some previous, cs => numberWidth previous cs

/-- The characters that continue a number wherever they stand in it. -/
def continuesNumber (c : Char) : Bool := c.isAlphanum || c == '.' || c == '_'

/-- The characters of a text that continue a number are `width` many, behind a digit or a point. -/
def Continues (cs : List Char) (width : Nat) : Prop :=
  ∀ previous : Char, previous.isDigit ∨ previous = '.' → numberWidth previous cs = width

theorem numberWidth_cons {previous c : Char} {cs : List Char} (h : continuesNumber c) :
    numberWidth previous (c :: cs) = numberWidth c cs + 1 := by
  simp only [continuesNumber] at h
  simp [numberWidth, h]

/-- A sign continues a number right behind the letter of its exponent. -/
theorem numberWidth_sign {mark sign : Char} {cs : List Char} (hmark : mark = 'e' ∨ mark = 'E')
    (hsign : sign = '+' ∨ sign = '-') :
    numberWidth mark (sign :: cs) = numberWidth sign cs + 1 := by
  rcases hmark with rfl | rfl <;> rcases hsign with rfl | rfl <;> simp [numberWidth]

namespace Continues

variable {cs : List Char} {width : Nat}

/-- No sign is taken in behind a digit or a point. -/
theorem not_mark {previous : Char} (h : previous.isDigit ∨ previous = '.') :
    (previous == 'e' || previous == 'E') = false := by
  refine Bool.eq_false_iff.2 fun hmark => ?_
  rcases Bool.or_eq_true_iff.1 hmark with he | he
  all_goals
    rw [beq_iff_eq.1 he] at h
    rcases h with h | h <;> cases h

/-- Behind digits and points, the same characters continue a number. -/
theorem of_digit (cs : List Char) : Continues cs (numberWidth '0' cs) := by
  intro previous hp
  cases cs with
  | nil => rfl
  | cons c cs => simp [numberWidth, not_mark hp]

theorem of_breaks (h : Breaks rest) : Continues rest 0 := by
  intro previous hp
  cases rest with
  | nil => rfl
  | cons c rest =>
    have hc := Stops.cons_iff.1 h
    simp only [Text.continuesWord, Bool.or_eq_false_iff] at hc
    simp [numberWidth, hc, not_mark hp]

theorem digit {c : Char} (hc : c.isDigit) (h : Continues cs width) :
    Continues (c :: cs) (width + 1) := by
  intro previous _
  have hcontinues : continuesNumber c := by simp [continuesNumber, Char.isAlphanum, hc]
  rw [numberWidth_cons hcontinues, h c (.inl hc)]

theorem point (h : Continues cs width) : Continues ('.' :: cs) (width + 1) := by
  intro previous _
  rw [numberWidth_cons rfl, h '.' (.inr rfl)]

theorem digits {ds : List Char} (hds : AllDigits ds) (h : Continues cs width) :
    Continues (ds ++ cs) (ds.length + width) := by
  induction ds with
  | nil =>
    rw [List.nil_append, List.length_nil, Nat.zero_add]
    exact h
  | cons d ds ih =>
    obtain ⟨hd, hds⟩ := List.forall_mem_cons.1 hds
    have hcontinues := (ih hds).digit hd
    rwa [Nat.add_right_comm] at hcontinues

/-- An exponent continues a number with its sign, which stands right behind its letter. -/
theorem exponent {part : List Char} {power : Int} (hpart : ExponentPart part power)
    (h : Continues cs width) : Continues (part ++ cs) (part.length + width) := by
  obtain ⟨mark, sign, c, ds, rfl, hmark, hsign, hds⟩ := hpart.exists_cons
  obtain ⟨hc, hds⟩ := List.forall_mem_cons.1 hds
  have hdigits : numberWidth c (ds ++ cs) = ds.length + width := (h.digits hds) c (.inl hc)
  have hcontinues : continuesNumber c := by simp [continuesNumber, Char.isAlphanum, hc]
  have hletter : continuesNumber mark := by rcases hmark with rfl | rfl <;> rfl
  intro previous _
  rw [List.cons_append, numberWidth_cons hletter, List.append_assoc, List.cons_append]
  rcases hsign with rfl | rfl | rfl
  · rw [List.nil_append, numberWidth_cons hcontinues, hdigits]
    simp only [List.nil_append, List.length_cons]
    omega
  · rw [List.singleton_append, numberWidth_sign hmark (.inl rfl), numberWidth_cons hcontinues,
      hdigits]
    simp only [List.singleton_append, List.length_cons]
    omega
  · rw [List.singleton_append, numberWidth_sign hmark (.inr rfl), numberWidth_cons hcontinues,
      hdigits]
    simp only [List.singleton_append, List.length_cons]
    omega

/-- All characters of a number continue it. -/
theorem number {word : List Char} {value : Literal} (hword : Grammar.Number word value)
    (h : Continues cs width) : Continues (word ++ cs) (word.length + width) := by
  cases hword with
  | integer hi => exact h.digits hi.allDigits.1
  | float hf =>
    cases hf with
    | @pointed whole fraction hw hf _ =>
      have hwhole := (h.digits hf).point.digits hw
      simpa [Nat.add_assoc, Nat.add_comm, Nat.add_left_comm] using hwhole
    | @pointedExponent whole fraction part power hw hf _ he =>
      have hwhole := ((h.exponent he).digits hf).point.digits hw
      simpa [Nat.add_assoc, Nat.add_comm, Nat.add_left_comm] using hwhole
    | @exponent whole part power hw _ he =>
      have hwhole := (h.exponent he).digits hw
      simpa [Nat.add_assoc] using hwhole

end Continues

/-- A number is one piece, together with what continues it. -/
theorem run_number_running_on {word : List Char} {value : Literal}
    (h : Grammar.Number word value) : run count (word ++ rest) =
      run (count.step .operand) (rest.drop (numberWidth '0' rest)) := by
  obtain ⟨c, cs, rfl, hstarts⟩ := Token.beginsNumeral_number h
  have hc : (c.isDigit || (c == '.' && (cs ++ rest).head?.any Char.isDigit)) = true := by
    simpa [Token.startsNumeral] using hstarts rest
  have hwidth : numberWidth c (cs ++ rest) = cs.length + numberWidth '0' rest := by
    have hcontinues : continuesNumber c := by
      rcases Bool.or_eq_true_iff.1 hc with hdigit | hpoint
      · simp [continuesNumber, Char.isAlphanum, hdigit]
      · simp [continuesNumber, (Bool.and_eq_true_iff.1 hpoint).1]
    have hword := Continues.number h (.of_digit rest) '0' (.inl rfl)
    rw [List.cons_append, numberWidth_cons hcontinues, List.length_cons] at hword
    omega
  have hfirst : c ∉ leading := by
    intro hmem
    have hall : ∀ d ∈ leading, d.isDigit = false ∧ (d == '.') = false := by simp [leading]
    obtain ⟨hdigit, hpoint⟩ := hall c hmem
    simp [hdigit, hpoint] at hc
  refine run_piece_running_on ?_
  rw [next_of_not_leading hfirst, if_pos hc, hwidth]

/-- A number is one piece. -/
theorem run_number {word : List Char} {value : Literal} (h : Grammar.Number word value)
    (hr : Breaks rest) : run count (word ++ rest) = run (count.step .operand) rest := by
  rw [run_number_running_on h, Continues.of_breaks hr '0' (.inl rfl), List.drop_zero]

/-! ### Quoted texts -/

theorem quotedWidth_append {quote : Char} {cs : List Char} (hq : quote ≠ '\\')
    (h : QuotedContent quote cs) :
    quotedWidth quote false (cs ++ quote :: rest) = cs.length + 1 := by
  induction h with
  | nil => simp [quotedWidth, hq]
  | escaped _ ih => simp [quotedWidth, ih]
  | plain hc he _ _ ih => simp [quotedWidth, hc, he, ih]

/-- A quoted text is one piece, whatever it holds. -/
theorem run_text {quote : Char} {cs : List Char} (hq : quote = '\'' ∨ quote = '"')
    (h : QuotedContent quote cs) :
    run count (quote :: (cs ++ [quote]) ++ rest) = run (count.step .operand) rest := by
  have hescape : quote ≠ '\\' := by rcases hq with rfl | rfl <;> decide
  have hwidth : quotedWidth quote false (cs ++ [quote] ++ rest) = (cs ++ [quote]).length := by
    rw [List.append_assoc, List.singleton_append, quotedWidth_append hescape h, List.length_append,
      List.length_singleton]
  refine run_piece ?_
  rcases hq with rfl | rfl <;> simp only [next, hwidth] <;> rfl

/-! ### Words -/

theorem toNat_of_continuesWord {c : Char} (h : Text.continuesWord c) :
    48 ≤ c.toNat ∧ c.toNat ≤ 122 := by
  rcases Bool.or_eq_true_iff.1 h with halphanum | hmark
  · delta Char.isAlphanum Char.isAlpha Char.isUpper Char.isLower Char.isDigit at halphanum
    simp only [Bool.or_eq_true, Bool.and_eq_true, decide_eq_true_eq, UInt32.le_iff_toNat_le,
      ge_iff_le] at halphanum
    change ((65 ≤ c.toNat ∧ c.toNat ≤ 90) ∨ (97 ≤ c.toNat ∧ c.toNat ≤ 122)) ∨
      (48 ≤ c.toNat ∧ c.toNat ≤ 57) at halphanum
    omega
  · rw [beq_iff_eq.1 hmark]
    decide

theorem toNat_lt_of_continuesWord {c : Char} (h : Text.continuesWord c) : c.toNat < 128 := by
  have := toNat_of_continuesWord h
  omega

theorem continuesWord_of_startsWord {c : Char} (h : Text.startsWord c) : Text.continuesWord c := by
  simp only [Text.startsWord, Text.continuesWord, Char.isAlphanum, Bool.or_eq_true] at h ⊢
  tauto

theorem continuesWord_eq_of_ascii {c : Char} (h : c.toNat < 128) :
    continuesWord c = Text.continuesWord c := by
  rw [continuesWord, Text.continuesWord, Text.isAlphanumeric_of_ascii h]

/-- The pass knows the words that matter to it as the scanner does. -/
theorem ofWord_eq (word : List Char) : ofWord word = .ofKind (.ofWord word) := by
  unfold ofWord Token.Kind.ofWord
  split_ifs <;> simp_all [Piece.ofKind]

/-- A word is one piece. -/
theorem run_word {c : Char} {cs : List Char} (hc : Text.startsWord c)
    (hcs : ∀ c ∈ cs, Text.continuesWord c) (hr : Stops continuesWord rest) :
    run count (c :: cs ++ rest) = run (count.step (.ofKind (.ofWord (c :: cs)))) rest := by
  have hascii : c.toNat < 128 := toNat_lt_of_continuesWord (continuesWord_of_startsWord hc)
  have hletter : (Text.isAlphabetic c || c == '_') = true := by
    rw [Text.isAlphabetic_of_ascii hascii]
    exact hc
  have hdigit : (c.isDigit || (c == '.' && (cs ++ rest).head?.any Char.isDigit)) = false := by
    have hstarts : Token.startsNumeral false c (cs ++ rest) = false :=
      Token.startsNumeral_of_startsWord hc
    simpa [Token.startsNumeral] using hstarts
  have hword : (cs ++ rest).takeWhile continuesWord = cs := by
    refine hr.takeWhile_append fun d hd => ?_
    rw [continuesWord_eq_of_ascii (toNat_lt_of_continuesWord (hcs d hd))]
    exact hcs d hd
  have hfirst : c ∉ leading := by
    intro hmem
    have hall : ∀ d ∈ leading, Text.startsWord d = false := by simp [leading, Text.startsWord]
    rw [hall c hmem] at hc
    cases hc
  refine run_piece ?_
  rw [next_of_not_leading hfirst, if_neg (Bool.eq_false_iff.1 hdigit), if_pos hletter, hword,
    ofWord_eq]

/-! ### Marks -/

/-- The characters that only end a chain. -/
def others : List Char := ['/', '<', '>', '=', '!', '%', '@', '&', '|', '^', ',', ':']

theorem next_of_mem_others {c : Char} (hc : c ∈ others) (cs : List Char) :
    next c cs = (.other, 0) := by
  simp only [others, List.mem_cons, List.not_mem_nil, or_false] at hc
  rcases hc with rfl | rfl | rfl | rfl | rfl | rfl | rfl | rfl | rfl | rfl | rfl | rfl <;> rfl

/-- The marks that are more to the pass than the end of a chain. -/
def structural : List (List Char × Token.Kind) :=
  [(['*', '*'], .operator .power), (['+'], .operator .add), (['-'], .operator .subtract),
    (['~'], .tilde), (['('], .opening .round), ([')'], .closing .round), (['['], .opening .square),
    ([']'], .closing .square), (['{'], .opening .curly), (['}'], .closing .curly)]

/-- The other marks end a chain, with one character or with two, apart from the point. -/
theorem mark_cases : ∀ mark ∈ Token.marks,
    mark ∈ structural ∨ mark = (['*'], .operator .multiply) ∨ mark = (['.'], .dot) ∨
      Piece.ofKind mark.2 = .other ∧
        ((∃ c ∈ others, mark.1 = [c]) ∨ ∃ c ∈ others, ∃ d ∈ others, mark.1 = [c, d]) := by
  intro mark hmem
  have hall : Token.marks.all (fun mark => structural.contains mark ||
      (mark == (['*'], .operator .multiply) || (mark == (['.'], .dot) ||
        (Piece.ofKind mark.2 == .other && (others.any (mark.1 == [·]) ||
          others.any fun c => others.any fun d => mark.1 == [c, d]))))) = true := by decide
  simpa only [Bool.or_eq_true, Bool.and_eq_true, List.contains_iff_mem, List.any_eq_true,
    beq_iff_eq] using List.all_eq_true.1 hall mark hmem

theorem run_structural {word : List Char} {kind : Token.Kind} (h : (word, kind) ∈ structural) :
    run count (word ++ rest) = run (count.step (.ofKind kind)) rest := by
  simp only [structural, List.mem_cons, Prod.mk.injEq, List.not_mem_nil, or_false] at h
  rcases h with ⟨rfl, rfl⟩ | ⟨rfl, rfl⟩ | ⟨rfl, rfl⟩ | ⟨rfl, rfl⟩ | ⟨rfl, rfl⟩ | ⟨rfl, rfl⟩ |
    ⟨rfl, rfl⟩ | ⟨rfl, rfl⟩ | ⟨rfl, rfl⟩ | ⟨rfl, rfl⟩ <;> exact run_piece rfl

theorem next_star (h : Stops (· == '*') rest) : next '*' rest = (.other, 0) := by
  cases rest with
  | nil => rfl
  | cons d rest =>
    have hd : d ≠ '*' := beq_eq_false_iff_ne.1 (h d rfl)
    simp only [next, List.head?_cons, Option.some.injEq, hd, and_false]
    rfl

theorem next_point (h : Stops Char.isDigit rest) : next '.' rest = (.dot, 0) := by
  cases rest with
  | nil => rfl
  | cons d rest =>
    have hd : d.isDigit = false := h d rfl
    rw [next_of_not_leading (by decide)]
    simp only [List.head?_cons, Option.any_some, hd, Bool.and_false]
    rfl

/-- A mark is one piece, or two of which the second changes nothing. -/
theorem run_mark {word : List Char} {kind : Token.Kind} (h : (word, kind) ∈ Token.marks)
    (hstar : kind = .operator .multiply → Stops (· == '*') rest)
    (hdot : kind = .dot → Stops Char.isDigit rest) :
    run count (word ++ rest) = run (count.step (.ofKind kind)) rest := by
  rcases mark_cases _ h with hmem | heq | heq | ⟨hpiece, ⟨c, hc, hword⟩ | ⟨c, hc, d, hd, hword⟩⟩
  · exact run_structural hmem
  · cases heq
    exact run_piece (next_star (hstar rfl))
  · cases heq
    exact run_piece (next_point (hdot rfl))
  · dsimp only at hpiece hword
    rw [hpiece, hword]
    exact run_piece (next_of_mem_others hc _)
  · dsimp only at hpiece hword
    rw [hpiece, hword, ← Count.step_other_other]
    have hfirst : run count ([c] ++ ([d] ++ rest)) = run (count.step .other) ([d] ++ rest) :=
      run_piece (next_of_mem_others hc _)
    exact hfirst.trans (run_piece (next_of_mem_others hd _))

end Nesting

/-! ## What stands behind a token -/

namespace Lexeme

variable {c : Char} {cs rest : List Char} {kind : Token.Kind}

/-- The first character of a number. -/
theorem first_number {value : Literal} (h : Grammar.Number (c :: cs) value) :
    c.isDigit ∨ c = '.' := by
  obtain ⟨d, tail, heq, hstarts⟩ := Token.beginsNumeral_number h
  cases heq
  have hc : Token.startsNumeral false c (cs ++ []) := hstarts []
  simp only [Token.startsNumeral, Bool.or_eq_true, Bool.and_eq_true, beq_iff_eq] at hc
  tauto

/-- Every token begins with an ASCII character. -/
theorem first_ascii (h : Lexeme (c :: cs) rest kind) : c.toNat < 128 := by
  generalize hword : c :: cs = word at h
  cases h with
  | number hn =>
    subst hword
    rcases first_number hn with hdigit | rfl
    · exact Nat.lt_of_le_of_lt (Char.isDigit_iff_toNat.1 hdigit).2 (by decide)
    · decide
  | text hq =>
    cases hword
    rcases hq with rfl | rfl <;> decide
  | word hc =>
    cases hword
    exact Nesting.toNat_lt_of_continuesWord (Nesting.continuesWord_of_startsWord hc)
  | mark hm =>
    have hall : ∀ mark ∈ Token.marks, mark.1.head?.all (·.toNat < 128) = true := by decide
    subst hword
    exact of_decide_eq_true (hall _ hm)

/-- No name begins with a digit. -/
theorem first_name (h : Lexeme (c :: cs) rest .name) : c.isDigit = false := by
  generalize hword : c :: cs = word at h
  generalize hkind : Token.Kind.name = kind at h
  cases h with
  | number => cases hkind
  | text => cases hkind
  | word hc =>
    cases hword
    exact Token.isDigit_of_startsWord hc
  | mark hm =>
    have hall : ∀ mark ∈ Token.marks, mark.2 ≠ .name := by decide
    exact absurd hkind.symm (hall _ hm)

/-- What a number does not take in does not begin as a word or a fraction does. -/
theorem first_of_not_continuesNumber (h : Lexeme (c :: cs) rest kind)
    (hk : kind.continuesNumber = false) : (Text.continuesWord c || c == '.') = false := by
  generalize hword : c :: cs = word at h
  cases h with
  | number => cases hk
  | text => cases hk
  | @word d ds =>
    rcases Token.Kind.ofWord_cases (d :: ds) with
      (h | h | h) | ⟨_, h⟩ | ⟨_, h⟩ | ⟨_, h⟩ | ⟨_, h⟩ <;> rw [h] at hk <;> cases hk
  | mark hm =>
    have hall : ∀ mark ∈ Token.marks, mark.2.continuesNumber = false →
        mark.1.head?.any (fun d => Text.continuesWord d || d == '.') = false := by decide
    subst hword
    exact hall _ hm hk

end Lexeme

namespace Token

variable {afterOperand : Bool} {point : Nat} {rest : List Char}

theorem Kind.not_isNumber_ofWord (word : List Char) : ¬(Kind.ofWord word).isNumber := by
  rcases Kind.ofWord_cases word with (h | h | h) | ⟨_, h⟩ | ⟨_, h⟩ | ⟨_, h⟩ | ⟨_, h⟩ <;>
    rw [h] <;> decide

theorem Kind.not_isNumber_of_mem_marks {word : List Char} {kind : Kind}
    (h : (word, kind) ∈ marks) : ¬kind.isNumber := by
  have hall : ∀ mark ∈ marks, mark.2.isNumber = false := by decide
  rw [hall _ h]
  decide

/-- A text does not go on with characters of some kind if neither a gap nor its first token begins
    with them. -/
theorem stops_of_scan {p : Char → Bool} (hknown : ∀ token ∈ scan afterOperand point rest,
      token.kind ≠ .unknown)
    (hgap : ∀ c, isGap c → p c = false)
    (hfirst : ∀ token ∈ (scan afterOperand point rest).head?, token.span.start = point →
      ∀ c cs tail, Lexeme (c :: cs) tail token.kind → p c = false) : Stops p rest := by
  cases rest with
  | nil => exact Stops.nil p
  | cons c cs =>
    refine Stops.cons_iff.2 ?_
    rw [scan] at hknown hfirst
    split at hfirst
    · rename_i hc
      exact hgap c hc
    · rename_i hc
      rw [if_neg hc] at hknown
      split at hfirst
      · rename_i hread
        rw [hread] at hknown
        exact absurd rfl (hknown _ List.mem_cons_self)
      · rename_i kind width hread
        obtain ⟨word, tail, hcs, rfl, hword⟩ := read?_sound hread
        obtain ⟨d, ds, rfl⟩ := List.exists_cons_of_ne_nil hword.ne_nil
        cases hcs
        exact hfirst _ rfl rfl c ds tail hword

/-- Behind the sign of a product there is no second star. -/
theorem stops_star {c : Char} {cs : List Char}
    (h : read? afterOperand c (cs ++ rest) = some (.operator .multiply, (c :: cs).length))
    (hword : c :: cs = ['*']) : Stops (· == '*') rest := by
  cases hword
  intro d hd
  cases rest with
  | nil => cases hd
  | cons e rest =>
    cases hd
    refine beq_eq_false_iff_ne.2 ?_
    rintro rfl
    cases h

end Token

namespace Nesting

open Token

variable {count : Count} {afterOperand : Bool} {point : Nat} {cs : List Char}

/-- Where a word ends before other tokens, it ends for the pass as well, since they are ASCII. -/
theorem stops_continuesWord {rest : List Char} (h : Stops Text.continuesWord rest)
    (hknown : ∀ token ∈ scan afterOperand point rest, token.kind ≠ .unknown) :
    Stops continuesWord rest := by
  have hascii : Stops (fun d => decide (128 ≤ d.toNat)) rest := by
    refine stops_of_scan hknown (fun d hd => ?_) fun token _ _ d ds tail hd => ?_
    · rcases isGap_iff.1 hd with rfl | rfl | rfl | rfl <;> rfl
    · have := hd.first_ascii
      simp [this]
  intro d hd
  have hlt : d.toNat < 128 := by simpa using hascii d hd
  rw [continuesWord_eq_of_ascii hlt]
  exact h d hd

/-- The pass over a lexeme is the pass over its token and over what continues it, if it is a
    number. -/
theorem run_lexeme_running_on {c : Char} {rest : List Char} {kind : Token.Kind} {stop : Nat}
    (hread : read? afterOperand c (cs ++ rest) = some (kind, (c :: cs).length))
    (hword : Lexeme (c :: cs) rest kind)
    (hknown : ∀ token ∈ scan kind.endsOperand stop rest, token.kind ≠ .unknown)
    (hdot : kind = .dot → ∀ token ∈ (scan kind.endsOperand stop rest).head?, token.kind = .name) :
    run count (c :: cs ++ rest) =
      run (count.step (.ofKind kind)) (rest.drop (skipped kind.numberEnd? rest)) := by
  generalize hcs : c :: cs = word at hword hread ⊢
  cases hword with
  | @number word rest value hn =>
    have hnumber : (Token.Kind.literal value).isNumber := by cases hn <;> rfl
    rw [Token.Kind.numberEnd?, if_pos hnumber]
    exact run_number_running_on hn
  | text hq hcontent => exact run_text hq hcontent
  | word hc hds hstops =>
    rw [Token.Kind.numberEnd?, if_neg (Token.Kind.not_isNumber_ofWord _)]
    exact run_word hc hds (stops_continuesWord hstops hknown)
  | mark hm =>
    rw [Token.Kind.numberEnd?, if_neg (Token.Kind.not_isNumber_of_mem_marks hm)]
    refine run_mark hm ?_ ?_
    · rintro rfl
      have hlexeme : Lexeme word rest (.operator .multiply) := .mark hm
      have hstar : c :: cs = ['*'] := hcs.trans hlexeme.eq_operator
      rw [← hcs] at hread
      exact stops_star hread hstar
    · rintro rfl
      refine stops_of_scan hknown (fun d hd => ?_) fun token htoken _ d ds tail hd => ?_
      · rcases isGap_iff.1 hd with rfl | rfl | rfl | rfl <;> rfl
      · rw [hdot rfl token htoken] at hd
        exact hd.first_name

/-- Nothing continues a number if the next token is apart from it. -/
theorem breaks_of_apart {rest : List Char} {kind : Token.Kind} {stop : Nat}
    (hnumber : kind.isNumber)
    (hknown : ∀ token ∈ scan kind.endsOperand stop rest, token.kind ≠ .unknown)
    (hapart : ∀ token ∈ (scan kind.endsOperand stop rest).head?,
      Apart ⟨kind, ⟨point, stop⟩⟩ token) : Breaks rest := by
  refine stops_of_scan hknown (fun d hd => ?_) fun token htoken hstart d ds tail hd => ?_
  · rcases isGap_iff.1 hd with rfl | rfl | rfl | rfl <;> rfl
  · -- the token stands right behind the number, so it cannot continue the number
    refine hd.first_of_not_continuesNumber (Bool.eq_false_iff.2 fun hk => ?_)
    have hlt : stop < token.span.start := (hapart token htoken).number hnumber hk
    omega

/-- The pass over a lexeme is the pass over its token, if the next token is apart from it. -/
theorem run_lexeme {c : Char} {rest : List Char} {kind : Token.Kind} {stop : Nat}
    (hread : read? afterOperand c (cs ++ rest) = some (kind, (c :: cs).length))
    (hword : Lexeme (c :: cs) rest kind)
    (hknown : ∀ token ∈ scan kind.endsOperand stop rest, token.kind ≠ .unknown)
    (hapart : ∀ token ∈ (scan kind.endsOperand stop rest).head?,
      Apart ⟨kind, ⟨point, stop⟩⟩ token) :
    run count (c :: cs ++ rest) = run (count.step (.ofKind kind)) rest := by
  have hskipped : skipped kind.numberEnd? rest = 0 := by
    rw [Token.Kind.numberEnd?]
    split
    · rename_i hnumber
      exact Continues.of_breaks (breaks_of_apart hnumber hknown hapart) '0' (.inl rfl)
    · rfl
  rw [run_lexeme_running_on hread hword hknown fun hk token htoken => (hapart token htoken).dot hk,
    hskipped, List.drop_zero]

/-- **The pass goes along the tokens.** Over a text of tokens that are apart from each other, it
    does what the tokens do one after another. -/
theorem run_of_scan {tokens : List Token} (hcount : count.Settled)
    (h : scan afterOperand point cs = tokens) (hknown : ∀ token ∈ tokens, token.kind ≠ .unknown)
    (hapart : tokens.IsChain Apart) : run count cs = count.readTokens tokens := by
  fun_induction scan afterOperand point cs generalizing count tokens with
  | case1 =>
    subst h
    rw [run]
    rfl
  | case2 afterOperand point c cs hgap ih =>
    have hrun : run count ([c] ++ cs) = run count cs :=
      run_gap hcount (List.forall_mem_singleton.2 (isGap_iff.1 hgap))
    rw [List.singleton_append] at hrun
    rw [hrun]
    exact ih hcount h hknown hapart
  | case3 =>
    subst h
    exact absurd rfl (hknown _ List.mem_cons_self)
  | case4 afterOperand point c cs hgap kind width hread ih =>
    subst h
    obtain ⟨word, rest, hcs, rfl, hword⟩ := read?_sound hread
    obtain ⟨d, ds, rfl⟩ := List.exists_cons_of_ne_nil hword.ne_nil
    simp only [List.cons_append, List.cons.injEq] at hcs
    obtain ⟨rfl, rfl⟩ := hcs
    have hdrop : (ds ++ rest).drop ((c :: ds).length - 1) = rest := by simp
    rw [hdrop] at ih hknown hapart
    obtain ⟨_, hknown⟩ := List.forall_mem_cons.1 hknown
    obtain ⟨hhead, htail⟩ := List.isChain_cons.1 hapart
    have hlexeme : run count (c :: ds ++ rest) = run (count.step (.ofKind kind)) rest :=
      run_lexeme hread hword hknown hhead
    rw [← List.cons_append, hlexeme, hdrop,
      ih (Count.settled_step count (.ofKind kind)) rfl hknown htail]
    rfl

end Nesting

end Calculator
