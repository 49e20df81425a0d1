import Calculator.Proofs.Grammar

/-!
# The numbers that are read

The scanner reads exactly the number literals of the grammar, as long as what follows does not go on
with them.

* `Stops`: what does not go on with characters of some kind.
* `Breaks`: what can follow a complete operand without running into it.
* `Number`: the number literals, with what they denote.

Results:
* `Numeral.read?_sound`: what is read is a number literal, and the text goes on behind it.
* `Numeral.read?_append`: a number literal is read where nothing runs into it.
-/

namespace Calculator

open Grammar

/-! ## Where a run of characters ends -/

/-- A text that does not go on with characters of some kind. -/
def Stops (p : Char → Bool) (rest : List Char) : Prop := ∀ c ∈ rest.head?, p c = false

/-- What can follow a complete operand without running into it. -/
def Breaks (rest : List Char) : Prop := Stops (fun c => Text.continuesWord c || c == '.') rest

namespace Stops

variable {p q : Char → Bool} {c : Char} {cs rest : List Char}

theorem nil (p : Char → Bool) : Stops p [] := by simp [Stops]

theorem cons_iff : Stops p (c :: cs) ↔ p c = false := by simp [Stops]

theorem mono (h : Stops p rest) (hpq : ∀ c, q c → p c) : Stops q rest := by
  intro c hc
  have hp : p c = false := h c hc
  cases hq : q c with
  | false => rfl
  | true => rw [hpq c hq] at hp; cases hp

theorem of_append (h : Stops p (cs ++ rest)) : Stops p cs := by
  cases cs with
  | nil => exact nil p
  | cons c cs => exact cons_iff.2 (cons_iff.1 h)

theorem append (h : Stops p cs) (hr : Stops p rest) : Stops p (cs ++ rest) := by
  cases cs with
  | nil => exact hr
  | cons c cs => exact cons_iff.2 (cons_iff.1 h)

theorem takeWhile_append (hr : Stops p rest) (h : ∀ c ∈ cs, p c) :
    (cs ++ rest).takeWhile p = cs := by
  rw [List.takeWhile_append_of_pos h]
  cases rest with
  | nil => simp
  | cons c rest => simp [cons_iff.1 hr]

/-- Every text is a run of characters of some kind and what does not go on with it. -/
theorem exists_append (p : Char → Bool) (cs : List Char) :
    ∃ run rest, cs = run ++ rest ∧ (∀ c ∈ run, p c) ∧ Stops p rest := by
  induction cs with
  | nil => exact ⟨[], [], rfl, by simp, nil p⟩
  | cons c cs ih =>
    obtain ⟨run, rest, rfl, hrun, hrest⟩ := ih
    cases hc : p c with
    | true => exact ⟨c :: run, rest, rfl, List.forall_mem_cons.2 ⟨hc, hrun⟩, hrest⟩
    | false => exact ⟨[], c :: (run ++ rest), rfl, by simp, cons_iff.2 hc⟩

/-- A text goes on with a character or does not. -/
theorem or_exists_cons (c : Char) (cs : List Char) :
    Stops (· == c) cs ∨ ∃ rest, cs = c :: rest := by
  cases cs with
  | nil => exact .inl (nil _)
  | cons d rest =>
    by_cases h : d = c
    · exact .inr ⟨rest, by rw [h]⟩
    · exact .inl (cons_iff.2 (beq_eq_false_iff_ne.2 h))

end Stops

namespace Breaks

variable {rest : List Char}

theorem continuesWord (h : Breaks rest) : Stops Text.continuesWord rest :=
  h.mono fun c hc => by simp [hc]

theorem isDigit (h : Breaks rest) : Stops Char.isDigit rest :=
  h.mono fun c hc => by simp [Text.continuesWord, Char.isAlphanum, hc]

theorem ne_point (h : Breaks rest) : Stops (· == '.') rest :=
  h.mono fun c hc => by simp [hc]

end Breaks

/-! ## Number literals -/

/-- The number literals, with what they denote. -/
inductive Grammar.Number : List Char → Literal → Prop where
  | integer {cs : List Char} : IntegerLiteral cs → Number cs (.integer (Numeral.value cs))
  | float {cs : List Char} {value : Decimal} : FloatLiteral cs value → Number cs (.float value)

theorem Grammar.IntegerLiteral.allDigits {cs : List Char} (h : IntegerLiteral cs) :
    AllDigits cs ∧ cs ≠ [] := by
  cases h with
  | zeros htail =>
    refine ⟨List.forall_mem_cons.2 ⟨rfl, fun c hc => ?_⟩, by simp⟩
    rw [htail c hc]
    rfl
  | digits hc _ hcs => exact ⟨List.forall_mem_cons.2 ⟨hc, hcs⟩, by simp⟩

/-- An exponent is a letter, a sign or none, a digit, and more digits. -/
theorem Grammar.ExponentPart.exists_cons {part : List Char} {power : Int}
    (h : ExponentPart part power) :
    ∃ mark sign c ds, part = mark :: (sign ++ c :: ds) ∧ (mark = 'e' ∨ mark = 'E') ∧
      (sign = [] ∨ sign = ['+'] ∨ sign = ['-']) ∧ AllDigits (c :: ds) := by
  cases h with
  | unsigned hmark hds hne =>
    obtain ⟨c, ds, rfl⟩ := List.exists_cons_of_ne_nil hne
    exact ⟨_, [], c, ds, rfl, hmark, .inl rfl, hds⟩
  | positive hmark hds hne =>
    obtain ⟨c, ds, rfl⟩ := List.exists_cons_of_ne_nil hne
    exact ⟨_, ['+'], c, ds, rfl, hmark, .inr (.inl rfl), hds⟩
  | negative hmark hds hne =>
    obtain ⟨c, ds, rfl⟩ := List.exists_cons_of_ne_nil hne
    exact ⟨_, ['-'], c, ds, rfl, hmark, .inr (.inr rfl), hds⟩

namespace Numeral

theorem digits_append {ds rest : List Char} (h : AllDigits ds) (hr : Stops Char.isDigit rest) :
    digits (ds ++ rest) = ds :=
  hr.takeWhile_append h

theorem isIntegerText_iff {ds : List Char} (h : AllDigits ds) (hne : ds ≠ []) :
    isIntegerText ds ↔ IntegerLiteral ds := by
  cases ds with
  | nil => exact absurd rfl hne
  | cons c ds =>
    obtain ⟨hc, hds⟩ := List.forall_mem_cons.1 h
    simp only [isIntegerText, Bool.or_eq_true, List.all_eq_true, beq_iff_eq, bne_iff_ne,
      List.head?_cons, ne_eq, Option.some.injEq]
    constructor
    · rintro (hzeros | hz)
      · obtain ⟨rfl, htail⟩ := List.forall_mem_cons.1 hzeros
        exact .zeros htail
      · exact .digits hc hz hds
    · intro hi
      cases hi with
      | zeros htail => exact .inl (List.forall_mem_cons.2 ⟨rfl, htail⟩)
      | digits _ hz _ => exact .inr hz

/-! ### Exponents -/

theorem exponentSign_cases (cs : List Char) :
    (∃ tail, cs = '+' :: tail) ∨ (∃ tail, cs = '-' :: tail) ∨ exponentSign cs = (1, 0) := by
  unfold exponentSign
  split
  · rename_i tail
    exact .inl ⟨tail, rfl⟩
  · rename_i tail
    exact .inr (.inl ⟨tail, rfl⟩)
  · exact .inr (.inr rfl)

theorem exponentSign_of_digit {c : Char} {cs : List Char} (h : c.isDigit) :
    exponentSign (c :: cs) = (1, 0) := by
  rcases exponentSign_cases (c :: cs) with ⟨tail, heq⟩ | ⟨tail, heq⟩ | hs
  · cases heq
    cases h
  · cases heq
    cases h
  · exact hs

/-- What is read as an exponent after its letter and its sign. -/
theorem exponent?_cons {mark : Char} {cs ds rest : List Char} {sign : Int} {width : Nat}
    (hmark : mark = 'e' ∨ mark = 'E') (hs : exponentSign cs = (sign, width))
    (hcs : cs.drop width = ds ++ rest) (hds : AllDigits ds) (hr : Stops Char.isDigit rest) :
    exponent? (mark :: cs) =
      if ds.isEmpty then none else some (sign * value ds, 1 + width + ds.length) := by
  rw [exponent?, if_pos hmark, hs]
  simp only [hcs, digits_append hds hr]

/-- An exponent is read up to its last digit. -/
theorem exponent?_append {part rest : List Char} {power : Int} (h : ExponentPart part power)
    (hr : Stops Char.isDigit rest) : exponent? (part ++ rest) = some (power, part.length) := by
  cases h with
  | @unsigned mark ds hmark hds hne =>
    have hs : exponentSign (ds ++ rest) = (1, 0) := by
      obtain ⟨d, ds, rfl⟩ := List.exists_cons_of_ne_nil hne
      exact exponentSign_of_digit (List.forall_mem_cons.1 hds).1
    rw [List.cons_append, exponent?_cons hmark hs rfl hds hr]
    simp [hne, Nat.add_comm]
  | @positive mark ds hmark hds hne =>
    have hs : exponentSign ('+' :: (ds ++ rest)) = (1, 1) := rfl
    rw [List.cons_append, List.cons_append, exponent?_cons hmark hs rfl hds hr]
    simp [hne]
    omega
  | @negative mark ds hmark hds hne =>
    have hs : exponentSign ('-' :: (ds ++ rest)) = (-1, 1) := rfl
    rw [List.cons_append, List.cons_append, exponent?_cons hmark hs rfl hds hr]
    simp [hne]
    omega

theorem exponent?_of_breaks {rest : List Char} (h : Breaks rest) : exponent? rest = none := by
  cases rest with
  | nil => rfl
  | cons c rest =>
    have hc := Stops.cons_iff.1 h
    have hmark : ¬(c = 'e' ∨ c = 'E') := by
      rintro (rfl | rfl) <;> cases hc
    rw [exponent?, if_neg hmark]

theorem exponent?_cons_sound {mark : Char} {cs : List Char} {sign power : Int} {width n : Nat}
    (hmark : mark = 'e' ∨ mark = 'E') (hs : exponentSign cs = (sign, width))
    (h : exponent? (mark :: cs) = some (power, n)) :
    ∃ ds rest, cs.drop width = ds ++ rest ∧ AllDigits ds ∧ ds ≠ [] ∧ power = sign * value ds ∧
      n = 1 + width + ds.length := by
  obtain ⟨ds, rest, hcs, hds, hr⟩ := Stops.exists_append Char.isDigit (cs.drop width)
  rw [exponent?_cons hmark hs hcs hds hr] at h
  split at h
  · cases h
  · rename_i hempty
    cases h
    exact ⟨ds, rest, hcs, hds, mt List.isEmpty_iff.2 hempty, rfl, rfl⟩

/-- What is read as an exponent is one, and the text goes on behind it. -/
theorem exponent?_sound {cs : List Char} {power : Int} {width : Nat}
    (h : exponent? cs = some (power, width)) :
    ∃ part rest, cs = part ++ rest ∧ width = part.length ∧ ExponentPart part power := by
  cases cs with
  | nil => cases h
  | cons mark cs =>
    have hmark : mark = 'e' ∨ mark = 'E' := by
      refine Decidable.byContradiction fun hmark => ?_
      rw [exponent?, if_neg hmark] at h
      cases h
    -- the sign decides where the digits start
    rcases exponentSign_cases cs with ⟨tail, rfl⟩ | ⟨tail, rfl⟩ | hs
    · have hs : exponentSign ('+' :: tail) = (1, 1) := rfl
      obtain ⟨ds, rest, hcs, hds, hne, rfl, rfl⟩ := exponent?_cons_sound hmark hs h
      have htail : tail = ds ++ rest := hcs
      refine ⟨mark :: '+' :: ds, rest, by rw [htail]; rfl, ?_, ?_⟩
      · simp only [List.length_cons]
        omega
      · rw [Int.one_mul]
        exact .positive hmark hds hne
    · have hs : exponentSign ('-' :: tail) = (-1, 1) := rfl
      obtain ⟨ds, rest, hcs, hds, hne, rfl, rfl⟩ := exponent?_cons_sound hmark hs h
      have htail : tail = ds ++ rest := hcs
      refine ⟨mark :: '-' :: ds, rest, by rw [htail]; rfl, ?_, ?_⟩
      · simp only [List.length_cons]
        omega
      · rw [Int.neg_one_mul]
        exact .negative hmark hds hne
    · obtain ⟨ds, rest, hcs, hds, hne, rfl, rfl⟩ := exponent?_cons_sound hmark hs h
      have hcs : cs = ds ++ rest := hcs
      refine ⟨mark :: ds, rest, by rw [hcs]; rfl, ?_, ?_⟩
      · simp only [List.length_cons]
        omega
      · rw [Int.one_mul]
        exact .unsigned hmark hds hne

/-! ### Whole numbers -/

section

variable {whole fraction rest : List Char}

theorem read?_pointed (hw : AllDigits whole) (hf : AllDigits fraction)
    (hr : Stops Char.isDigit rest) :
    read? (whole ++ '.' :: (fraction ++ rest)) =
      if whole.isEmpty && fraction.isEmpty then none
      else
        let (power, width) := (exponent? rest).getD (0, 0)
        some (.float ⟨value (whole ++ fraction), power - fraction.length⟩,
          whole.length + 1 + fraction.length + width) := by
  have hwhole : digits (whole ++ '.' :: (fraction ++ rest)) = whole :=
    digits_append hw (Stops.cons_iff.2 rfl)
  have hfraction : digits (fraction ++ rest) = fraction := digits_append hf hr
  simp only [read?, hwhole, List.drop_left, hfraction]

theorem read?_unpointed (hw : AllDigits whole) (hr : Stops Char.isDigit rest)
    (hp : Stops (· == '.') rest) :
    read? (whole ++ rest) =
      if whole.isEmpty then none
      else
        match exponent? rest with
        | some (power, width) => some (.float ⟨value whole, power⟩, whole.length + width)
        | none =>
          if isIntegerText whole then some (.integer (value whole), whole.length) else none := by
  have hwhole : digits (whole ++ rest) = whole := digits_append hw hr
  simp only [read?, hwhole, List.drop_left]
  split
  · cases Stops.cons_iff.1 hp
  · rfl

end

theorem unpointed_sound {whole tail : List Char} {literal : Literal} {width : Nat}
    (hw : AllDigits whole) (ht : Stops Char.isDigit tail) (hp : Stops (· == '.') tail)
    (h : read? (whole ++ tail) = some (literal, width)) :
    ∃ word rest, whole ++ tail = word ++ rest ∧ width = word.length ∧
      Grammar.Number word literal := by
  rw [read?_unpointed hw ht hp] at h
  split at h
  · cases h
  · rename_i hempty
    have hne : whole ≠ [] := mt List.isEmpty_iff.2 hempty
    split at h
    · rename_i power n he
      obtain ⟨part, rest, rfl, rfl, hpart⟩ := exponent?_sound he
      cases h
      exact ⟨whole ++ part, rest, by simp, by simp, .float (.exponent hw hne hpart)⟩
    · split at h
      · rename_i hi
        cases h
        exact ⟨whole, tail, rfl, rfl, .integer ((isIntegerText_iff hw hne).1 hi)⟩
      · cases h

theorem pointed_sound {whole tail : List Char} {literal : Literal} {width : Nat}
    (hw : AllDigits whole) (h : read? (whole ++ '.' :: tail) = some (literal, width)) :
    ∃ word rest, whole ++ '.' :: tail = word ++ rest ∧ width = word.length ∧
      Grammar.Number word literal := by
  obtain ⟨fraction, tail, rfl, hf, ht⟩ := Stops.exists_append Char.isDigit tail
  rw [read?_pointed hw hf ht] at h
  split at h
  · cases h
  · rename_i hempty
    have hne : ¬(whole = [] ∧ fraction = []) := by simpa using hempty
    cases he : exponent? tail with
    | none =>
      rw [he] at h
      cases h
      refine ⟨whole ++ '.' :: fraction, tail, by simp, ?_, ?_⟩
      · simp
        omega
      · simpa using Grammar.Number.float (.pointed hw hf hne)
    | some result =>
      obtain ⟨power, n⟩ := result
      obtain ⟨part, rest, rfl, rfl, hpart⟩ := exponent?_sound he
      rw [he] at h
      cases h
      refine ⟨whole ++ '.' :: (fraction ++ part), rest, by simp, ?_, ?_⟩
      · simp
        omega
      · exact .float (.pointedExponent hw hf hne hpart)

/-- What is read is a number literal, and the text goes on behind it. -/
theorem read?_sound {cs : List Char} {literal : Literal} {width : Nat}
    (h : read? cs = some (literal, width)) :
    ∃ word rest, cs = word ++ rest ∧ width = word.length ∧ Grammar.Number word literal := by
  obtain ⟨whole, tail, rfl, hw, ht⟩ := Stops.exists_append Char.isDigit cs
  cases tail with
  | nil => exact unpointed_sound hw ht (Stops.nil _) h
  | cons c tail =>
    by_cases hc : c = '.'
    · subst hc
      exact pointed_sound hw h
    · exact unpointed_sound hw ht (Stops.cons_iff.2 (beq_eq_false_iff_ne.2 hc)) h

/-- Neither digits nor a point go on behind a number that an exponent follows. -/
theorem stops_exponent {part rest : List Char} {power : Int} (h : ExponentPart part power) :
    Stops Char.isDigit (part ++ rest) ∧ Stops (· == '.') (part ++ rest) := by
  obtain ⟨mark, sign, c, ds, rfl, rfl | rfl, _⟩ := h.exists_cons
  · exact ⟨Stops.cons_iff.2 rfl, Stops.cons_iff.2 rfl⟩
  · exact ⟨Stops.cons_iff.2 rfl, Stops.cons_iff.2 rfl⟩

/-- A number literal is read where nothing runs into it. -/
theorem read?_append {word rest : List Char} {literal : Literal} (h : Grammar.Number word literal)
    (hr : Breaks rest) : read? (word ++ rest) = some (literal, word.length) := by
  cases h with
  | integer hi =>
    obtain ⟨hw, hne⟩ := hi.allDigits
    rw [read?_unpointed hw hr.isDigit hr.ne_point, exponent?_of_breaks hr]
    simp [hne, (isIntegerText_iff hw hne).2 hi]
  | float hf =>
    cases hf with
    | pointed hw hf hne =>
      rw [List.append_assoc, List.cons_append, read?_pointed hw hf hr.isDigit,
        exponent?_of_breaks hr, if_neg (by simpa using hne)]
      simp
      omega
    | pointedExponent hw hf hne he =>
      rw [List.append_assoc, List.cons_append, List.append_assoc,
        read?_pointed hw hf (stops_exponent he).1, exponent?_append he hr.isDigit,
        if_neg (by simpa using hne)]
      simp
      omega
    | exponent hw hne he =>
      rw [List.append_assoc, read?_unpointed hw (stops_exponent he).1 (stops_exponent he).2,
        exponent?_append he hr.isDigit, if_neg (by simpa using hne)]
      simp

end Numeral

end Calculator
