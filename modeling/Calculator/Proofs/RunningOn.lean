import Calculator.Proofs.RealNesting
import Calculator.Proofs.Surroundings

/-!
# Numbers that run on

The nesting pass takes letters, digits and points right behind a number for a part of it, and so it
can miss tokens: in `1or-1` it reads a number `1or` and finds the sign behind it between two
operands. What it misses are ends of chains and the beginning of one, so that it falls behind the
tokens by one level in each open bracket, and by no more.

* `Nesting.Count.Lags`: two counts, the second at most one level ahead in each open bracket.
* `Nesting.Trails`: where the pass stands among the tokens when it has missed some.

Results:
* `Nesting.numberWidth_lexeme`: a number runs on into whole tokens.
* `Nesting.Trails.step`, `Nesting.Trails.miss`: a token that the pass reads, and one that it misses.
* `Nesting.deepest_readTokens_le`: the pass over a whole text.
* `nesting_le_of_ofText`: the estimate bounds the real nesting of every phrase without `not`, and
  `exists_deeper_than_estimate` where it falls short of it.
-/

namespace Calculator

open Grammar

namespace Nesting

/-! ## Counts -/

namespace Count

/-- Two consistent counts, the second at most one level ahead in each open bracket. -/
structure Lags (pass exact : Count) : Prop where
  consistent : pass.Consistent
  consistent' : exact.Consistent
  chains : List.Forall₂ (fun chain ahead => ahead ≤ chain + 1) pass.chains exact.chains

theorem sum_le_of_forall₂ {chains ahead : List Nat}
    (h : List.Forall₂ (fun chain ahead => ahead ≤ chain + 1) chains ahead) :
    ahead.length = chains.length ∧ ahead.sum ≤ chains.sum + chains.length := by
  induction h with
  | nil => exact ⟨rfl, Nat.le_refl 0⟩
  | cons hchain _ ih =>
    simp only [List.length_cons, List.sum_cons]
    omega

namespace Lags

variable {pass exact : Count}

/-- One level in each bracket, and one outside of all, is as much again as there are brackets. -/
theorem depth_le (h : Lags pass exact) : exact.depth ≤ 2 * pass.depth + 1 := by
  obtain ⟨hlength, hsum⟩ := sum_le_of_forall₂ h.chains
  have := h.consistent.length
  have := h.consistent'.length
  rw [depth, depth, h.consistent.sum, h.consistent'.sum]
  omega

theorem enter (h : Lags pass exact) : Lags pass.enter exact.enter :=
  ⟨h.consistent.enter, h.consistent'.enter, .cons (Nat.zero_le 1) h.chains⟩

theorem link (h : Lags pass exact) : Lags pass.link exact.link := by
  refine ⟨h.consistent.link, h.consistent'.link, ?_⟩
  obtain ⟨chain, outer, _, _, rfl⟩ := h.consistent.exists_cons
  obtain ⟨ahead, outer', _, _, rfl⟩ := h.consistent'.exists_cons
  obtain ⟨hchain, houter⟩ := List.forall₂_cons.1 h.chains
  exact .cons (Nat.succ_le_succ hchain) houter

/-- An end of a chain brings both together, also if the pass misses it. -/
theorem reset (h : Lags pass exact) : Lags pass.reset exact.reset ∧ Lags pass exact.reset := by
  refine ⟨⟨h.consistent.reset, h.consistent'.reset, ?_⟩, ⟨h.consistent, h.consistent'.reset, ?_⟩⟩
  all_goals
    obtain ⟨chain, outer, _, _, rfl⟩ := h.consistent.exists_cons
    obtain ⟨ahead, outer', _, _, rfl⟩ := h.consistent'.exists_cons
    obtain ⟨-, houter⟩ := List.forall₂_cons.1 h.chains
    exact .cons (Nat.zero_le _) houter

/-- The beginning of a chain that the pass takes for the end of another. -/
theorem begin (h : Lags pass exact) (hchain : exact.chains.head? = some 0) :
    Lags pass.reset exact.link := by
  refine ⟨h.consistent.reset, h.consistent'.link, ?_⟩
  obtain ⟨chain, outer, _, _, rfl⟩ := h.consistent.exists_cons
  obtain ⟨ahead, outer', _, _, rfl⟩ := h.consistent'.exists_cons
  obtain rfl : ahead = 0 := Option.some.inj hchain
  obtain ⟨-, houter⟩ := List.forall₂_cons.1 h.chains
  exact .cons (Nat.le_refl 1) houter

theorem leave (h : Lags pass exact) : Lags pass.leave exact.leave := by
  refine ⟨h.consistent.leave, h.consistent'.leave, ?_⟩
  obtain ⟨chain, outer, _, _, rfl⟩ := h.consistent.exists_cons
  obtain ⟨ahead, outer', _, _, rfl⟩ := h.consistent'.exists_cons
  obtain ⟨hchain, houter⟩ := List.forall₂_cons.1 h.chains
  cases houter with
  | nil => exact .cons hchain .nil
  | cons henclosing houter => exact .cons henclosing houter

theorem setAfterOperand (h : Lags pass exact) (first second : Bool) :
    Lags { pass with afterOperand := first } { exact with afterOperand := second } :=
  ⟨⟨h.consistent.length, h.consistent.sum⟩, ⟨h.consistent'.length, h.consistent'.sum⟩, h.chains⟩

end Lags

/-- An operand is complete behind operands and closing brackets. -/
theorem afterOperand_move (count : Count) {piece : Piece} (h : piece ≠ .blank) :
    (count.move piece).afterOperand = (piece == .closing || piece == .operand) := by
  rcases count with ⟨brackets, chains, chained, afterOperand, deepest⟩
  cases piece with
  | blank => exact absurd rfl h
  | _ => rcases chains with _ | ⟨chain, _ | ⟨enclosing, outer⟩⟩ <;> cases afterOperand <;> rfl

end Count

theorem Piece.ofKind_ne_blank (kind : Token.Kind) : Piece.ofKind kind ≠ .blank := by
  cases kind with
  | operator symbol => cases symbol <;> simp [ofKind]
  | logical connective => cases connective <;> simp [ofKind]
  | _ => simp [ofKind]

theorem Piece.ofKind_of_isNumber {kind : Token.Kind} (h : kind.isNumber) :
    Piece.ofKind kind = .operand := by
  cases kind with
  | literal value => rfl
  | _ => cases h

/-! ## What a number runs on into -/

/-- The letters of exponents, behind which a sign continues a number. -/
def MarksExponent (c : Char) : Prop := c = 'e' ∨ c = 'E'

theorem numberWidth_append {word : List Char} (previous : Char) (rest : List Char)
    (h : ∀ c ∈ word, continuesNumber c) :
    numberWidth previous (word ++ rest) =
      word.length + numberWidth (word.getLastD previous) rest := by
  induction word generalizing previous with
  | nil => rw [List.nil_append, List.length_nil, Nat.zero_add, List.getLastD_nil]
  | cons c word ih =>
    obtain ⟨hc, hword⟩ := List.forall_mem_cons.1 h
    rw [List.cons_append, numberWidth_cons hc, ih c hword, List.getLastD_cons, List.length_cons]
    omega

/-- A number stops where neither a letter, a digit nor a point comes next, nor a sign behind an
    exponent. -/
theorem numberWidth_eq_zero {previous c : Char} (cs : List Char) (hc : continuesNumber c = false)
    (hsign : (c == '+' || c == '-') = false ∨ ¬MarksExponent previous) :
    numberWidth previous (c :: cs) = 0 := by
  simp only [continuesNumber] at hc
  rcases hsign with hsign | hsign
  · simp [numberWidth, hc, hsign]
  · obtain ⟨hsmall, hlarge⟩ := not_or.1 hsign
    simp [numberWidth, hc, hsmall, hlarge]

/-- The marks that continue a number. -/
theorem mark_cases_of_continuesNumber : ∀ mark ∈ Token.marks,
    mark = (['.'], .dot) ∨ mark = (['+'], .operator .add) ∨ mark = (['-'], .operator .subtract) ∨
      mark.1.head?.all (fun c => !continuesNumber c && !(c == '+' || c == '-')) := by
  decide

/-- What a token is that a number runs on into, up to its last character. -/
def RunsOnInto (previous : Char) (kind : Token.Kind) (last : Char) : Prop :=
  Piece.ofKind kind = .operand ∨ ¬MarksExponent last ∧
    (Piece.ofKind kind = .connective ∨ kind = .dot ∨
      Piece.ofKind kind = .sign ∧ MarksExponent previous)

theorem continuesNumber_of_continuesWord {c : Char} (h : Text.continuesWord c) :
    continuesNumber c := by
  simp only [Text.continuesWord, continuesNumber, Bool.or_eq_true] at h ⊢
  tauto

/-- `and` and `or` do not end as an exponent begins. -/
theorem runsOnInto_word {previous : Char} {word : List Char}
    (hnot : Token.Kind.ofWord word ≠ .not) :
    RunsOnInto previous (.ofWord word) (word.getLastD previous) := by
  have hpiece := ofWord_eq word
  unfold ofWord at hpiece
  split at hpiece
  · rename_i hword
    exact absurd (by rw [hword]; rfl) hnot
  · split at hpiece
    · rename_i hword
      rcases hword with rfl | rfl <;> exact .inr ⟨by simp [MarksExponent], .inl rfl⟩
    · exact .inl hpiece.symm

/-- A number runs on into a sign behind an exponent only. -/
theorem exists_runsOnInto_sign {previous sign : Char} {rest : List Char} {kind : Token.Kind}
    (hsign : sign = '+' ∨ sign = '-') (hk : Piece.ofKind kind = .sign)
    (hwidth : numberWidth previous ([sign] ++ rest) ≠ 0) :
    ∃ last, RunsOnInto previous kind last ∧
      numberWidth previous ([sign] ++ rest) = [sign].length + numberWidth last rest := by
  have hcontinues : continuesNumber sign = false := by
    rcases hsign with rfl | rfl <;> rfl
  have hlast : ¬MarksExponent sign := by
    rcases hsign with rfl | rfl <;> simp [MarksExponent]
  have hmark : MarksExponent previous := by
    by_contra hmark
    exact hwidth (numberWidth_eq_zero rest hcontinues (.inr hmark))
  refine ⟨sign, .inr ⟨hlast, .inr (.inr ⟨hk, hmark⟩)⟩, ?_⟩
  rw [List.singleton_append, numberWidth_sign hmark hsign, List.length_singleton, Nat.add_comm]

/-- A number that runs on into a token runs on to its end. -/
theorem numberWidth_lexeme {previous c : Char} {cs rest : List Char} {kind : Token.Kind}
    (hword : Lexeme (c :: cs) rest kind) (hnot : kind ≠ .not)
    (hwidth : numberWidth previous (c :: cs ++ rest) ≠ 0) :
    ∃ last, RunsOnInto previous kind last ∧
      numberWidth previous (c :: cs ++ rest) = (c :: cs).length + numberWidth last rest := by
  generalize hcs : c :: cs = word at hword hwidth ⊢
  cases hword with
  | number hn =>
    subst hcs
    have hcontinues : continuesNumber c := by
      rcases Lexeme.first_number hn with hdigit | rfl
      · simp [continuesNumber, Char.isAlphanum, hdigit]
      · rfl
    have hnumber := Continues.number hn (.of_digit rest) '0' (.inl rfl)
    rw [List.cons_append, numberWidth_cons hcontinues] at hnumber ⊢
    exact ⟨'0', .inl rfl, hnumber⟩
  | text hq =>
    cases hcs
    rcases hq with rfl | rfl <;> exact absurd (numberWidth_eq_zero _ rfl (.inl rfl)) hwidth
  | @word d ds rest hd hds =>
    have hall : ∀ c ∈ d :: ds, continuesNumber c :=
      List.forall_mem_cons.2 ⟨continuesNumber_of_continuesWord (continuesWord_of_startsWord hd),
        fun c hc => continuesNumber_of_continuesWord (hds c hc)⟩
    exact ⟨(d :: ds).getLastD previous, runsOnInto_word hnot,
      numberWidth_append previous rest hall⟩
  | mark hm =>
    have hfirst := mark_cases_of_continuesNumber _ hm
    rcases hfirst with heq | heq | heq | hstops
    · cases heq
      exact ⟨'.', .inr ⟨by simp [MarksExponent], .inr (.inl rfl)⟩,
        numberWidth_append previous rest (by simp [continuesNumber])⟩
    · cases heq
      exact exists_runsOnInto_sign (.inl rfl) rfl hwidth
    · cases heq
      exact exists_runsOnInto_sign (.inr rfl) rfl hwidth
    · subst hcs
      have hc : continuesNumber c = false ∧ (c == '+' || c == '-') = false := by
        simpa only [List.head?_cons, Option.all_some, Bool.and_eq_true, Bool.not_eq_true'] using
          hstops
      exact absurd (numberWidth_eq_zero _ hc.1 (.inl hc.2)) hwidth

/-! ## Tokens read and missed -/

/-- Where the pass stands in front of tokens. If it takes an operand for complete that is none, then
    a chain has just ended, or a name comes next. -/
structure Trails (pass exact : Count) (tokens : List Token) : Prop where
  lags : pass.Lags exact
  settled : pass.Settled
  deepest : exact.deepest ≤ 2 * pass.deepest + 1
  operand : pass.afterOperand = exact.afterOperand ∨
    pass.afterOperand = true ∧
      (exact.chains.head? = some 0 ∨ ∀ token ∈ tokens.head?, token.kind = .name)

namespace Trails

variable {pass exact : Count} {token : Token} {tokens : List Token}

/-- Before the first token the pass has missed nothing. -/
theorem initial (tokens : List Token) : Trails .initial .initial tokens where
  lags := ⟨Count.consistent_initial, Count.consistent_initial, .cons (Nat.zero_le 1) .nil⟩
  settled := Count.settled_initial
  deepest := Nat.zero_le 1
  operand := .inl rfl

/-- A sign is a level of a chain that the pass has caught up with, ends one, or begins one that the
    pass does not see. -/
theorem lags_sign (h : Trails pass exact (token :: tokens))
    (hk : Piece.ofKind token.kind = .sign) :
    (pass.move .sign).Lags (exact.move .sign) := by
  have hname : token.kind ≠ .name := by
    intro hname
    rw [hname] at hk
    cases hk
  rw [Count.move, Count.move]
  rcases h.operand with hsame | ⟨hoperand, hchain | hnext⟩
  · rw [hsame]
    split
    · exact h.lags.reset.1
    · exact h.lags.link
  · rw [if_pos hoperand]
    split
    · exact h.lags.reset.1
    · exact h.lags.begin hchain
  · exact absurd (hnext token rfl) hname

/-- A token that the pass reads keeps it at most a level behind in each bracket, and in step with
    the operands. -/
theorem step (h : Trails pass exact (token :: tokens)) :
    Trails (pass.readToken token) (exact.readToken token) tokens := by
  have hblank := Piece.ofKind_ne_blank token.kind
  have hlags : (pass.move (.ofKind token.kind)).Lags (exact.move (.ofKind token.kind)) := by
    cases hk : Piece.ofKind token.kind with
    | opening => exact h.lags.enter
    | closing => exact h.lags.leave
    | power | not => exact h.lags.link
    | sign => exact h.lags_sign hk
    | connective | other => exact h.lags.reset.1
    | operand => exact h.lags.setAfterOperand true true
    | dot => exact h.lags.setAfterOperand false false
    | blank => exact absurd hk hblank
  have hdepth := hlags.depth_le
  have hpass := pass.deepest_move (.ofKind token.kind)
  have hexact := exact.deepest_move (.ofKind token.kind)
  have hdeepest := h.deepest
  refine ⟨⟨⟨hlags.consistent.length, hlags.consistent.sum⟩,
    ⟨hlags.consistent'.length, hlags.consistent'.sum⟩, hlags.chains⟩, Count.settled_step _ _, ?_,
    .inl ?_⟩
  · show max (exact.move (.ofKind token.kind)).deepest (exact.move (.ofKind token.kind)).depth ≤
      2 * max (pass.move (.ofKind token.kind)).deepest (pass.move (.ofKind token.kind)).depth + 1
    omega
  · exact (pass.afterOperand_move hblank).trans (exact.afterOperand_move hblank).symm

/-- A token that the pass misses, since it takes it for a part of a number. -/
theorem miss {previous last : Char} (h : Trails pass exact (token :: tokens))
    (hpass : pass.afterOperand = true) (hruns : RunsOnInto previous token.kind last)
    (hmark : MarksExponent previous → exact.afterOperand = true)
    (hdot : ∀ next ∈ tokens.head?, token.kind = .dot → next.kind = .name) :
    Trails pass (exact.readToken token) tokens := by
  have hmoved : pass.Lags (exact.move (.ofKind token.kind)) ∧
      (pass.afterOperand = (exact.move (.ofKind token.kind)).afterOperand ∨
        pass.afterOperand = true ∧ ((exact.move (.ofKind token.kind)).chains.head? = some 0 ∨
          ∀ next ∈ tokens.head?, next.kind = .name)) := by
    have hreset : exact.reset.chains.head? = some 0 := by
      obtain ⟨chain, outer, _, _, rfl⟩ := h.lags.consistent'.exists_cons
      rfl
    rcases hruns with hk | ⟨-, hk | hk | ⟨hk, hprevious⟩⟩
    · rw [hk]
      exact ⟨h.lags.setAfterOperand _ true, .inl hpass⟩
    · rw [hk]
      exact ⟨h.lags.reset.2, .inr ⟨hpass, .inl hreset⟩⟩
    · rw [hk]
      exact ⟨h.lags.setAfterOperand _ false,
        .inr ⟨hpass, .inr fun next hnext => hdot next hnext hk⟩⟩
    · rw [hk, Count.move, if_pos (hmark hprevious)]
      exact ⟨h.lags.reset.2, .inr ⟨hpass, .inl hreset⟩⟩
  obtain ⟨hlags, hoperand⟩ := hmoved
  have hdepth := hlags.depth_le
  have hsettled : pass.depth ≤ pass.deepest := h.settled
  have hexact := exact.deepest_move (.ofKind token.kind)
  have hdeepest := h.deepest
  refine ⟨⟨hlags.consistent, ⟨hlags.consistent'.length, hlags.consistent'.sum⟩, hlags.chains⟩,
    h.settled, ?_, hoperand⟩
  show max (exact.move (.ofKind token.kind)).deepest (exact.move (.ofKind token.kind)).depth ≤
    2 * pass.deepest + 1
  omega

end Trails

/-! ## Whole texts -/

open Token

/-- White space ends every number. -/
theorem skipped_gap {c : Char} (previous : Option Char) (cs : List Char) (h : isGap c) :
    skipped previous (c :: cs) = 0 := by
  cases previous with
  | none => rfl
  | some previous =>
    rcases isGap_iff.1 h with rfl | rfl | rfl | rfl <;>
      exact numberWidth_eq_zero cs rfl (.inl rfl)

/-- Behind a character of a number the pass takes an operand for complete, and behind the first
    letter of an exponent it is complete. -/
structure Within (previous : Option Char) (pass exact : Count) : Prop where
  operand : previous.isSome → pass.afterOperand = true
  mark : ∀ c ∈ previous, MarksExponent c → exact.afterOperand = true

namespace Within

variable {pass exact : Count}

theorem outside : Within none pass exact := by
  constructor
  · intro h
    cases h
  · intro c h
    cases h

/-- No number ends with the letter of an exponent. -/
theorem numberEnd (kind : Token.Kind) :
    Within kind.numberEnd? (pass.step (.ofKind kind)) exact := by
  rw [Token.Kind.numberEnd?]
  split
  · rename_i hnumber
    refine ⟨fun _ => ?_, fun c hc hmark => ?_⟩
    · rw [Piece.ofKind_of_isNumber hnumber]
      rfl
    · obtain rfl : '0' = c := Option.some.inj hc
      rcases hmark with h | h <;> cases h
  · exact outside

theorem missed {previous last : Char} {kind : Token.Kind} (hpass : pass.afterOperand = true)
    (hruns : RunsOnInto previous kind last) :
    Within (some last) pass (exact.step (.ofKind kind)) := by
  refine ⟨fun _ => hpass, fun c hc hmark => ?_⟩
  obtain rfl : last = c := Option.some.inj hc
  rcases hruns with hk | ⟨hlast, -⟩
  · rw [hk]
    rfl
  · exact absurd hmark hlast

end Within

/-- **The pass falls behind the tokens by one level in each bracket at most**, and so their depth is
    at most twice its own and one level more, from wherever it trails the tokens. -/
theorem deepest_readTokens_le {pass exact : Count} {tokens : List Token} {previous : Option Char}
    {afterOperand : Bool} {point : Nat} {cs : List Char} (htrails : Trails pass exact tokens)
    (hwithin : Within previous pass exact) (h : scan afterOperand point cs = tokens)
    (hknown : ∀ token ∈ tokens, token.kind ≠ .unknown)
    (hnot : ∀ token ∈ tokens, token.kind ≠ .not)
    (hdot : tokens.IsChain fun token next => token.kind = .dot → next.kind = .name) :
    (exact.readTokens tokens).deepest ≤
      2 * (run pass (cs.drop (skipped previous cs))).deepest + 1 := by
  fun_induction scan afterOperand point cs generalizing pass exact tokens previous with
  | case1 =>
    subst h
    rw [List.drop_nil, run]
    exact htrails.deepest
  | case2 afterOperand point c cs hgap ih =>
    have hrun : run pass ([c] ++ cs) = run pass cs :=
      run_gap htrails.settled (List.forall_mem_singleton.2 (isGap_iff.1 hgap))
    rw [List.singleton_append] at hrun
    rw [skipped_gap previous cs hgap, List.drop_zero, hrun]
    exact ih htrails .outside h hknown hnot hdot
  | case3 =>
    subst h
    exact absurd rfl (hknown _ List.mem_cons_self)
  | case4 afterOperand point c cs hgap kind width hread ih =>
    subst h
    obtain ⟨word, rest, hcs, rfl, hword⟩ := read?_sound hread
    obtain ⟨d, ds, rfl⟩ := List.exists_cons_of_ne_nil hword.ne_nil
    simp only [List.cons_append, List.cons.injEq] at hcs
    obtain ⟨rfl, rfl⟩ := hcs
    have hdrop : (ds ++ rest).drop ((c :: ds).length - 1) = rest := by simp
    rw [hdrop] at ih hknown hnot hdot htrails ⊢
    obtain ⟨-, hknown⟩ := List.forall_mem_cons.1 hknown
    obtain ⟨hkind, hnot⟩ := List.forall_mem_cons.1 hnot
    obtain ⟨hnext, hdot⟩ := List.isChain_cons.1 hdot
    rw [← List.cons_append, Count.readTokens_cons]
    by_cases hskipped : skipped previous (c :: ds ++ rest) = 0
    · -- the pass reads the token
      rw [hskipped, List.drop_zero,
        run_lexeme_running_on hread hword hknown fun hk token htoken => hnext token htoken hk]
      exact ih htrails.step (.numberEnd kind) rfl hknown hnot hdot
    · -- the pass misses it
      cases previous with
      | none => exact absurd rfl hskipped
      | some previous =>
        obtain ⟨last, hruns, hwidth⟩ := numberWidth_lexeme hword hkind hskipped
        have hpass := hwithin.operand rfl
        rw [skipped, hwidth, List.drop_length_add_append]
        exact ih (htrails.miss hpass hruns (hwithin.mark previous rfl) hnext)
          (.missed hpass hruns) rfl hknown hnot hdot

end Nesting

/-! ## Phrases -/

open Nesting

/-- A point stands before a name. -/
theorem State.isChain_dot_of_run {state last : State} {tokens : List Token}
    (h : state.run tokens = .ok last) :
    tokens.IsChain (fun token next => token.kind = .dot → next.kind = .name) ∧
      ((∃ target dot, state.mode = .label target dot) →
        ∀ token ∈ tokens.head?, token.kind = .name) := by
  induction tokens generalizing state with
  | nil => simp
  | cons token tokens ih =>
    rw [run] at h
    split at h
    · rename_i next hstep
      obtain ⟨hchain, hhead⟩ := ih h
      refine ⟨List.isChain_cons.2 ⟨fun token' htoken' hk => ?_, hchain⟩, ?_⟩
      · refine hhead ?_ token' htoken'
        simp only [step, stepOperand, stepContinuation, hk] at hstep
        split at hstep <;> cases hstep
        exact ⟨_, _, rfl⟩
      · rintro ⟨target, dot, hm⟩ token' ⟨⟩
        simp only [step, hm] at hstep
        split at hstep
        · assumption
        · cases hstep
    · cases h

/-- **The estimate bounds the real nesting.** Without `not`, a phrase nests at most twice as deeply
    as the pass finds its text to do, and one level more; and exactly as deeply if no number runs on
    into the word or the point behind it. -/
theorem nesting_le_of_ofText {text : List Char} {phrase : Phrase}
    (h : Phrase.ofText text = .ok phrase) (hnot : ∀ token ∈ phrase.tokens, token.kind ≠ .not) :
    phrase.nesting ≤ 2 * Nesting.depth text + 1 ∧
      (phrase.tokens.IsChain Token.Apart → phrase.nesting = Nesting.depth text) := by
  obtain ⟨hwell, htokens⟩ := Phrase.ofTokens_eq_ok_iff.1 h
  obtain ⟨last, hrun⟩ := Phrase.exists_run h
  have hlevels := phrase.levels_eq 0 hwell hnot (.inl rfl)
  rw [Nat.zero_add] at hlevels
  refine ⟨?_, fun hapart => ?_⟩
  · rw [← hlevels, ← Phrase.deepest_readTokens hwell, htokens]
    rw [htokens] at hnot
    exact deepest_readTokens_le (.initial _) .outside rfl (State.known_of_run hrun) hnot
      (State.isChain_dot_of_run hrun).1
  · rw [← hlevels, depth_of_ofText h hapart]

/-- Twice a number runs on into `or`, before a sign and inside a bracket: the pass misses as much as
    it can. -/
theorem nesting_le_of_ofText_or :
    ∃ phrase, Phrase.ofText "1or-(1or-1)".toList = .ok phrase ∧
      (∀ token ∈ phrase.tokens, token.kind ≠ .not) ∧
      phrase.nesting = 3 ∧ Nesting.depth "1or-(1or-1)".toList = 1 ∧
      phrase.nesting ≤ 2 * Nesting.depth "1or-(1or-1)".toList + 1 ∧
      (phrase.tokens.IsChain Token.Apart →
        phrase.nesting = Nesting.depth "1or-(1or-1)".toList) := by
  have hphrase : Phrase.ofText "1or-(1or-1)".toList =
      .ok (.joined (.literal (.integer 1) ⟨0, 1⟩) (.logical .or) ⟨1, 3⟩
        (.prefixed .minus ⟨3, 4⟩ (.group ⟨4, 5⟩
          (.joined (.literal (.integer 1) ⟨5, 6⟩) (.logical .or) ⟨6, 8⟩
            (.prefixed .minus ⟨8, 9⟩ (.literal (.integer 1) ⟨9, 10⟩))) ⟨10, 11⟩))) := by
    with_unfolding_all rfl
  exact ⟨_, hphrase, by decide, by decide, by with_unfolding_all rfl,
    nesting_le_of_ofText hphrase (by decide)⟩

/-- The pass misses the level of a sign behind `1or`. -/
theorem exists_deeper_than_estimate :
    ∃ phrase, Phrase.ofText "1or-1".toList = .ok phrase ∧
      (∀ token ∈ phrase.tokens, token.kind ≠ .not) ∧
      ¬phrase.nesting ≤ Nesting.depth "1or-1".toList :=
  have hdepth : Nesting.depth "1or-1".toList = 0 := by with_unfolding_all rfl
  ⟨.joined (.literal (.integer 1) ⟨0, 1⟩) (.logical .or) ⟨1, 3⟩
      (.prefixed .minus ⟨3, 4⟩ (.literal (.integer 1) ⟨4, 5⟩)),
    by with_unfolding_all rfl, by decide, by rw [hdepth]; decide⟩

end Calculator
