import Calculator.Proofs.Derivation
import Calculator.Proofs.Levels
import Calculator.Proofs.Refusals

/-!
# The estimate against the real nesting

What really nests in a phrase are brackets, operators before an operand and the exponents of `**`.
The estimate for a text never exceeds the nesting of the phrase that the text is, so that no text is
refused for a nesting that it does not have; and it falls short of it only where `not` stands before
a chain, whose operators end the chain that `not` belongs to.

* `Phrase.nesting`: the real nesting.
* `Phrase.IsPlain`: the phrases made of literals, groups and operators only.

Results:
* `Phrase.levels_le`, `Phrase.levels_eq`: the level that a phrase reaches against its nesting.
* `depth_le_nesting`: the estimate for a plain phrase, exact without `not`.
-/

namespace Calculator

open Nesting

/-! ## Nesting -/

mutual

/-- How deep brackets, operators before an operand and exponents of `**` really nest in a phrase. -/
def Phrase.nesting : Phrase → Nat
  | .literal _ _ | .name _ => 0
  | .prefixed _ _ operand => 1 + operand.nesting
  | .joined left (.operator .power) _ right => max left.nesting (1 + right.nesting)
  | .joined left _ _ right => max left.nesting right.nesting
  | .group _ inner _ => 1 + inner.nesting
  | .display _ _ items _ => 1 + items.nesting
  | .trailed target trailer => max target.nesting trailer.nesting

/-- The nesting of a trailer. -/
def Trailer.nesting : Trailer → Nat
  | .attribute _ _ => 0
  | .call _ items _ | .subscript _ items _ => 1 + items.nesting

/-- The nesting of an item. -/
def Item.nesting : Item → Nat
  | .plain value | .named _ _ value => value.nesting
  | .keyed key _ value => max key.nesting value.nesting

/-- The greatest nesting among items. -/
def Items.nesting : Items → Nat
  | .nil => 0
  | .last item => item.nesting
  | .cons item _ rest => max item.nesting rest.nesting

end

theorem Phrase.nesting_joined (left : Phrase) (connector : Connector) (mark : Span)
    (right : Phrase) : (joined left connector mark right).nesting =
      max left.nesting (connector.carry 0 + right.nesting) := by
  by_cases hpower : connector = .operator .power
  · subst hpower
    rw [nesting, Connector.carry]
  · rw [Connector.carry_of_ne_power hpower, Nat.zero_add, nesting]
    rintro rfl
    exact hpower rfl

theorem Connector.carry_le (connector : Connector) (chain : Nat) :
    connector.carry chain ≤ chain + connector.carry 0 := by
  by_cases hpower : connector = .operator .power
  · subst hpower
    simp [carry]
  · rw [carry_of_ne_power hpower]
    exact Nat.zero_le _

theorem UnaryOperator.strength_eq_seven {operator : UnaryOperator} (h : operator ≠ .not) :
    operator.strength = 7 := by
  cases operator with
  | not => exact absurd rfl h
  | _ => rfl

theorem Connector.strength_le_six {connector : Connector} (h : connector ≠ .operator .power) :
    connector.strength ≤ 6 := by
  rcases connector with symbol | connective
  · cases symbol with
    | power => exact absurd rfl h
    | _ => simp [strength, Operator.strength]
  · cases connective <;> simp [strength, Logical.strength]

mutual

/-- A phrase reaches no level beyond its nesting. -/
theorem Phrase.levels_le : (phrase : Phrase) → (chain : Nat) →
    phrase.levels chain ≤ chain + phrase.nesting
  | .literal _ _, chain | .name _, chain => Nat.le_refl chain
  | .prefixed _ _ operand, chain => by
    have := operand.levels_le (chain + 1)
    rw [Phrase.levels, Phrase.nesting]
    omega
  | .joined left connector _ right, chain => by
    have := left.levels_le chain
    have := right.levels_le (connector.carry chain)
    have := connector.carry_le chain
    rw [Phrase.levels, Phrase.nesting_joined]
    omega
  | .group _ inner _, chain => by
    have := inner.levels_le 0
    rw [Phrase.levels, Phrase.nesting]
    omega
  | .display _ _ items _, chain => by
    have := items.levels_le
    rw [Phrase.levels, Phrase.nesting]
    omega
  | .trailed target trailer, chain => by
    have := target.levels_le chain
    have := trailer.levels_le chain
    rw [Phrase.levels, Phrase.nesting]
    omega

theorem Trailer.levels_le : (trailer : Trailer) → (chain : Nat) →
    trailer.levels chain ≤ chain + trailer.nesting
  | .attribute _ _, chain => Nat.le_refl chain
  | .call _ items _, chain | .subscript _ items _, chain => by
    have := items.levels_le
    rw [Trailer.levels, Trailer.nesting]
    omega

theorem Item.levels_le : (item : Item) → item.levels ≤ item.nesting
  | .plain value | .named _ _ value => by
    have := value.levels_le 0
    rw [Item.levels, Item.nesting]
    omega
  | .keyed key _ value => by
    have := key.levels_le 0
    have := value.levels_le 0
    rw [Item.levels, Item.nesting]
    omega

theorem Items.levels_le : (items : Items) → items.levels ≤ items.nesting
  | .nil => Nat.le_refl 0
  | .last item => item.levels_le
  | .cons item _ rest => by
    have := item.levels_le
    have := rest.levels_le
    rw [Items.levels, Items.nesting]
    omega

end

mutual

/-- Without `not`, a phrase reaches all of its nesting behind every chain that it can stand behind:
    only factors stand behind a chain that has begun. -/
theorem Phrase.levels_eq : (phrase : Phrase) → (chain : Nat) → phrase.WellFormed →
    (∀ token ∈ phrase.tokens, token.kind ≠ .not) → chain = 0 ∨ 7 ≤ phrase.strength →
    phrase.levels chain = chain + phrase.nesting
  | .literal _ _, chain, _, _, _ | .name _, chain, _, _, _ => rfl
  | .prefixed operator mark operand, chain, h, hnot, _ => by
    obtain ⟨hoperator, hoperand⟩ := List.forall_mem_cons.1 hnot
    have hstrength : operator.strength = 7 :=
      UnaryOperator.strength_eq_seven fun heq => hoperator (congrArg UnaryOperator.kind heq)
    have hweak := h.2
    have := operand.levels_eq (chain + 1) h.1 hoperand (by omega)
    rw [Phrase.levels, Phrase.nesting]
    omega
  | .joined left connector mark right, chain, h, hnot, hchain => by
    obtain ⟨hl, hright⟩ := List.forall_mem_append.1 hnot
    obtain ⟨_, hr⟩ := List.forall_mem_cons.1 hright
    obtain ⟨⟨hlw, hls⟩, hrw, hrs⟩ := h
    rw [Phrase.levels, Phrase.nesting_joined]
    by_cases hpower : connector = .operator .power
    · subst hpower
      have hcomplete : 9 ≤ left.strength := hls
      have hfactor : 7 ≤ right.strength := hrs
      have := left.levels_eq chain hlw hl (.inr (by omega))
      have := right.levels_eq (chain + 1) hrw hr (.inr hfactor)
      simp only [Connector.carry]
      omega
    · -- a chain of operators stands behind no chain
      have hzero : chain = 0 := by
        have hweak := Connector.strength_le_six hpower
        rcases hchain with hzero | hstrong
        · exact hzero
        · have hstrong : 7 ≤ connector.strength := hstrong
          omega
      have := left.levels_eq 0 hlw hl (.inl rfl)
      have := right.levels_eq 0 hrw hr (.inl rfl)
      rw [hzero, Connector.carry_of_ne_power hpower]
      omega
  | .group _ inner _, chain, h, hnot, _ => by
    obtain ⟨_, hinside⟩ := List.forall_mem_cons.1 hnot
    have := inner.levels_eq 0 h (List.forall_mem_append.1 hinside).1 (.inl rfl)
    rw [Phrase.levels, Phrase.nesting]
    omega
  | .display _ _ items _, chain, h, hnot, _ => by
    obtain ⟨_, hinside⟩ := List.forall_mem_cons.1 hnot
    have := items.levels_eq h.1 (List.forall_mem_append.1 hinside).1
    rw [Phrase.levels, Phrase.nesting]
    omega
  | .trailed target trailer, chain, h, hnot, hchain => by
    obtain ⟨ht, hr⟩ := List.forall_mem_append.1 hnot
    have := target.levels_eq chain h.1.1 ht (.inr (Nat.le_trans (by decide) h.1.2))
    have := trailer.levels_eq chain h.2 hr
    rw [Phrase.levels, Phrase.nesting]
    omega

theorem Trailer.levels_eq : (trailer : Trailer) → (chain : Nat) → trailer.WellFormed →
    (∀ token ∈ trailer.tokens, token.kind ≠ .not) →
    trailer.levels chain = chain + trailer.nesting
  | .attribute _ _, chain, _, _ => rfl
  | .call _ items _, chain, h, hnot | .subscript _ items _, chain, h, hnot => by
    obtain ⟨_, hinside⟩ := List.forall_mem_cons.1 hnot
    have := items.levels_eq h.1 (List.forall_mem_append.1 hinside).1
    rw [Trailer.levels, Trailer.nesting]
    omega

theorem Item.levels_eq : (item : Item) → item.WellFormed →
    (∀ token ∈ item.tokens, token.kind ≠ .not) → item.levels = item.nesting
  | .plain value, h, hnot => by
    have := value.levels_eq 0 h hnot (.inl rfl)
    rw [Item.levels, Item.nesting]
    omega
  | .named _ _ value, h, hnot => by
    obtain ⟨_, hrest⟩ := List.forall_mem_cons.1 hnot
    have := value.levels_eq 0 h (List.forall_mem_cons.1 hrest).2 (.inl rfl)
    rw [Item.levels, Item.nesting]
    omega
  | .keyed key _ value, h, hnot => by
    obtain ⟨hk, hrest⟩ := List.forall_mem_append.1 hnot
    have := key.levels_eq 0 h.1 hk (.inl rfl)
    have := value.levels_eq 0 h.2 (List.forall_mem_cons.1 hrest).2 (.inl rfl)
    rw [Item.levels, Item.nesting]
    omega

theorem Items.levels_eq : (items : Items) → items.WellFormed →
    (∀ token ∈ items.tokens, token.kind ≠ .not) → items.levels = items.nesting
  | .nil, _, _ => rfl
  | .last item, h, hnot => item.levels_eq h hnot
  | .cons item _ rest, h, hnot => by
    obtain ⟨hi, hrest⟩ := List.forall_mem_append.1 hnot
    have := item.levels_eq h.1 hi
    have := rest.levels_eq h.2 (List.forall_mem_cons.1 hrest).2
    rw [Items.levels, Items.nesting]
    omega

end

/-! ## Plain phrases -/

/-- A phrase made of literals, round brackets around one phrase, and operators. -/
def Phrase.IsPlain : Phrase → Prop
  | .literal _ _ => True
  | .prefixed _ _ operand => operand.IsPlain
  | .joined left (.operator _) _ right => left.IsPlain ∧ right.IsPlain
  | .group _ inner _ => inner.IsPlain
  | .name _ | .joined _ (.logical _) _ _ | .display _ _ _ _ | .trailed _ _ => False

/-- What is accepted is plain. -/
theorem Phrase.isPlain_of_ofPhrase {text : List Char} : (phrase : Phrase) → (t : Tree) →
    Tree.ofPhrase text phrase = .ok t → phrase.IsPlain
  | .literal _ _, _, _ => trivial
  | .prefixed _ _ operand, _, h => by
    obtain ⟨a, ha, _⟩ := Tree.ofPhrase_prefixed_eq_ok_iff.1 h
    exact isPlain_of_ofPhrase operand a ha
  | .joined left (.operator _) _ right, _, h => by
    obtain ⟨a, b, ha, hb, _⟩ := Tree.ofPhrase_joined_eq_ok_iff.1 h
    exact ⟨isPlain_of_ofPhrase left a ha, isPlain_of_ofPhrase right b hb⟩
  | .group _ inner _, t, h => by
    rw [Tree.ofPhrase_group] at h
    exact isPlain_of_ofPhrase inner t h
  | .joined _ (.logical _) _ _, _, h => absurd h Tree.ofPhrase_logical_ne_ok
  | .name _, _, h => by cases h
  | .display _ _ _ _, _, h => by cases h
  | .trailed _ _, _, h => by cases h

/-- The tokens of plain phrases. -/
def Token.Kind.isPlain : Token.Kind → Bool
  | .literal _ | .operator _ | .tilde | .not | .opening .round | .closing .round => true
  | _ => false

theorem Phrase.isPlain_tokens : (phrase : Phrase) → phrase.IsPlain →
    ∀ token ∈ phrase.tokens, token.kind.isPlain
  | .literal _ _, _ => by simp [tokens, Token.Kind.isPlain]
  | .prefixed operator _ operand, h => by
    refine List.forall_mem_cons.2 ⟨?_, isPlain_tokens operand h⟩
    cases operator <;> rfl
  | .joined left (.operator _) _ right, h =>
    List.forall_mem_append.2 ⟨isPlain_tokens left h.1,
      List.forall_mem_cons.2 ⟨rfl, isPlain_tokens right h.2⟩⟩
  | .group _ inner _, h =>
    List.forall_mem_cons.2 ⟨rfl, List.forall_mem_append.2 ⟨isPlain_tokens inner h,
      List.forall_mem_singleton.2 rfl⟩⟩

/-! ### What follows an operand -/

/-- The tokens that can stand behind a complete operand. -/
def Token.Kind.followsOperand : Token.Kind → Bool
  | .literal _ | .name | .tilde | .not | .unknown => false
  | _ => true

/-- Only a point could continue a number, and no plain phrase has one. -/
theorem Token.Kind.not_continuesNumber {kind : Token.Kind} (hplain : kind.isPlain)
    (hfollows : kind.followsOperand) : ¬kind.continuesNumber := by
  cases kind <;> simp_all [isPlain, followsOperand, continuesNumber]

theorem Token.Kind.endsOperand_of_isNumber {kind : Token.Kind} (h : kind.isNumber) :
    kind.endsOperand := by
  cases kind <;> simp_all [isNumber, endsOperand]

namespace State

variable {state next : State} {token : Token}

theorem followsOperand_of_step {operand : Phrase} (hm : state.mode = .continuation operand)
    (h : state.step token = some next) : token.kind.followsOperand := by
  simp only [step, hm, stepContinuation] at h
  split at h <;> simp_all [Token.Kind.followsOperand]

theorem continuation_of_leave? {operand : Phrase} {bracket : Bracket} {closing : Span}
    (h : state.leave? operand bracket closing = some next) :
    ∃ operand, next.mode = .continuation operand := by
  unfold leave? at h
  split at h
  · cases h
  · split at h <;> cases h
    exact ⟨_, rfl⟩

theorem continuation_of_leaveEmpty? {bracket : Bracket} {closing : Span}
    (h : state.leaveEmpty? bracket closing = some next) :
    ∃ operand, next.mode = .continuation operand := by
  unfold leaveEmpty? at h
  split at h
  · split at h <;> cases h
    exact ⟨_, rfl⟩
  · cases h

/-- Behind a token that completes an operand, the machine waits for what can follow one. -/
theorem continuation_of_step (hk : token.kind.endsOperand) (h : state.step token = some next) :
    ∃ operand, next.mode = .continuation operand := by
  cases hkind : token.kind with
  | literal value | name =>
    simp only [step, stepOperand, stepContinuation, hkind] at h
    split at h <;> cases h
    all_goals exact ⟨_, rfl⟩
  | closing bracket =>
    simp only [step, stepOperand, stepContinuation, hkind] at h
    split at h
    · exact continuation_of_leaveEmpty? h
    · cases h
    · exact continuation_of_leave? h
  | _ =>
    rw [hkind] at hk
    cases hk

theorem isChain_run {last : State} {tokens : List Token} (h : state.run tokens = .ok last) :
    tokens.IsChain (fun token next => token.kind.endsOperand → next.kind.followsOperand) ∧
      ((∃ operand, state.mode = .continuation operand) →
        ∀ token ∈ tokens.head?, token.kind.followsOperand) := by
  induction tokens generalizing state with
  | nil => simp
  | cons token tokens ih =>
    rw [run] at h
    split at h
    · rename_i next hstep
      obtain ⟨hchain, hhead⟩ := ih h
      refine ⟨List.isChain_cons.2 ⟨fun token' htoken' hk => ?_, hchain⟩, ?_⟩
      · exact hhead (continuation_of_step hk hstep) token' htoken'
      · rintro ⟨operand, hm⟩ token' htoken'
        cases htoken'
        exact followsOperand_of_step hm hstep
    · cases h

end State

/-- Plain tokens are apart from each other where no word follows an operand. -/
theorem Token.apart_of_isPlain {tokens : List Token}
    (hfollows : tokens.IsChain fun token next => token.kind.endsOperand → next.kind.followsOperand)
    (hplain : ∀ token ∈ tokens, token.kind.isPlain) : tokens.IsChain Token.Apart := by
  refine hfollows.imp_of_mem_imp fun token next htoken hnext hfollows => ?_
  have hnext := hplain next hnext
  constructor
  · intro hnumber hcontinues
    exact absurd hcontinues (Token.Kind.not_continuesNumber hnext
      (hfollows (Token.Kind.endsOperand_of_isNumber hnumber)))
  · intro hk
    have htoken := hplain token htoken
    rw [hk] at htoken
    cases htoken

/-- The tokens of a plain phrase are apart from each other: no word or point follows an operand. -/
theorem Phrase.apart_of_isPlain {text : List Char} {phrase : Phrase}
    (h : Phrase.ofText text = .ok phrase) (hplain : phrase.IsPlain) :
    phrase.tokens.IsChain Token.Apart := by
  obtain ⟨last, hrun⟩ := Phrase.exists_run h
  have hall := phrase.isPlain_tokens hplain
  rw [tokens_ofTokens h] at hall ⊢
  exact Token.apart_of_isPlain (State.isChain_run hrun).1 hall

/-! ## The estimate for a text -/

/-- Every accepted text is one of a plain phrase, of which the tree is made, and its estimate is
    within the limit. -/
theorem exists_isPlain_of_parse {limits : Limits} {text : String} {t : Tree}
    (h : parse limits text = .ok t) :
    ∃ phrase, Phrase.ofText text.toList = .ok phrase ∧ phrase.IsPlain ∧
      Tree.ofPhrase text.toList phrase = .ok t ∧ Nesting.depth text.toList ≤ limits.maxDepth := by
  obtain ⟨_, hlimit, hunlimited⟩ := parse_eq_ok_iff_parseUnlimited.1 h
  obtain ⟨phrase, hphrase, htree⟩ := parseUnlimited_eq_ok_iff.1 hunlimited
  exact ⟨phrase, hphrase, Phrase.isPlain_of_ofPhrase phrase t htree, htree, hlimit⟩

/-- The estimate for the text of a plain phrase is the level that the phrase reaches. -/
theorem depth_of_isPlain {text : List Char} {phrase : Phrase}
    (h : Phrase.ofText text = .ok phrase) (hplain : phrase.IsPlain) :
    Nesting.depth text = phrase.levels 0 :=
  Nesting.depth_of_ofText h (Phrase.apart_of_isPlain h hplain)

/-- **The estimate never exceeds the real nesting**, and without `not` it is the real nesting: for
    every text of a plain phrase, wherever white space stands in it. So no such text is refused as
    too deep if its nesting is within the limit. -/
theorem depth_le_nesting {text : String} {phrase : Phrase}
    (hphrase : Phrase.ofText text.toList = .ok phrase) (hplain : phrase.IsPlain) :
    Nesting.depth text.toList ≤ phrase.nesting ∧
      ((∀ token ∈ phrase.tokens, token.kind ≠ .not) →
        Nesting.depth text.toList = phrase.nesting) ∧
      ∀ limits : Limits, phrase.nesting ≤ limits.maxDepth →
        ∀ limit, parse limits text ≠ .error (.tooDeep limit) := by
  have hdepth := depth_of_isPlain hphrase hplain
  have hle := phrase.levels_le 0
  refine ⟨by omega, fun hnot => ?_, fun limits hlimit limit => ?_⟩
  · have heq := phrase.levels_eq 0 (Phrase.wellFormed_ofTokens hphrase) hnot (.inl rfl)
    omega
  · exact parse_ne_tooDeep limit (by omega)

/-- A sign in a bracket before `**`; the brackets between quotes do not count. -/
theorem depth_le_nesting_signed_base :
    Nesting.depth "( -2) **'[('".toList = 2 ∧
      parse { maxDepth := 2 } "( -2) **'[('" ≠ .error (.tooDeep 2) := by
  have hphrase : Phrase.ofText "( -2) **'[('".toList =
      .ok (.joined
        (.group ⟨0, 1⟩ (.prefixed .minus ⟨2, 3⟩ (.literal (.integer 2) ⟨3, 4⟩)) ⟨4, 5⟩)
        (.operator .power) ⟨6, 8⟩ (.literal (.text "[(") ⟨8, 12⟩)) := by
    with_unfolding_all rfl
  obtain ⟨-, hdepth, hlimit⟩ := depth_le_nesting hphrase ⟨trivial, trivial⟩
  exact ⟨hdepth (by decide), hlimit _ (by decide) 2⟩

end Calculator
