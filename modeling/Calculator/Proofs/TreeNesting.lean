import Calculator.Proofs.RealNesting

/-!
# Accepted trees against the greatest depth

A level of recursion is taken for each operator before an operand and for each exponent of `**`. The
pass over the text counts them in chains, and an operator that gathers operands from the left ends a
chain. That is right for the signs of its left operand, which hold together more strongly; but it
ends the chain of a `not` before it as well, although `not` then stands over the whole operation.
So the greatest depth bounds the nesting of the trees in which no `not` stands over such an
operation, and of no others.

* `Tree.nesting`: the levels of recursion on the deepest path of a tree.
* `Tree.levels`: what the pass counts at least for a tree.
* `Tree.NotsApart`: no `not` stands over an operation that gathers operands from the left.

Results:
* `Phrase.tree_levels_le`: the pass counts that much for the phrase of a tree.
* `nesting_le_of_parse`: the bound, and `exists_deeper_than_limit` where it fails.
-/

namespace Calculator

namespace Tree

/-! ## Nesting -/

/-- The greatest number, along a path from the root of a tree to a leaf, of operators before an
    operand and of steps into an exponent. -/
def nesting : Tree → Nat
  | .constant _ => 0
  | .unary _ operand => 1 + operand.nesting
  | .binary base .power exponent => max base.nesting (1 + exponent.nesting)
  | .binary left _ right => max left.nesting right.nesting

/-- Operations that gather operands from the left. -/
def IsGathered : Tree → Prop
  | .binary _ operator _ => operator ≠ .power
  | _ => False

/-- No `not` stands over an operation that gathers operands from the left. -/
def NotsApart : Tree → Prop
  | .constant _ => True
  | .unary operator operand => (operator = .not → ¬operand.IsGathered) ∧ operand.NotsApart
  | .binary left _ right => left.NotsApart ∧ right.NotsApart

/-- The levels that the pass counts at least for a tree behind a chain. The chain goes on to the
    first operand of what gathers operands from the left, and ends there. -/
def levels : Tree → Nat → Nat
  | .constant _, chain => chain
  | .unary .not operand, chain => operand.levels (chain + 1)
  | .unary _ operand, chain => chain + 1 + operand.levels 0
  | .binary base .power exponent, chain => chain + max (base.levels 0) (1 + exponent.levels 0)
  | .binary left _ right, chain => max (left.levels chain) (right.levels 0)

variable {left right operand : Tree} {chain : Nat}

theorem nesting_gathered {operator : Operator} (h : operator ≠ .power) :
    (binary left operator right).nesting = max left.nesting right.nesting := by
  rw [nesting]
  exact h

theorem levels_gathered {operator : Operator} (h : operator ≠ .power) :
    (binary left operator right).levels chain = max (left.levels chain) (right.levels 0) := by
  rw [levels]
  exact h

theorem levels_sign {operator : UnaryOperator} (h : operator ≠ .not) :
    (unary operator operand).levels chain = chain + 1 + operand.levels 0 := by
  rw [levels]
  exact h

/-- A chain counts at most once. -/
theorem levels_add_le (t : Tree) (front chain : Nat) :
    t.levels (front + chain) ≤ front + t.levels chain := by
  induction t generalizing chain with
  | constant c => exact Nat.le_refl _
  | unary operator operand ih =>
    by_cases hnot : operator = .not
    · subst hnot
      exact ih (chain + 1)
    · rw [levels_sign hnot, levels_sign hnot]
      omega
  | binary left operator right ihl ihr =>
    by_cases hpower : operator = .power
    · subst hpower
      simp only [levels]
      omega
    · have := ihl chain
      rw [levels_gathered hpower, levels_gathered hpower]
      omega

/-- Where no `not` stands over what gathers operands from the left, all of the nesting is
    counted. -/
theorem levels_eq (t : Tree) (chain : Nat) (h : t.NotsApart) (hchain : chain = 0 ∨ ¬t.IsGathered) :
    t.levels chain = chain + t.nesting := by
  induction t generalizing chain with
  | constant c => rfl
  | unary operator operand ih =>
    obtain ⟨hnot, ho⟩ := h
    by_cases hoperator : operator = .not
    · subst hoperator
      have := ih (chain + 1) ho (.inr (hnot rfl))
      rw [levels, nesting]
      omega
    · have := ih 0 ho (.inl rfl)
      rw [levels_sign hoperator, nesting]
      omega
  | binary left operator right ihl ihr =>
    have := ihl 0 h.1 (.inl rfl)
    have := ihr 0 h.2 (.inl rfl)
    by_cases hpower : operator = .power
    · subst hpower
      rw [levels, nesting]
      omega
    · -- the operation gathers operands from the left, so no chain stands before it
      obtain rfl : chain = 0 := hchain.resolve_right fun h => h hpower
      rw [levels_gathered hpower, nesting_gathered hpower]
      omega

end Tree

/-! ## Phrases and their trees -/

/-- The pass counts for a phrase what it counts at least for its tree; and a factor is counted in
    full behind every chain. -/
theorem Phrase.tree_levels_le {text : List Char} : (phrase : Phrase) → (t : Tree) →
    phrase.WellFormed → Tree.ofPhrase text phrase = .ok t → (chain : Nat) →
    t.levels chain ≤ phrase.levels chain ∧
      (7 ≤ phrase.strength → chain + t.levels 0 ≤ phrase.levels chain)
  | .literal value span, t, _, h, chain => by
    obtain ⟨constant, _, rfl⟩ := Tree.ofPhrase_literal_eq_ok_iff.1 h
    exact ⟨Nat.le_refl _, fun _ => Nat.le_refl _⟩
  | .prefixed operator mark operand, t, hw, h, chain => by
    obtain ⟨a, ha, rfl⟩ := Tree.ofPhrase_prefixed_eq_ok_iff.1 h
    obtain ⟨hle, hfactor⟩ := operand.tree_levels_le a hw.1 ha (chain + 1)
    rw [Phrase.levels]
    by_cases hnot : operator = .not
    · subst hnot
      refine ⟨hle, fun hstrong => ?_⟩
      have hstrong : 7 ≤ 2 := hstrong
      omega
    · have hstrength := UnaryOperator.strength_eq_seven hnot
      have hweak := hw.2
      have := hfactor (by omega)
      rw [Tree.levels_sign hnot, Tree.levels_sign hnot]
      omega
  | .joined left (.operator operator) mark right, t, hw, h, chain => by
    obtain ⟨a, b, ha, hb, rfl⟩ := Tree.ofPhrase_joined_eq_ok_iff.1 h
    obtain ⟨⟨hlw, hls⟩, hrw, hrs⟩ := hw
    obtain ⟨hle, hfactor⟩ := left.tree_levels_le a hlw ha chain
    rw [Phrase.levels]
    by_cases hpower : operator = .power
    · subst hpower
      have hcomplete : 9 ≤ left.strength := hls
      have hexponent : 7 ≤ right.strength := hrs
      have := hfactor (by omega)
      have := (right.tree_levels_le b hrw hb (chain + 1)).2 hexponent
      simp only [Tree.levels, Connector.carry]
      omega
    · have hcarry := Connector.carry_of_ne_power (fun heq : Connector.operator operator =
        .operator .power => hpower (Connector.operator.inj heq)) chain
      have := (right.tree_levels_le b hrw hb 0).1
      rw [hcarry, Tree.levels_gathered hpower]
      refine ⟨by omega, fun hstrong => ?_⟩
      have hstrong : 7 ≤ operator.strength := hstrong
      cases operator with
      | power => exact absurd rfl hpower
      | _ => simp [Operator.strength] at hstrong
  | .group opening inner closing, t, hw, h, chain => by
    rw [Tree.ofPhrase_group] at h
    have := (inner.tree_levels_le t hw h 0).1
    have hadd := t.levels_add_le chain 0
    rw [Nat.add_zero] at hadd
    rw [Phrase.levels]
    omega
  | .joined _ (.logical _) _ _, _, _, h, _ => absurd h Tree.ofPhrase_logical_ne_ok
  | .name _, _, _, h, _ => by cases h
  | .display _ _ _ _, _, _, h, _ => by cases h
  | .trailed _ _, _, _, h, _ => by cases h

/-! ## Accepted texts -/

/-- **The greatest depth against the nesting of accepted trees.** What the pass counts at least for
    an accepted tree is within the limit, and so is its nesting if no `not` stands over an operation
    that gathers operands from the left. -/
theorem nesting_le_of_parse {limits : Limits} {text : String} {t : Tree}
    (h : parse limits text = .ok t) :
    t.levels 0 ≤ limits.maxDepth ∧ (t.NotsApart → t.nesting ≤ limits.maxDepth) := by
  obtain ⟨phrase, hphrase, hplain, htree, hlimit⟩ := exists_isPlain_of_parse h
  have hdepth := depth_of_isPlain hphrase hplain
  have hle := (phrase.tree_levels_le t (Phrase.wellFormed_ofTokens hphrase) htree 0).1
  refine ⟨by omega, fun hapart => ?_⟩
  have := t.levels_eq 0 hapart (.inl rfl)
  omega

/-- Two `not` before a power with a sign in its exponent. -/
theorem nesting_le_of_parse_nots :
    ∃ t, parse { maxDepth := 4 } "not not 2 ** -3" = .ok t ∧ t.nesting = 4 ∧ t.nesting ≤ 4 := by
  have h : parse { maxDepth := 4 } "not not 2 ** -3" =
      .ok (.unary .not (.unary .not (.binary (.constant (.integer 2)) .power
        (.unary .minus (.constant (.integer 3)))))) := by
    with_unfolding_all rfl
  refine ⟨_, h, rfl, (nesting_le_of_parse h).2 ?_⟩
  simp [Tree.NotsApart, Tree.IsGathered]

/-- A tree may nest more deeply than the limit where `not` stands over a sum, which ends the chain
    of the `not`. -/
theorem exists_deeper_than_limit :
    ∃ t, parse { maxDepth := 1 } "not 1 + -1" = .ok t ∧ ¬t.nesting ≤ 1 :=
  ⟨.unary .not (.binary (.constant (.integer 1)) .add (.unary .minus (.constant (.integer 1)))),
    by with_unfolding_all rfl, by decide⟩

end Calculator
