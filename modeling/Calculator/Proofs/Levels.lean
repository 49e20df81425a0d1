import Calculator.Evaluator
import Calculator.Proofs.Pieces
import Calculator.Proofs.Reading

/-!
# How deep the nesting pass finds a phrase

The tokens of a phrase lead the pass from a chain of some length inside an open bracket to another
chain inside the same bracket. How deep it gets on the way is a matter of the phrase alone.

* `Phrase.levels`: the deepest level inside the innermost open bracket that a phrase reaches.
* `Phrase.Reaches`: a phrase whose tokens lead there.

Results:
* `Phrase.reaches`: so do the tokens of every well-formed phrase.
* `Nesting.depth_of_ofText`: the estimate for a text whose tokens are apart from each other is the
  level that its phrase reaches.
-/

namespace Calculator

open Nesting

/-! ## Levels -/

/-- The length of a chain behind a connector: `**` makes it longer, and every other connector begins
    a new one. -/
def Connector.carry (chain : Nat) : Connector → Nat
  | .operator .power => chain + 1
  | _ => 0

theorem Connector.carry_of_ne_power {connector : Connector} (h : connector ≠ .operator .power)
    (chain : Nat) : connector.carry chain = 0 := by
  unfold carry
  split
  · exact absurd rfl h
  · rfl

mutual

/-- The deepest level that a phrase reaches inside the innermost open bracket, behind a chain of
    some length. -/
def Phrase.levels : Phrase → Nat → Nat
  | .literal _ _, chain | .name _, chain => chain
  | .prefixed _ _ operand, chain => operand.levels (chain + 1)
  | .joined left connector _ right, chain =>
    max (left.levels chain) (right.levels (connector.carry chain))
  | .group _ inner _, chain => chain + 1 + inner.levels 0
  | .display _ _ items _, chain => chain + 1 + items.levels
  | .trailed target trailer, chain => max (target.levels chain) (trailer.levels chain)

/-- The deepest level in a trailer. -/
def Trailer.levels : Trailer → Nat → Nat
  | .attribute _ _, chain => chain
  | .call _ items _, chain | .subscript _ items _, chain => chain + 1 + items.levels

/-- The deepest level in an item, inside its bracket. -/
def Item.levels : Item → Nat
  | .plain value | .named _ _ value => value.levels 0
  | .keyed key _ value => max (key.levels 0) (value.levels 0)

/-- The deepest level in what stands between brackets. -/
def Items.levels : Items → Nat
  | .nil => 0
  | .last item => item.levels
  | .cons item _ rest => max item.levels rest.levels

end

/-- A chain is a level of the phrase behind it. -/
theorem Phrase.le_levels : (phrase : Phrase) → (chain : Nat) → chain ≤ phrase.levels chain
  | .literal _ _, chain | .name _, chain => Nat.le_refl chain
  | .prefixed _ _ operand, chain => by
    have := operand.le_levels (chain + 1)
    rw [levels]
    omega
  | .joined left _ _ _, chain => by
    have := left.le_levels chain
    rw [levels]
    omega
  | .group _ inner _, chain => by
    rw [levels]
    omega
  | .display _ _ items _, chain => by
    rw [levels]
    omega
  | .trailed target _, chain => by
    have := target.le_levels chain
    rw [levels]
    omega

/-! ## Single tokens -/

namespace Nesting.Count

variable {brackets enclosing chain deepest : Nat} {outer : List Nat} {afterOperand : Bool}
  {token : Token}

/-- A count inside an open bracket whose chain is `chain` long, with `enclosing` the total of the
    chains outside of it. -/
def inside (brackets : Nat) (outer : List Nat) (enclosing chain : Nat) (afterOperand : Bool)
    (deepest : Nat) : Count :=
  ⟨brackets, chain :: outer, enclosing + chain, afterOperand, deepest⟩

theorem readTokens_append (count : Count) (front back : List Token) :
    count.readTokens (front ++ back) = (count.readTokens front).readTokens back :=
  List.foldl_append

theorem readTokens_cons (count : Count) (token : Token) (tokens : List Token) :
    count.readTokens (token :: tokens) = (count.readToken token).readTokens tokens := rfl

theorem readToken_operand (hk : Piece.ofKind token.kind = .operand) :
    (inside brackets outer enclosing chain afterOperand deepest).readToken token =
      inside brackets outer enclosing chain true (max deepest (brackets + enclosing + chain)) := by
  rw [readToken, hk, Nat.add_assoc]
  rfl

/-- One more level in the chain. -/
theorem readToken_link (hk : Piece.ofKind token.kind = .power ∨ Piece.ofKind token.kind = .not ∨
      Piece.ofKind token.kind = .sign ∧ afterOperand = false) :
    (inside brackets outer enclosing chain afterOperand deepest).readToken token =
      inside brackets outer enclosing (chain + 1) false
        (max deepest (brackets + enclosing + (chain + 1))) := by
  rw [readToken, Nat.add_assoc]
  rcases hk with hk | hk | ⟨hk, rfl⟩ <;> rw [hk] <;> rfl

/-- A new chain. -/
theorem readToken_reset (hk : Piece.ofKind token.kind = .connective ∨
      Piece.ofKind token.kind = .other ∨ Piece.ofKind token.kind = .sign ∧ afterOperand = true) :
    (inside brackets outer enclosing chain afterOperand deepest).readToken token =
      inside brackets outer enclosing 0 false (max deepest (brackets + enclosing)) := by
  have hmove : (inside brackets outer enclosing chain afterOperand deepest).reset =
      inside brackets outer enclosing 0 false deepest := by
    simp [inside, reset]
  rw [readToken]
  rcases hk with hk | hk | ⟨hk, rfl⟩ <;> rw [hk] <;> simp only [step, move, hmove] <;> rfl

theorem readToken_opening {bracket : Bracket} {span : Span} :
    (inside brackets outer enclosing chain afterOperand deepest).readToken
        ⟨.opening bracket, span⟩ =
      inside (brackets + 1) (chain :: outer) (enclosing + chain) 0 false
        (max deepest (brackets + enclosing + (chain + 1))) := by
  have hlevel : brackets + 1 + (enclosing + chain) = brackets + enclosing + (chain + 1) := by omega
  rw [← hlevel]
  rfl

theorem readToken_closing {bracket : Bracket} {span : Span} {inner : Nat} :
    (inside (brackets + 1) (chain :: outer) (enclosing + chain) inner afterOperand
        deepest).readToken ⟨.closing bracket, span⟩ =
      inside brackets outer enclosing chain true (max deepest (brackets + enclosing + chain)) := by
  have htotal : enclosing + chain + inner - inner = enclosing + chain := by omega
  simp only [readToken, Piece.ofKind, step, move, inside, leave, htotal, Nat.add_sub_cancel, depth]
  rw [Nat.add_assoc]

end Nesting.Count

/-! ## Phrases -/

open Count

/-- The tokens of a phrase lead from a chain to a chain that is a level of the phrase, and to the
    same one if the phrase is complete. -/
def Phrase.Reaches (phrase : Phrase) : Prop :=
  ∀ (brackets enclosing chain deepest : Nat) (outer : List Nat),
    brackets + enclosing + chain ≤ deepest →
    ∃ last, last ≤ phrase.levels chain ∧ (9 ≤ phrase.strength → last = chain) ∧
      (inside brackets outer enclosing chain false deepest).readTokens phrase.tokens =
        inside brackets outer enclosing last true
          (max deepest (brackets + enclosing + phrase.levels chain))

/-- The tokens of a trailer lead back to the chain in front of it. -/
def Trailer.Reaches (trailer : Trailer) : Prop :=
  ∀ (brackets enclosing chain deepest : Nat) (outer : List Nat),
    brackets + enclosing + chain ≤ deepest →
    (inside brackets outer enclosing chain true deepest).readTokens trailer.tokens =
      inside brackets outer enclosing chain true
        (max deepest (brackets + enclosing + trailer.levels chain))

/-- Tokens that can stand between two brackets, and the deepest level that they reach there. -/
def Nesting.Fills (tokens : List Token) (levels : Nat) : Prop :=
  ∀ (brackets enclosing deepest : Nat) (outer : List Nat), brackets + enclosing ≤ deepest →
    ∃ last afterOperand, (inside brackets outer enclosing 0 false deepest).readTokens tokens =
      inside brackets outer enclosing last afterOperand
        (max deepest (brackets + enclosing + levels))

namespace Phrase

theorem reaches_operand {phrase : Phrase} {token : Token} (htokens : phrase.tokens = [token])
    (hk : Piece.ofKind token.kind = .operand) (hlevels : ∀ chain, phrase.levels chain = chain) :
    phrase.Reaches := by
  intro brackets enclosing chain deepest outer _
  refine ⟨chain, phrase.le_levels chain, fun _ => rfl, ?_⟩
  rw [htokens, hlevels, readTokens_cons, readToken_operand hk]
  rfl

theorem reaches_prefixed {operator : UnaryOperator} {mark : Span} {operand : Phrase}
    (ho : operand.Reaches) : (prefixed operator mark operand).Reaches := by
  intro brackets enclosing chain deepest outer hdeepest
  have hlink : Piece.ofKind operator.kind = .power ∨ Piece.ofKind operator.kind = .not ∨
      Piece.ofKind operator.kind = .sign ∧ false = false := by
    cases operator <;> simp [UnaryOperator.kind, Piece.ofKind]
  obtain ⟨last, hlast, _, hread⟩ := ho brackets enclosing (chain + 1)
    (max deepest (brackets + enclosing + (chain + 1))) outer (by omega)
  refine ⟨last, hlast, fun h => ?_, ?_⟩
  · have := operator.strength_le
    simp only [strength] at h
    omega
  · have hlevels := operand.le_levels (chain + 1)
    have hmax : max (max deepest (brackets + enclosing + (chain + 1)))
        (brackets + enclosing + operand.levels (chain + 1)) =
        max deepest (brackets + enclosing + operand.levels (chain + 1)) := by omega
    rw [tokens, readTokens_cons, readToken_link hlink, hread, hmax, levels]

/-- A connector makes the chain longer or begins a new one. -/
theorem readToken_connector {connector : Connector} {mark : Span}
    {brackets enclosing chain deepest : Nat} {outer : List Nat} :
    (inside brackets outer enclosing chain true deepest).readToken ⟨connector.kind, mark⟩ =
      inside brackets outer enclosing (connector.carry chain) false
        (max deepest (brackets + enclosing + connector.carry chain)) := by
  by_cases hpower : connector = .operator .power
  · subst hpower
    exact readToken_link (.inl rfl)
  · rw [Connector.carry_of_ne_power hpower]
    refine readToken_reset ?_
    rcases connector with operator | connective
    · cases operator <;> simp_all [Connector.kind, Piece.ofKind]
    · cases connective <;> simp [Connector.kind, Piece.ofKind]

theorem reaches_joined {left right : Phrase} {connector : Connector} {mark : Span}
    (hl : left.Reaches) (hr : right.Reaches) (hcl : connector.closes ≤ left.strength) :
    (joined left connector mark right).Reaches := by
  intro brackets enclosing chain deepest outer hdeepest
  obtain ⟨middle, _, hcomplete, hleft⟩ := hl brackets enclosing chain deepest outer hdeepest
  -- only `**` looks at the chain, and only a complete operand stands before it
  have hcarry : connector.carry middle = connector.carry chain := by
    by_cases hpower : connector = .operator .power
    · subst hpower
      rw [hcomplete hcl]
    · rw [Connector.carry_of_ne_power hpower, Connector.carry_of_ne_power hpower]
  obtain ⟨last, hlast, _, hright⟩ := hr brackets enclosing (connector.carry chain)
    (max (max deepest (brackets + enclosing + left.levels chain))
      (brackets + enclosing + connector.carry chain)) outer (by omega)
  refine ⟨last, ?_, fun h => ?_, ?_⟩
  · rw [levels]
    omega
  · have := connector.strength_le
    simp only [strength] at h
    omega
  · have hlevels := right.le_levels (connector.carry chain)
    have hmax : max (max (max deepest (brackets + enclosing + left.levels chain))
          (brackets + enclosing + connector.carry chain))
          (brackets + enclosing + right.levels (connector.carry chain)) =
        max deepest (brackets + enclosing +
          max (left.levels chain) (right.levels (connector.carry chain))) := by omega
    rw [tokens, readTokens_append, hleft, readTokens_cons, readToken_connector, hcarry,
      hright, hmax, levels]

end Phrase

/-! ## Brackets -/

namespace Nesting.Fills

variable {tokens others : List Token} {levels more : Nat}

theorem nil : Fills [] 0 := by
  intro brackets enclosing deepest outer hdeepest
  have hmax : max deepest (brackets + enclosing + 0) = deepest := by omega
  exact ⟨0, false, by rw [hmax]; rfl⟩

theorem phrase {phrase : Phrase} (h : phrase.Reaches) : Fills phrase.tokens (phrase.levels 0) := by
  intro brackets enclosing deepest outer hdeepest
  obtain ⟨last, _, _, hread⟩ := h brackets enclosing 0 deepest outer hdeepest
  exact ⟨last, true, hread⟩

/-- A separator begins a new chain. -/
theorem append {separator : Token} (ht : Fills tokens levels)
    (hs : Piece.ofKind separator.kind = .other) (ho : Fills others more) :
    Fills (tokens ++ separator :: others) (max levels more) := by
  intro brackets enclosing deepest outer hdeepest
  obtain ⟨middle, afterOperand, hfirst⟩ := ht brackets enclosing deepest outer hdeepest
  obtain ⟨last, afterOperand', hsecond⟩ := ho brackets enclosing
    (max (max deepest (brackets + enclosing + levels)) (brackets + enclosing)) outer (by omega)
  have hmax : max (max (max deepest (brackets + enclosing + levels)) (brackets + enclosing))
      (brackets + enclosing + more) = max deepest (brackets + enclosing + max levels more) := by
    omega
  refine ⟨last, afterOperand', ?_⟩
  rw [readTokens_append, hfirst, readTokens_cons, readToken_reset (.inr (.inl hs)), hsecond, hmax]

theorem named {label equals : Span} {value : Phrase} (h : value.Reaches) :
    Fills (Item.named label equals value).tokens (value.levels 0) := by
  have hlabel : (Phrase.name label).Reaches := Phrase.reaches_operand rfl rfl fun _ => rfl
  have hitem : Fills ([⟨.name, label⟩] ++ ⟨.equals, equals⟩ :: value.tokens)
      (max 0 (value.levels 0)) := (phrase hlabel).append rfl (phrase h)
  rwa [Nat.zero_max] at hitem

/-- Two brackets are one level more than what stands between them, and lead back to the chain in
    front of them. -/
theorem enclosed (h : Fills tokens levels) {bracket : Bracket} {opening closing : Span}
    {brackets enclosing chain deepest : Nat} {outer : List Nat} {afterOperand : Bool} :
    (inside brackets outer enclosing chain afterOperand deepest).readTokens
        (⟨.opening bracket, opening⟩ :: (tokens ++ [⟨.closing bracket, closing⟩])) =
      inside brackets outer enclosing chain true
        (max deepest (brackets + enclosing + (chain + 1 + levels))) := by
  obtain ⟨last, afterOperand', hread⟩ := h (brackets + 1) (enclosing + chain)
    (max deepest (brackets + enclosing + (chain + 1))) (chain :: outer) (by omega)
  have hmax : max (max (max deepest (brackets + enclosing + (chain + 1)))
        (brackets + 1 + (enclosing + chain) + levels)) (brackets + enclosing + chain) =
      max deepest (brackets + enclosing + (chain + 1 + levels)) := by omega
  rw [readTokens_cons, readToken_opening, readTokens_append, hread]
  exact readToken_closing.trans (by rw [hmax])

end Nesting.Fills

theorem Phrase.reaches_group {opening closing : Span} {inner : Phrase} (hi : inner.Reaches) :
    (group opening inner closing).Reaches := by
  intro brackets enclosing chain deepest outer _
  refine ⟨chain, le_levels _ chain, fun _ => rfl, ?_⟩
  rw [tokens, (Fills.phrase hi).enclosed, levels]

theorem Phrase.reaches_display {bracket : Bracket} {opening closing : Span} {items : Items}
    (hi : Fills items.tokens items.levels) : (display bracket opening items closing).Reaches := by
  intro brackets enclosing chain deepest outer _
  refine ⟨chain, le_levels _ chain, fun _ => rfl, ?_⟩
  rw [tokens, hi.enclosed, levels]

theorem Trailer.reaches_attribute {dot label : Span} : (Trailer.attribute dot label).Reaches := by
  intro brackets enclosing chain deepest outer hdeepest
  have hdot : (inside brackets outer enclosing chain true deepest).readToken ⟨.dot, dot⟩ =
      inside brackets outer enclosing chain false
        (max deepest (brackets + enclosing + chain)) := by
    rw [Nat.add_assoc]
    rfl
  have hmax : max (max deepest (brackets + enclosing + chain)) (brackets + enclosing + chain) =
      max deepest (brackets + enclosing + chain) := by omega
  rw [tokens, readTokens_cons, hdot, readTokens_cons, readToken_operand rfl, hmax, levels]
  rfl

theorem Phrase.reaches_trailed {target : Phrase} {trailer : Trailer} (ht : target.Reaches)
    (hc : 9 ≤ target.strength) (hr : trailer.Reaches) : (trailed target trailer).Reaches := by
  intro brackets enclosing chain deepest outer hdeepest
  obtain ⟨last, _, hcomplete, hread⟩ := ht brackets enclosing chain deepest outer hdeepest
  obtain rfl := hcomplete hc
  have hmax : max (max deepest (brackets + enclosing + target.levels last))
      (brackets + enclosing + trailer.levels last) =
      max deepest (brackets + enclosing + max (target.levels last) (trailer.levels last)) := by
    omega
  refine ⟨last, le_levels _ last, fun _ => rfl, ?_⟩
  rw [tokens, readTokens_append, hread, hr _ _ _ _ _ (by omega), hmax, levels]

/-! ## All phrases -/

mutual

/-- The tokens of every well-formed phrase lead from chain to chain. -/
theorem Phrase.reaches : (phrase : Phrase) → phrase.WellFormed → phrase.Reaches
  | .literal _ _, _ | .name _, _ => Phrase.reaches_operand rfl rfl fun _ => rfl
  | .prefixed _ _ operand, h => Phrase.reaches_prefixed (operand.reaches h.1)
  | .joined left _ _ right, h =>
    Phrase.reaches_joined (left.reaches h.1.1) (right.reaches h.2.1) h.1.2
  | .group _ inner _, h => Phrase.reaches_group (inner.reaches h)
  | .display _ _ items _, h => Phrase.reaches_display (items.fills h.1)
  | .trailed target trailer, h =>
    Phrase.reaches_trailed (target.reaches h.1.1) h.1.2 (trailer.reaches h.2)

theorem Trailer.reaches : (trailer : Trailer) → trailer.WellFormed → trailer.Reaches
  | .attribute _ _, _ => Trailer.reaches_attribute
  | .call _ arguments _, h => fun _ _ _ _ _ _ => (arguments.fills h.1).enclosed
  | .subscript _ indices _, h => fun _ _ _ _ _ _ => (indices.fills h.1).enclosed

theorem Item.fills : (item : Item) → item.WellFormed → Fills item.tokens item.levels
  | .plain value, h => .phrase (value.reaches h)
  | .named _ _ value, h => .named (value.reaches h)
  | .keyed key _ value, h => .append (.phrase (key.reaches h.1)) rfl (.phrase (value.reaches h.2))

theorem Items.fills : (items : Items) → items.WellFormed → Fills items.tokens items.levels
  | .nil, _ => .nil
  | .last item, h => item.fills h
  | .cons item _ rest, h => .append (item.fills h.1) rfl (rest.fills h.2)

end

/-! ## Texts -/

/-- No token of a run is unknown. -/
theorem State.known_of_run {state last : State} {tokens : List Token}
    (h : state.run tokens = .ok last) : ∀ token ∈ tokens, token.kind ≠ .unknown := by
  induction tokens generalizing state with
  | nil => simp
  | cons token tokens ih =>
    rw [run] at h
    split at h
    · rename_i next hstep
      refine List.forall_mem_cons.2 ⟨fun hk => ?_, ih h⟩
      simp only [step, stepOperand, stepContinuation, hk] at hstep
      split at hstep <;> cases hstep
    · cases h

/-- The tokens of a text that is a phrase make the machine run to its end. -/
theorem Phrase.exists_run {tokens : List Token} {stop : Nat} {phrase : Phrase}
    (h : Phrase.ofTokens tokens stop = .ok phrase) :
    ∃ last, State.initial.run tokens = .ok last := by
  unfold ofTokens at h
  split at h
  · cases h
  · rename_i last hrun
    exact ⟨last, hrun⟩

/-- The tokens of a phrase lead a count from the beginning to the level of the phrase. -/
theorem Phrase.deepest_readTokens {phrase : Phrase} (h : phrase.WellFormed) :
    (Count.initial.readTokens phrase.tokens).deepest = phrase.levels 0 := by
  obtain ⟨chain, _, _, hread⟩ := phrase.reaches h 0 0 0 0 [] (Nat.le_refl 0)
  have hinitial : Count.initial = inside 0 [] 0 0 false 0 := rfl
  rw [hinitial, hread]
  simp [inside]

/-- **The estimate is the level that the phrase reaches**, if the tokens of the text are apart from
    each other. -/
theorem Nesting.depth_of_ofText {text : List Char} {phrase : Phrase}
    (h : Phrase.ofText text = .ok phrase) (hapart : phrase.tokens.IsChain Token.Apart) :
    Nesting.depth text = phrase.levels 0 := by
  obtain ⟨hwell, htokens⟩ := Phrase.ofTokens_eq_ok_iff.1 h
  obtain ⟨last, hrun⟩ := Phrase.exists_run h
  rw [htokens] at hapart
  have hpass : run .initial text = Count.initial.readTokens phrase.tokens := by
    rw [htokens]
    exact run_of_scan settled_initial rfl (State.known_of_run hrun) hapart
  rw [depth, hpass, Phrase.deepest_readTokens hwell]

end Calculator
