import Calculator.Proofs.Enclosed
import Calculator.Proofs.Levels
import Calculator.Proofs.Shift

/-!
# Operators between texts

Texts in round brackets with an operator between or before them are parsed one by one: the tree of
the whole is made of their trees, and its refusal is the first of theirs, with the same wording.
This holds of all texts that are expressions, accepted or not.

* `Text.joined`, `Text.prefixed`: texts in brackets with an operator.
* `Phrase.enclosed`: the group that a phrase in brackets is.
* `Limits.Admit`: limits that do not matter for a text.

Results:
* `parseUnlimited_joined`, `parseUnlimited_prefixed`: what such texts are parsed to.
* `parse_composed`: the same with limits, and the values.
-/

namespace Calculator

/-! ## Limits that do not matter -/

namespace Nesting

namespace Count

theorem depth_move_le (count : Count) (piece : Piece) :
    (count.move piece).depth ≤ count.depth + 1 ∧ (count.move piece).deepest = count.deepest := by
  rcases count with ⟨brackets, chains, chained, afterOperand, deepest⟩
  cases piece <;> rcases chains with _ | ⟨chain, _ | ⟨enclosing, outer⟩⟩ <;> cases afterOperand <;>
    simp [move, enter, leave, link, reset, depth] <;> omega

end Count

/-- Each piece is one level at most. -/
theorem deepest_run_le (count : Count) (cs : List Char) :
    (run count cs).deepest ≤ max count.deepest (count.depth + cs.length) := by
  fun_induction run count cs with
  | case1 count => exact Nat.le_max_left _ _
  | case2 count c cs piece width hnext ih =>
    obtain ⟨hdepth, hdeepest⟩ := count.depth_move_le piece
    have hstep : (count.step piece).depth = (count.move piece).depth := rfl
    have hmax : (count.step piece).deepest = max count.deepest (count.move piece).depth := by
      rw [← hdeepest]
      rfl
    rw [hstep, hmax, List.length_drop] at ih
    rw [List.length_cons]
    omega

/-- No text nests more deeply than it is long. -/
theorem depth_le_length (text : List Char) : depth text ≤ text.length := by
  have hinitial : Count.initial.deepest = 0 ∧ Count.initial.depth = 0 := ⟨rfl, rfl⟩
  have := deepest_run_le .initial text
  rw [depth]
  omega

end Nesting

/-- Limits that are not below the length of a text, which has no greater depth. -/
def Limits.Admit (limits : Limits) (text : String) : Prop :=
  text.toList.length ≤ limits.maxLength ∧ text.toList.length ≤ limits.maxDepth

theorem parse_eq_parseUnlimited {limits : Limits} {text : String} (h : limits.Admit text) :
    parse limits text = parseUnlimited text.toList := by
  exact parse_eq_of_le h.1 ((Nesting.depth_le_length text.toList).trans h.2)

/-! ## Brackets around texts -/

/-- The group of a phrase whose text, so many characters long, stands in brackets at `point`. -/
def Phrase.enclosed (point length : Nat) (phrase : Phrase) : Phrase :=
  .group ⟨point, point + 1⟩ (phrase.shift (point + 1))
    ⟨point + 1 + length, point + 1 + length + 1⟩

section

variable {text : List Char} {phrase : Phrase}

/-- The tokens of a text in brackets. -/
theorem Token.scan_enclosed (afterOperand : Bool) (point : Nat) (rest : List Char)
    (h : Phrase.ofText text = .ok phrase) :
    Token.scan afterOperand point ('(' :: (text ++ ')' :: rest)) =
      (phrase.enclosed point text.length).tokens ++
        Token.scan true (point + 1 + text.length + 1) rest := by
  have htokens : Token.scan false (point + 1) text = (phrase.shift (point + 1)).tokens := by
    have hshift := Token.scan_shift false 0 (point + 1) text
    rw [Nat.zero_add] at hshift
    rw [hshift, Phrase.tokens_shift, Phrase.tokens_ofTokens h]
    rfl
  obtain ⟨last, hrun⟩ := Phrase.exists_run h
  have hknown : ∀ token ∈ Token.scan false (point + 1) text, token.kind ≠ .unknown := by
    rw [htokens, Phrase.tokens_shift, Phrase.tokens_ofTokens h]
    exact List.forall_mem_map.2 (State.known_of_run hrun)
  rw [Token.scan_opening, Token.scan_before_closing false (point + 1) text rest hknown, htokens,
    Phrase.enclosed, Phrase.tokens]
  simp

/-- A text in brackets is accepted or refused as it is alone, unless it is no expression. -/
theorem Tree.ofChain_enclosed (front back : List Char) {point : Nat}
    (hpoint : front.length = point + 1) (h : Phrase.ofText text = .ok phrase)
    (hsome : ∀ rejection, parseUnlimited text = .error rejection → ¬rejection.IsMalformed) :
    Tree.ofChain (front ++ (text ++ back)) none (phrase.enclosed point text.length) =
      parseUnlimited text := by
  have hparse : parseUnlimited text = Tree.ofChain text none phrase := by
    rw [parseUnlimited, h]
    rfl
  rw [hparse] at hsome ⊢
  rw [Phrase.enclosed, Tree.ofChain, ← hpoint]
  exact Tree.ofChain_shift front back phrase none (Phrase.stop_le_length h) hsome

/-- A text that is not refused as no expression is a phrase. -/
theorem Phrase.exists_ofText
    (hsome : ∀ rejection, parseUnlimited text = .error rejection → ¬rejection.IsMalformed) :
    ∃ phrase, Phrase.ofText text = .ok phrase := by
  cases h : Phrase.ofText text with
  | ok phrase => exact ⟨phrase, rfl⟩
  | error misfit =>
    have hmalformed : parseUnlimited text = .error
        (.malformed (Text.column text misfit.point) (.expected misfit.expectation)) := by
      rw [parseUnlimited, h]
    exact absurd trivial (hsome _ hmalformed)

end

/-! ## Operators between and before brackets -/

namespace Text

/-- Two texts in brackets with an operator between them. -/
def joined (left : String) (operator : Operator) (right : String) : String :=
  "(" ++ left ++ ")" ++ operator.symbol ++ "(" ++ right ++ ")"

/-- A text in brackets with an operator before it. -/
def prefixed (operator : UnaryOperator) (operand : String) : String :=
  operator.symbol ++ "(" ++ operand ++ ")"

theorem toList_joined (left : String) (operator : Operator) (right : String) :
    (joined left operator right).toList = '(' :: (left.toList ++
      ')' :: (operator.symbol.toList ++ '(' :: (right.toList ++ [')']))) := by
  simp [joined]

theorem toList_prefixed (operator : UnaryOperator) (operand : String) :
    (prefixed operator operand).toList =
      operator.symbol.toList ++ '(' :: (operand.toList ++ [')']) := by
  simp [prefixed]

end Text

theorem Token.scan_unaryOperator (operator : UnaryOperator) (rest : List Char) :
    Token.scan false 0 (operator.symbol.toList ++ '(' :: rest) =
      ⟨operator.kind, ⟨0, operator.symbol.toList.length⟩⟩ ::
        Token.scan false operator.symbol.toList.length ('(' :: rest) := by
  have hstops : Stops (fun c => c == '*' || c == '/') ('(' :: rest) := Stops.cons_iff.2 rfl
  have hword : Stops Text.continuesWord ('(' :: rest) := Stops.cons_iff.2 rfl
  cases operator with
  | plus => exact Token.scan_operator .add hstops
  | minus => exact Token.scan_operator .subtract hstops
  | invert => exact Token.scan_tilde
  | not => exact Token.scan_word rfl rfl hword

variable {left right : String}

theorem parseUnlimited_joined
    (hleft : ∀ rejection, parseUnlimited left.toList = .error rejection → ¬rejection.IsMalformed)
    (hright : ∀ rejection, parseUnlimited right.toList = .error rejection → ¬rejection.IsMalformed)
    (operator : Operator) :
    parseUnlimited (Text.joined left operator right).toList = do
      let a ← parseUnlimited left.toList
      let b ← parseUnlimited right.toList
      return .binary a operator b := by
  obtain ⟨p, hp⟩ := Phrase.exists_ofText hleft
  obtain ⟨q, hq⟩ := Phrase.exists_ofText hright
  rw [Text.toList_joined]
  generalize left.toList = l at *
  generalize right.toList = r at *
  -- the places of the operator and of the second bracket
  obtain ⟨mark, hmark⟩ : ∃ mark, mark = 0 + 1 + l.length + 1 := ⟨_, rfl⟩
  obtain ⟨point, hpoint⟩ : ∃ point, point = mark + operator.symbol.toList.length := ⟨_, rfl⟩
  have hphrase : Phrase.ofText ('(' :: (l ++ ')' :: (operator.symbol.toList ++
      '(' :: (r ++ [')'])))) = .ok (.joined (p.enclosed 0 l.length) (.operator operator)
        ⟨mark, point⟩ (q.enclosed point r.length)) := by
    refine Phrase.ofTokens_eq_ok_iff.2 ⟨⟨⟨?_, ?_⟩, ?_, ?_⟩, ?_⟩
    · exact p.wellFormed_shift (Phrase.wellFormed_ofTokens hp)
    · exact Connector.closes_le _
    · exact q.wellFormed_shift (Phrase.wellFormed_ofTokens hq)
    · have := (Connector.operator operator).cases_power
      simp only [Phrase.enclosed, Phrase.strength]
      omega
    · have hstops : Stops (fun c => c == '*' || c == '/') ('(' :: (r ++ [')'])) :=
        Stops.cons_iff.2 rfl
      rw [Token.ofText, Token.scan_enclosed false 0 _ hp, ← hmark,
        Token.scan_operator operator hstops, ← hpoint, Token.scan_enclosed false point [] hq,
        Token.scan, List.append_nil]
      rfl
  have hfirst : Tree.ofChain ('(' :: (l ++ ')' :: (operator.symbol.toList ++
      '(' :: (r ++ [')'])))) none (p.enclosed 0 l.length) = parseUnlimited l :=
    Tree.ofChain_enclosed ['('] _ rfl hp hleft
  have hsecond : Tree.ofChain ('(' :: (l ++ ')' :: (operator.symbol.toList ++
      '(' :: (r ++ [')'])))) none (q.enclosed point r.length) = parseUnlimited r := by
    have hfront : ('(' :: (l ++ ')' :: (operator.symbol.toList ++ ['(']))).length = point + 1 := by
      simp only [List.length_cons, List.length_append, List.length_nil]
      omega
    have := Tree.ofChain_enclosed _ [')'] hfront hq hright
    simpa using this
  rw [parseUnlimited, hphrase]
  dsimp only
  rw [Tree.ofPhrase, Tree.ofChain, hfirst, hsecond]

theorem parseUnlimited_prefixed
    (hleft : ∀ rejection, parseUnlimited left.toList = .error rejection → ¬rejection.IsMalformed)
    (operator : UnaryOperator) :
    parseUnlimited (Text.prefixed operator left).toList = do
      let a ← parseUnlimited left.toList
      return .unary operator a := by
  obtain ⟨p, hp⟩ := Phrase.exists_ofText hleft
  rw [Text.toList_prefixed]
  generalize left.toList = l at *
  obtain ⟨point, hpoint⟩ : ∃ point, point = operator.symbol.toList.length := ⟨_, rfl⟩
  have hphrase : Phrase.ofText (operator.symbol.toList ++ '(' :: (l ++ [')'])) =
      .ok (.prefixed operator ⟨0, point⟩ (p.enclosed point l.length)) := by
    refine Phrase.ofTokens_eq_ok_iff.2 ⟨⟨?_, ?_⟩, ?_⟩
    · exact p.wellFormed_shift (Phrase.wellFormed_ofTokens hp)
    · have := operator.strength_le
      simp only [Phrase.enclosed, Phrase.strength]
      omega
    · rw [Token.ofText, Token.scan_unaryOperator, ← hpoint, Token.scan_enclosed false point [] hp,
        Token.scan, List.append_nil]
      rfl
  have hoperand : Tree.ofChain (operator.symbol.toList ++ '(' :: (l ++ [')'])) none
      (p.enclosed point l.length) = parseUnlimited l := by
    have hfront : (operator.symbol.toList ++ ['(']).length = point + 1 := by
      rw [List.length_append, hpoint]
      rfl
    have := Tree.ofChain_enclosed _ [')'] hfront hp hleft
    simpa using this
  rw [parseUnlimited, hphrase]
  dsimp only
  rw [Tree.ofPhrase, Tree.ofChain, hoperand]
  cases parseUnlimited l <;> rfl

/-! ## Composition -/

namespace Limits.Admit

variable {limits : Limits}

theorem of_joined {operator : Operator} (h : limits.Admit (Text.joined left operator right)) :
    limits.Admit left ∧ limits.Admit right := by
  unfold Admit at *
  simp only [Text.toList_joined, List.length_cons, List.length_append, List.length_nil] at h
  omega

theorem of_prefixed {operator : UnaryOperator} (h : limits.Admit (Text.prefixed operator left)) :
    limits.Admit left := by
  unfold Admit at *
  simp only [Text.toList_prefixed, List.length_cons, List.length_append, List.length_nil] at h
  omega

end Limits.Admit

/-- **Parsing goes bracket by bracket.** If limits do not matter and two texts are expressions,
    accepted or not, then with any operator between them, both in brackets, they are parsed to the
    operation on their trees or refused with the first of their refusals; and the value is that of
    the operator at their values. The same holds of every operator before one of them. -/
theorem parse_composed {limits : Limits}
    (hleft : ∀ rejection, parse limits left = .error rejection → ¬rejection.IsMalformed)
    (hright : ∀ rejection, parse limits right = .error rejection → ¬rejection.IsMalformed) :
    (∀ operator : Operator, limits.Admit (Text.joined left operator right) →
      (parse limits (Text.joined left operator right) = do
        let a ← parse limits left
        let b ← parse limits right
        return .binary a operator b) ∧
      ∀ a b, parse limits left = .ok a → parse limits right = .ok b →
        evaluate limits (Text.joined left operator right) = do
          let v ← evaluate limits left
          let w ← evaluate limits right
          operator.apply v w) ∧
    ∀ operator : UnaryOperator, limits.Admit (Text.prefixed operator left) →
      (parse limits (Text.prefixed operator left) = do
        let a ← parse limits left
        return .unary operator a) ∧
      ∀ a, parse limits left = .ok a →
        evaluate limits (Text.prefixed operator left) =
          (evaluate limits left >>= operator.apply) := by
  refine ⟨fun operator hadmit => ?_, fun operator hadmit => ?_⟩
  · obtain ⟨hadmitLeft, hadmitRight⟩ := hadmit.of_joined
    have hparse : parse limits (Text.joined left operator right) = do
        let a ← parse limits left
        let b ← parse limits right
        return .binary a operator b := by
      rw [parse_eq_parseUnlimited hadmitLeft] at hleft ⊢
      rw [parse_eq_parseUnlimited hadmitRight] at hright ⊢
      rw [parse_eq_parseUnlimited hadmit]
      exact parseUnlimited_joined hleft hright operator
    refine ⟨hparse, fun a b ha hb => ?_⟩
    rw [evaluate_eq_bind, evaluate_eq_bind, evaluate_eq_bind, hparse, ha, hb]
    rfl
  · have hadmitLeft := hadmit.of_prefixed
    have hparse : parse limits (Text.prefixed operator left) = do
        let a ← parse limits left
        return .unary operator a := by
      rw [parse_eq_parseUnlimited hadmitLeft] at hleft ⊢
      rw [parse_eq_parseUnlimited hadmit]
      exact parseUnlimited_prefixed hleft operator
    refine ⟨hparse, fun a ha => ?_⟩
    rw [evaluate_eq_bind, evaluate_eq_bind, hparse, ha]
    rfl

/-- The second text is refused with the part of it that is a list, inside the whole text as
    alone. -/
theorem parse_composed_list :
    parse ⟨UInt64.size - 1, UInt64.size - 1⟩ (Text.joined "not 1" .power " [2]") =
        .error (.unsupported .list "[2]") ∧
      evaluate ⟨UInt64.size - 1, UInt64.size - 1⟩ (Text.prefixed .minus "not 1") =
        .error (.unsupportedOperator "not") := by
  have hnot : parse ⟨UInt64.size - 1, UInt64.size - 1⟩ "not 1" =
      .ok (.unary .not (.constant (.integer 1))) := by
    with_unfolding_all rfl
  have hlist : parse ⟨UInt64.size - 1, UInt64.size - 1⟩ " [2]" =
      .error (.unsupported .list "[2]") := by
    with_unfolding_all rfl
  have hcomposed := parse_composed
    (fun rejection h => by rw [hnot] at h; cases h)
    (fun rejection h => by rw [hlist] at h; cases h; exact id)
  obtain ⟨hjoined, -⟩ := hcomposed.1 .power ⟨by decide, by decide⟩
  obtain ⟨-, hprefixed⟩ := hcomposed.2 .minus ⟨by decide, by decide⟩
  rw [hnot, hlist] at hjoined
  refine ⟨hjoined, ?_⟩
  rw [hprefixed _ hnot, evaluate_eq_bind, hnot]
  rfl

end Calculator
