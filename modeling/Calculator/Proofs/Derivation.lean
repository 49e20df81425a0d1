import Calculator.Evaluator
import Calculator.Proofs.Lexemes
import Calculator.Proofs.Reading

/-!
# Parsing decides the grammar

A text is parsed exactly if the grammar derives it, and to the tree that the grammar says it
denotes.

* `Level.strength`: how strongly the phrases of a level hold together at least.
* `Phrase.Spells`: a phrase whose tokens are scanned only from texts that denote its tree.
* `Grammar.Scans`: a text from which a phrase is scanned that stands for its tree.

Results:
* `Phrase.spells`: every accepted phrase is spelled as the grammar says.
* `Grammar.Derives.scans`: every derived text is scanned as a phrase.
* `parse_eq_ok_iff`: what is parsed, and to which tree.
-/

namespace Calculator

open Grammar

/-! ## Levels and strengths -/

namespace Grammar

/-- How strongly the phrases of a level hold together at least. -/
def Level.strength : Level → Nat
  | .expression => 2
  | .bitwise => 4
  | .arithmetic => 5
  | .term => 6
  | .factor => 7
  | .power => 8
  | .atom => 9

theorem Level.strength_tighter {level tight : Level} (h : level.strength < tight.strength) :
    level.tighter.strength ≤ tight.strength ∧ level.strength < level.tighter.strength := by
  cases level <;> cases tight <;> revert h <;> decide

theorem Level.strength_le_tighter (level : Level) : level.strength ≤ level.tighter.strength := by
  cases level <;> decide

theorem Level.eq_of_strength {level tight : Level} (h : level.strength = tight.strength) :
    level = tight := by
  cases level <;> cases tight <;> first | rfl | cases h

/-- A text of a level is a text of all weaker levels. -/
theorem Derives.loosen {level tight : Level} {cs : List Char} {t : Tree} (h : Derives tight cs t)
    (hle : level.strength ≤ tight.strength) : Derives level cs t := by
  rcases Nat.lt_or_eq_of_le hle with hlt | heq
  · obtain ⟨htight, hdescends⟩ := Level.strength_tighter hlt
    exact .tighter (h.loosen htight)
  · rw [Level.eq_of_strength heq]
    exact h
termination_by tight.strength - level.strength

end Grammar

/-- The level that gathers the operations of an operator. -/
def Operator.level : Operator → Level
  | .leftShift | .rightShift | .bitAnd | .bitOr | .bitXor => .bitwise
  | .add | .subtract => .arithmetic
  | .multiply | .divide | .floorDivide | .modulo | .matrixMultiply => .term
  | .power => .power

theorem Operator.level_of_ne_power {operator : Operator} (h : operator ≠ .power) :
    operator ∈ operator.level.operators ∧ operator.level.strength = operator.strength ∧
      operator.level.strength = (Connector.operator operator).closes ∧
      operator.level.tighter.strength = (Connector.operator operator).rightLeast := by
  cases operator <;> first | exact absurd rfl h | decide

theorem Grammar.Level.eq_of_mem_operators {level : Level} {operator : Operator}
    (h : operator ∈ level.operators) : level = operator.level ∧ operator ≠ .power := by
  cases level <;> cases operator <;> revert h <;> decide

/-! ## Accepted phrases -/

namespace Tree

variable {text : List Char} {t : Tree}

theorem ofPhrase_literal_eq_ok_iff {value : Literal} {span : Span} :
    ofPhrase text (.literal value span) = .ok t ↔
      ∃ constant, value.toConstant = .ok constant ∧ t = .constant constant := by
  unfold ofPhrase ofChain
  cases value.toConstant <;> simp [Except.map, eq_comm]

theorem ofPhrase_prefixed_eq_ok_iff {operator : UnaryOperator} {mark : Span} {operand : Phrase} :
    ofPhrase text (.prefixed operator mark operand) = .ok t ↔
      ∃ a, ofPhrase text operand = .ok a ∧ t = .unary operator a := by
  unfold ofPhrase
  rw [ofChain]
  cases ofChain text none operand <;> simp [Except.map, eq_comm]

theorem ofPhrase_joined_eq_ok_iff {left right : Phrase} {operator : Operator} {mark : Span} :
    ofPhrase text (.joined left (.operator operator) mark right) = .ok t ↔
      ∃ a b, ofPhrase text left = .ok a ∧ ofPhrase text right = .ok b ∧
        t = .binary a operator b := by
  unfold ofPhrase
  rw [ofChain]
  cases ofChain text none left <;> cases ofChain text none right <;>
    simp [bind, Except.bind, pure, Except.pure, eq_comm]

/-- Comparisons, `and` and `or` are refused. -/
theorem ofPhrase_logical_ne_ok {left right : Phrase} {connective : Logical} {mark : Span} :
    ofPhrase text (.joined left (.logical connective) mark right) ≠ .ok t := by
  unfold ofPhrase
  rw [ofChain]
  cases ofChain text (some connective) left <;> intro h <;> cases h

theorem ofPhrase_group {opening closing : Span} {inner : Phrase} :
    ofPhrase text (.group opening inner closing) = ofPhrase text inner := by
  unfold ofPhrase
  rw [ofChain]

end Tree

theorem Stops.continuesWord_iff {cs : List Char} :
    Stops Text.continuesWord cs ↔ ∀ c ∈ cs.head?, ¬(c.isAlphanum ∨ c = '_') := by
  simp [Stops, Text.continuesWord]

/-! ## Accepted phrases are spelled as the grammar says -/

/-- A phrase whose tokens are scanned only from texts that denote `t`, at every level that it holds
    together strongly enough for. -/
def Phrase.Spells (phrase : Phrase) (t : Tree) : Prop :=
  ∀ (afterOperand : Bool) (point : Nat) (cs : List Char) (more : List Token),
    Token.scan afterOperand point cs = phrase.tokens ++ more →
    ∃ gap word rest next, cs = gap ++ (word ++ rest) ∧ Gap gap ∧ more = Token.scan true next rest ∧
      ∀ level : Level, level.strength ≤ phrase.strength → Derives level word t

theorem Lexeme.eq_sign {word rest : List Char} {operator : UnaryOperator}
    (h : Lexeme word rest operator.kind) (hne : operator ≠ .not) :
    word = operator.symbol.toList := by
  cases operator with
  | plus => exact h.eq_operator
  | minus => exact h.eq_operator
  | invert => exact h.eq_tilde
  | not => exact absurd rfl hne

theorem UnaryOperator.kind_ne_unknown (operator : UnaryOperator) : operator.kind ≠ .unknown := by
  cases operator <;> decide

namespace Phrase

theorem spells_literal {value : Literal} {span : Span} {constant : Constant}
    (hc : value.toConstant = .ok constant) : (literal value span).Spells (.constant constant) := by
  intro afterOperand point cs more h
  obtain ⟨gap, word, rest, next, rfl, hgap, hword, hmore⟩ := Token.exists_of_scan h (by simp)
  refine ⟨gap, word, rest, next, rfl, hgap, hmore, ?_⟩
  intro level hlevel
  exact (hword.derives hc).loosen hlevel

theorem spells_prefixed {operator : UnaryOperator} {mark : Span} {operand : Phrase} {t : Tree}
    (ho : operand.Spells t) (hs : operator.strength ≤ operand.strength) :
    (prefixed operator mark operand).Spells (.unary operator t) := by
  intro afterOperand point cs more h
  obtain ⟨gap, word, tail, next, rfl, hgap, hword, hrest⟩ :=
    Token.exists_of_scan h operator.kind_ne_unknown
  obtain ⟨gap', word', rest, next', rfl, hgap', hmore, hderives⟩ := ho _ _ _ _ hrest.symm
  refine ⟨gap, word ++ (gap' ++ word'), rest, next', by simp, hgap, hmore, ?_⟩
  intro level hlevel
  -- `not` alone has a level of its own, and alone must not run into its operand
  by_cases hnot : operator = .not
  · subst hnot
    obtain ⟨rfl, hstops⟩ := hword.eq_not
    have hstops : Stops Text.continuesWord (gap' ++ word') := by
      rw [← List.append_assoc] at hstops
      exact hstops.of_append
    have hexpression : Derives .expression word' t := hderives .expression hs
    have hwhole := Derives.not hgap' hexpression (Stops.continuesWord_iff.1 hstops)
    exact hwhole.loosen hlevel
  · have hlevels : operator.strength = Level.factor.strength := by
      cases operator <;> first | rfl | exact absurd rfl hnot
    have hfactor : Derives .factor word' t := hderives .factor (by rw [← hlevels]; exact hs)
    have hsign := Derives.sign hnot hgap' hfactor
    rw [hword.eq_sign hnot]
    exact hsign.loosen (by rw [← hlevels]; exact hlevel)

theorem spells_joined {left right : Phrase} {operator : Operator} {mark : Span} {a b : Tree}
    (hl : left.Spells a) (hr : right.Spells b)
    (hcl : (Connector.operator operator).closes ≤ left.strength)
    (hcr : (Connector.operator operator).rightLeast ≤ right.strength) :
    (joined left (.operator operator) mark right).Spells (.binary a operator b) := by
  intro afterOperand point cs more h
  rw [tokens, List.append_assoc] at h
  obtain ⟨gap, word, tail, next, rfl, hgap, hrest, hleft⟩ := hl _ _ _ _ h
  obtain ⟨gap', word', tail', next', rfl, hgap', hword, hrest'⟩ :=
    Token.exists_of_scan hrest.symm (by simp [Connector.kind])
  obtain ⟨gap'', word'', rest, next'', rfl, hgap'', hmore, hright⟩ := hr _ _ _ _ hrest'.symm
  have hsymbol : word' = operator.symbol.toList := hword.eq_operator
  subst hsymbol
  refine ⟨gap, word ++ (gap' ++ (operator.symbol.toList ++ (gap'' ++ word''))), rest, next'',
    by simp, hgap, hmore, ?_⟩
  intro level hlevel
  -- only `**` is not gathered in a chain
  by_cases hpower : operator = .power
  · subst hpower
    have hatom : Derives .atom word a := hleft .atom hcl
    have hfactor : Derives .factor word'' b := hright .factor hcr
    have hpower := Derives.power hatom hgap' hgap'' hfactor
    exact hpower.loosen hlevel
  · obtain ⟨hmem, hstrength, hcloses, htighter⟩ := operator.level_of_ne_power hpower
    have hfirst : Derives operator.level word a := hleft _ (by rw [hcloses]; exact hcl)
    have hsecond : Derives operator.level.tighter word'' b := hright _ (by rw [htighter]; exact hcr)
    have hchain := Derives.chain hmem hfirst hgap' hgap'' hsecond
    exact hchain.loosen (by rw [hstrength]; exact hlevel)

theorem spells_group {inner : Phrase} {opening closing : Span} {t : Tree}
    (hi : inner.Spells t) (hs : 2 ≤ inner.strength) : (group opening inner closing).Spells t := by
  intro afterOperand point cs more h
  rw [tokens, List.cons_append, List.append_assoc] at h
  obtain ⟨gap, word, tail, next, rfl, hgap, hword, hrest⟩ := Token.exists_of_scan h (by simp)
  obtain ⟨gap', word', tail', next', rfl, hgap', hrest', hinner⟩ := hi _ _ _ _ hrest.symm
  obtain ⟨gap'', word'', rest, next'', rfl, hgap'', hword'', hmore⟩ :=
    Token.exists_of_scan hrest'.symm (by simp)
  obtain rfl := hword.eq_opening
  obtain rfl := hword''.eq_closing
  refine ⟨gap, '(' :: (gap' ++ (word' ++ (gap'' ++ [')']))), rest, next'', by simp, hgap, hmore, ?_⟩
  intro level hlevel
  have hgroup := Derives.group hgap' (hinner .expression hs) hgap''
  exact hgroup.loosen hlevel

/-- An accepted phrase is no comparison, and no `and` or `or`. -/
theorem two_le_strength {text : List Char} {phrase : Phrase} {t : Tree}
    (h : Tree.ofPhrase text phrase = .ok t) : 2 ≤ phrase.strength := by
  cases phrase with
  | prefixed operator mark operand => cases operator <;> simp [strength, UnaryOperator.strength]
  | joined left connector mark right =>
    cases connector with
    | operator operator =>
      cases operator <;> simp [strength, Connector.strength, Operator.strength]
    | logical connective => exact absurd h Tree.ofPhrase_logical_ne_ok
  | _ => simp [strength]

/-- Every accepted phrase is spelled as the grammar says. -/
theorem spells (text : List Char) : (phrase : Phrase) → (t : Tree) → phrase.WellFormed →
    Tree.ofPhrase text phrase = .ok t → phrase.Spells t
  -- along the phrases that have a tree; the last four never do
  | .literal value span, t, _, h => by
    obtain ⟨constant, hc, rfl⟩ := Tree.ofPhrase_literal_eq_ok_iff.1 h
    exact spells_literal hc
  | .prefixed operator mark operand, t, hw, h => by
    obtain ⟨a, ha, rfl⟩ := Tree.ofPhrase_prefixed_eq_ok_iff.1 h
    exact spells_prefixed (spells text operand a hw.1 ha) hw.2
  | .joined left (.operator operator) mark right, t, ⟨hl, hr⟩, h => by
    obtain ⟨a, b, ha, hb, rfl⟩ := Tree.ofPhrase_joined_eq_ok_iff.1 h
    exact spells_joined (spells text left a hl.1 ha) (spells text right b hr.1 hb) hl.2 hr.2
  | .group opening inner closing, t, hw, h => by
    rw [Tree.ofPhrase_group] at h
    exact spells_group (spells text inner t hw h) (two_le_strength h)
  | .joined _ (.logical _) _ _, _, _, h => absurd h Tree.ofPhrase_logical_ne_ok
  | .name _, _, _, h => by cases h
  | .display _ _ _ _, _, _, h => by cases h
  | .trailed _ _, _, _, h => by cases h

end Phrase

/-! ## Derived texts are scanned as phrases -/

/-- A text that is scanned, unless what follows runs into it, as a phrase that stands for `t` and
    holds together as strongly as the level asks for. -/
def Grammar.Scans (level : Level) (cs : List Char) (t : Tree) : Prop :=
  ∀ (point : Nat) (rest : List Char), Breaks rest → ∃ (phrase : Phrase) (next : Nat),
    phrase.WellFormed ∧ level.strength ≤ phrase.strength ∧
      (∀ text, Tree.ofPhrase text phrase = .ok t) ∧
      Token.scan false point (cs ++ rest) = phrase.tokens ++ Token.scan true next rest

/-! ### What stands behind a token -/

theorem Stops.gap_append {p : Char → Bool} {gap cs : List Char} (hgap : Gap gap)
    (hp : ∀ c, Token.isGap c → p c = false) (h : Stops p cs) : Stops p (gap ++ cs) := by
  cases gap with
  | nil => exact h
  | cons c gap => exact cons_iff.2 (hp c (Token.isGap_iff.2 (List.forall_mem_cons.1 hgap).1))

theorem Breaks.gap_append {gap cs : List Char} (hgap : Gap gap) (h : Breaks cs) :
    Breaks (gap ++ cs) := by
  refine Stops.gap_append hgap (fun c hc => ?_) h
  rcases Token.isGap_iff.1 hc with rfl | rfl | rfl | rfl <;> decide

theorem Breaks.gap {gap : List Char} (hgap : Gap gap) : Breaks gap := by
  have h := Breaks.gap_append hgap (Stops.nil _)
  rwa [List.append_nil] at h

theorem Breaks.symbol (operator : Operator) (cs : List Char) :
    Breaks (operator.symbol.toList ++ cs) := by
  cases operator <;> exact Stops.cons_iff.2 rfl

/-- A text that does not go on with a mark before it. -/
def Detached (cs : List Char) : Prop := ∃ c tail, cs = c :: tail ∧ ¬(c = '*' ∨ c = '/')

theorem Detached.stops {gap cs : List Char} (hgap : Gap gap) (h : Detached cs) (rest : List Char) :
    Stops (fun c => c == '*' || c == '/') (gap ++ (cs ++ rest)) := by
  obtain ⟨c, tail, rfl, hc⟩ := h
  refine Stops.gap_append hgap (fun d hd => ?_) (Stops.cons_iff.2 (by simpa using hc))
  rcases Token.isGap_iff.1 hd with rfl | rfl | rfl | rfl <;> decide

theorem detached_number {word : List Char} {value : Literal} (h : Grammar.Number word value) :
    Detached word := by
  obtain ⟨c, tail, rfl, hstarts⟩ := Token.beginsNumeral_number h
  have hc : Token.startsNumeral false c (tail ++ []) := hstarts []
  refine ⟨c, tail, rfl, ?_⟩
  rintro (rfl | rfl) <;> cases hc

/-- No derived text goes on with the operator before it. -/
theorem detached_of_derives {level : Level} {cs : List Char} {t : Tree} (h : Derives level cs t) :
    Detached cs := by
  induction h with
  | chain _ _ _ _ _ ih =>
    obtain ⟨c, tail, rfl, hc⟩ := ih
    exact ⟨c, _, rfl, hc⟩
  | power _ _ _ _ ih =>
    obtain ⟨c, tail, rfl, hc⟩ := ih
    exact ⟨c, _, rfl, hc⟩
  | @sign operator _ _ _ hne =>
    cases operator with
    | not => exact absurd rfl hne
    | _ => exact ⟨_, _, rfl, by decide⟩
  | tighter _ ih => exact ih
  | integer hi => exact detached_number (.integer hi)
  | float hf => exact detached_number (.float hf)
  | string hq => rcases hq with rfl | rfl <;> exact ⟨_, _, rfl, by decide⟩
  | _ => exact ⟨_, _, rfl, by decide⟩

namespace Grammar.Scans

theorem literal {word : List Char} {value : Literal} {constant : Constant}
    (hc : value.toConstant = .ok constant)
    (hscan : ∀ point rest, Breaks rest → ∃ span next,
      Token.scan false point (word ++ rest) = ⟨.literal value, span⟩ :: Token.scan true next rest) :
    Scans .atom word (.constant constant) := by
  intro point rest hrest
  obtain ⟨span, next, hscan⟩ := hscan point rest hrest
  refine ⟨.literal value span, next, trivial, Nat.le_refl 9, ?_, hscan⟩
  intro text
  exact Tree.ofPhrase_literal_eq_ok_iff.2 ⟨constant, hc, rfl⟩

theorem prefixed {level inner : Level} {operator : UnaryOperator} {word gap cs : List Char}
    {t : Tree} (ht : Scans inner cs t) (hlevel : level.strength ≤ operator.strength)
    (hinner : operator.strength ≤ inner.strength) (hgap : Gap gap)
    (hscan : ∀ point rest, Breaks rest → ∃ mark next,
      Token.scan false point (word ++ (gap ++ (cs ++ rest))) =
        ⟨operator.kind, mark⟩ :: Token.scan false next (gap ++ (cs ++ rest))) :
    Scans level (word ++ (gap ++ cs)) (.unary operator t) := by
  intro point rest hrest
  obtain ⟨mark, next, hmark⟩ := hscan point rest hrest
  obtain ⟨operand, next', hw, hs, htree, htokens⟩ := ht (next + gap.length) rest hrest
  refine ⟨.prefixed operator mark operand, next', ⟨hw, by omega⟩, hlevel, ?_, ?_⟩
  · intro text
    exact Tree.ofPhrase_prefixed_eq_ok_iff.2 ⟨t, htree text, rfl⟩
  · rw [List.append_assoc, List.append_assoc, hmark, Token.scan_gap hgap, htokens]
    rfl

theorem joined {level first second : Level} {operator : Operator} {cs gap gap' ds : List Char}
    {a b : Tree} (ha : Scans first cs a) (hb : Scans second ds b)
    (hlevel : level.strength ≤ operator.strength)
    (hfirst : (Connector.operator operator).closes ≤ first.strength)
    (hsecond : (Connector.operator operator).rightLeast ≤ second.strength)
    (hgap : Gap gap) (hgap' : Gap gap') (hds : Detached ds) :
    Scans level (cs ++ (gap ++ (operator.symbol.toList ++ (gap' ++ ds))))
      (.binary a operator b) := by
  intro point rest hrest
  obtain ⟨left, next, hlw, hls, hltree, hltokens⟩ := ha point
    (gap ++ (operator.symbol.toList ++ (gap' ++ (ds ++ rest))))
    (.gap_append hgap (.symbol operator _))
  obtain ⟨right, next', hrw, hrs, hrtree, hrtokens⟩ := hb
    (next + gap.length + operator.symbol.toList.length + gap'.length) rest hrest
  obtain ⟨mark, hscan⟩ : ∃ mark,
      Token.scan true next (gap ++ (operator.symbol.toList ++ (gap' ++ (ds ++ rest)))) =
        ⟨.operator operator, mark⟩ :: (right.tokens ++ Token.scan true next' rest) := by
    refine ⟨⟨next + gap.length, next + gap.length + operator.symbol.toList.length⟩, ?_⟩
    rw [Token.scan_gap hgap, Token.scan_operator operator (hds.stops hgap' rest),
      Token.scan_gap hgap', hrtokens]
  refine ⟨.joined left (.operator operator) mark right, next', ⟨⟨hlw, by omega⟩, hrw, by omega⟩,
    hlevel, ?_, ?_⟩
  · intro text
    exact Tree.ofPhrase_joined_eq_ok_iff.2 ⟨a, b, hltree text, hrtree text, rfl⟩
  · simp only [List.append_assoc, Phrase.tokens, List.cons_append]
    rw [hltokens, hscan]
    rfl

theorem group {gap gap' cs : List Char} {t : Tree} (hgap : Gap gap) (hgap' : Gap gap')
    (ht : Scans .expression cs t) : Scans .atom ('(' :: (gap ++ (cs ++ (gap' ++ [')'])))) t := by
  intro point rest _
  have hbreaks : Breaks (gap' ++ ')' :: rest) := .gap_append hgap' (Stops.cons_iff.2 rfl)
  obtain ⟨inner, next, hw, _, htree, htokens⟩ := ht (point + 1 + gap.length) _ hbreaks
  refine ⟨.group ⟨point, point + 1⟩ inner ⟨next + gap'.length, next + gap'.length + 1⟩,
    next + gap'.length + 1, hw, Nat.le_refl 9, htree, ?_⟩
  simp only [List.append_assoc, List.cons_append, List.nil_append, Phrase.tokens]
  rw [Token.scan_opening, Token.scan_gap hgap, htokens, Token.scan_gap hgap', Token.scan_closing]

end Grammar.Scans

/-- Every derived text is scanned as a phrase. -/
theorem Grammar.Derives.scans {level : Level} {cs : List Char} {t : Tree} (h : Derives level cs t) :
    Scans level cs t := by
  induction h with
  | @not gap cs t hgap _ hstops ih =>
    show Scans .expression (['n', 'o', 't'] ++ (gap ++ cs)) (.unary .not t)
    refine .prefixed ih (Nat.le_refl 2) (Nat.le_refl 2) hgap ?_
    intro point rest hrest
    have hword : Stops Text.continuesWord (gap ++ (cs ++ rest)) := by
      rw [← List.append_assoc]
      exact (Stops.continuesWord_iff.2 hstops).append hrest.continuesWord
    exact ⟨_, _, Token.scan_word rfl rfl hword⟩
  | chain hmem _ hgap hgap' hb iha ihb =>
    obtain ⟨rfl, hne⟩ := Level.eq_of_mem_operators hmem
    obtain ⟨_, hstrength, hcloses, htighter⟩ := Operator.level_of_ne_power hne
    exact .joined iha ihb (Nat.le_of_eq hstrength) (Nat.le_of_eq hcloses.symm)
      (Nat.le_of_eq htighter.symm) hgap hgap' (detached_of_derives hb)
  | @sign operator gap cs t hne hgap hcs ih =>
    have hstrength : operator.strength = 7 := by
      cases operator <;> first | rfl | exact absurd rfl hne
    refine .prefixed ih (Nat.le_of_eq hstrength.symm) (Nat.le_of_eq hstrength) hgap ?_
    intro point rest _
    have hstops := (detached_of_derives hcs).stops hgap rest
    cases operator with
    | plus => exact ⟨_, _, Token.scan_operator .add hstops⟩
    | minus => exact ⟨_, _, Token.scan_operator .subtract hstops⟩
    | invert => exact ⟨_, _, Token.scan_tilde⟩
    | not => exact absurd rfl hne
  | power _ hgap hgap' hb iha ihb =>
    exact .joined iha ihb (Nat.le_refl 8) (Nat.le_refl 9) (Nat.le_refl 7) hgap hgap'
      (detached_of_derives hb)
  | @tighter level _ _ _ ih =>
    intro point rest hrest
    obtain ⟨phrase, next, hw, hs, htree, htokens⟩ := ih point rest hrest
    exact ⟨phrase, next, hw, Nat.le_trans level.strength_le_tighter hs, htree, htokens⟩
  | group hgap _ hgap' ih => exact .group hgap hgap' ih
  | @integer cs hi hle =>
    have hc : (Literal.integer (Numeral.value cs)).toConstant =
        .ok (.integer (.ofNat (Numeral.value cs))) :=
      Literal.toConstant_integer_eq_ok_iff.2 ⟨hle, rfl⟩
    exact .literal hc fun _ _ hrest => ⟨_, _, Token.scan_number (.integer hi) hrest⟩
  | float hf =>
    exact .literal rfl fun _ _ hrest => ⟨_, _, Token.scan_number (.float hf) hrest⟩
  | string hq hcontent =>
    exact .literal rfl fun _ _ _ => ⟨_, _, Token.scan_text hq hcontent⟩
  | true | false | none =>
    exact .literal rfl fun _ _ hrest => ⟨_, _, Token.scan_word rfl rfl hrest.continuesWord⟩

/-! ## Whole texts -/

theorem parseUnlimited_eq_ok_iff {text : List Char} {t : Tree} :
    parseUnlimited text = .ok t ↔
      ∃ phrase, Phrase.ofText text = .ok phrase ∧ Tree.ofPhrase text phrase = .ok t := by
  unfold parseUnlimited
  cases Phrase.ofText text <;> simp

/-- Without limits, the trees that are parsed are those that the grammar derives. -/
theorem parseUnlimited_eq_ok_iff_expression {text : List Char} {t : Tree} :
    parseUnlimited text = .ok t ↔ Expression text t := by
  rw [parseUnlimited_eq_ok_iff]
  constructor
  · rintro ⟨phrase, hphrase, htree⟩
    obtain ⟨hw, htokens⟩ := Phrase.ofTokens_eq_ok_iff.1 hphrase
    have hscan : Token.scan false 0 text = phrase.tokens ++ [] := by
      rw [List.append_nil, htokens, Token.ofText]
    obtain ⟨gap, cs, gap', next, rfl, hgap, hrest, hderives⟩ :=
      phrase.spells text t hw htree false 0 text [] hscan
    exact ⟨gap, cs, gap', rfl, hgap, Token.gap_of_scan hrest.symm,
      hderives .expression (Phrase.two_le_strength htree)⟩
  · rintro ⟨gap, cs, gap', rfl, hgap, hgap', h⟩
    -- the phrase that is scanned is the one that is read, because its tokens are all there is
    obtain ⟨phrase, next, hw, _, htree, htokens⟩ := h.scans (0 + gap.length) gap' (.gap hgap')
    have hend : Token.scan true next gap' = [] := by
      have hscan : Token.scan true next (gap' ++ []) = Token.scan true (next + gap'.length) [] :=
        Token.scan_gap hgap'
      rw [List.append_nil] at hscan
      rw [hscan, Token.scan]
    have hscan : Token.ofText (gap ++ (cs ++ gap')) = phrase.tokens := by
      rw [Token.ofText, Token.scan_gap hgap, htokens, hend, List.append_nil]
    exact ⟨phrase, Phrase.ofTokens_eq_ok_iff.2 ⟨hw, hscan.symm⟩, htree _⟩

theorem parse_eq_ok_iff_parseUnlimited {limits : Limits} {text : String} {t : Tree} :
    parse limits text = .ok t ↔
      text.toList.length ≤ limits.maxLength ∧ Nesting.depth text.toList ≤ limits.maxDepth ∧
        parseUnlimited text.toList = .ok t := by
  unfold parse
  by_cases hlength : limits.maxLength < text.toList.length
  · have hno : ¬text.toList.length ≤ limits.maxLength := Nat.not_le.2 hlength
    simp only [if_pos hlength, hno]
    simp
  · by_cases hdepth : limits.maxDepth < Nesting.depth text.toList
    · have hno : ¬Nesting.depth text.toList ≤ limits.maxDepth := Nat.not_le.2 hdepth
      simp only [if_neg hlength, if_pos hdepth, hno]
      simp
    · have hfits := Nat.le_of_not_lt hlength
      have hflat := Nat.le_of_not_lt hdepth
      simp only [if_neg hlength, if_neg hdepth, hfits, hflat, true_and]

/-- **Parsing decides the grammar.** A text is parsed exactly if it keeps to the limits and the
    grammar derives it, and to the tree that the grammar says it denotes. -/
theorem parse_eq_ok_iff {limits : Limits} {text : String} {t : Tree} :
    parse limits text = .ok t ↔
      text.toList.length ≤ limits.maxLength ∧ Nesting.depth text.toList ≤ limits.maxDepth ∧
        Expression text.toList t := by
  rw [parse_eq_ok_iff_parseUnlimited, parseUnlimited_eq_ok_iff_expression]

end Calculator
