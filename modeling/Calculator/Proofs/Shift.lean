import Calculator.Proofs.Derivation
import Calculator.Proofs.Refusals

/-!
# Texts inside longer texts

A text that stands inside a longer one is read and accepted or refused as it is alone: its tokens,
its phrase and the parts of it that refusals name are the same, only further on. Only the column of
a refusal for what is no expression tells where the text stands.

* `Span.shift`, `Token.shift`, `Phrase.shift`: further on in a text.
* `Tree.Moved`: what becomes of a tree, or of a refusal.

Results:
* `Token.scan_shift`: the tokens of a text that stands further on.
* `Phrase.wellFormed_shift`, `Phrase.tokens_shift`: a phrase that stands further on.
* `Phrase.exists_shift`: all phrases at a distance are such phrases.
* `Tree.ofChain_moved`, `Tree.ofChain_shift`: its tree, or why it is refused.
-/

namespace Calculator

/-! ## Spans and tokens -/

/-- A span that stands `distance` characters further on. -/
def Span.shift (distance : Nat) (span : Span) : Span :=
  ⟨span.start + distance, span.stop + distance⟩

/-- A token that stands `distance` characters further on. -/
def Token.shift (distance : Nat) (token : Token) : Token :=
  ⟨token.kind, token.span.shift distance⟩

theorem Span.shift_injective (distance : Nat) : Function.Injective (Span.shift distance) := by
  rintro ⟨start, stop⟩ ⟨start', stop'⟩ h
  simp only [shift, Span.mk.injEq] at h ⊢
  omega

theorem Token.shift_injective (distance : Nat) : Function.Injective (Token.shift distance) := by
  rintro ⟨kind, span⟩ ⟨kind', span'⟩ h
  obtain ⟨hkind, hspan⟩ := Token.mk.inj h
  exact congrArg₂ Token.mk hkind (Span.shift_injective distance hspan)

/-- A span inside a text covers the same characters where that text stands inside a longer one. -/
theorem Span.of_shift {span : Span} {text : List Char} (h : span.stop ≤ text.length)
    (front back : List Char) :
    (span.shift front.length).of (front ++ (text ++ back)) = span.of text := by
  have hwidth : span.stop + front.length - (span.start + front.length) =
      span.stop - span.start := by omega
  have hfront : (front ++ (text ++ back)).drop (span.start + front.length) =
      (text ++ back).drop span.start := by
    rw [Nat.add_comm, ← List.drop_drop, List.drop_left]
  simp only [Span.of, Span.shift, hwidth, hfront]
  by_cases hstart : span.start ≤ text.length
  · have hinside : span.stop - span.start ≤ (text.drop span.start).length := by
      rw [List.length_drop]
      omega
    rw [List.drop_append_of_le_length hstart, List.take_append_of_le_length hinside]
  · have hempty : span.stop - span.start = 0 := by omega
    rw [hempty, List.take_zero, List.take_zero]

namespace Token

/-- The tokens of a text that stands further on are its tokens, further on. -/
theorem scan_shift (afterOperand : Bool) (point distance : Nat) (cs : List Char) :
    scan afterOperand (point + distance) cs =
      (scan afterOperand point cs).map (shift distance) := by
  fun_induction scan afterOperand point cs with
  | case1 afterOperand point => rw [scan, List.map_nil]
  | case2 afterOperand point c cs hgap ih =>
    rw [scan, if_pos hgap, ← ih, Nat.add_right_comm]
  | case3 afterOperand point c cs hgap hread =>
    have hstop : point + distance + 1 + cs.length = point + 1 + cs.length + distance := by omega
    rw [scan, if_neg hgap, hread, List.map_singleton]
    simp only [hstop]
    rfl
  | case4 afterOperand point c cs hgap kind width hread ih =>
    rw [scan, if_neg hgap, hread, List.map_cons, ← ih]
    simp only [Nat.add_right_comm point distance width]
    rfl

/-- No token ends behind the text. -/
theorem stop_le_of_scan (afterOperand : Bool) (point : Nat) (cs : List Char) :
    ∀ token ∈ scan afterOperand point cs, token.span.stop ≤ point + cs.length := by
  fun_induction scan afterOperand point cs with
  | case1 afterOperand point => exact fun token htoken => nomatch htoken
  | case2 afterOperand point c cs hgap ih =>
    intro token htoken
    have := ih token htoken
    rw [List.length_cons]
    omega
  | case3 afterOperand point c cs hgap hread =>
    refine List.forall_mem_singleton.2 ?_
    dsimp only
    rw [List.length_cons]
    omega
  | case4 afterOperand point c cs hgap kind width hread ih =>
    obtain ⟨word, rest, htext, rfl, hlexeme⟩ := read?_sound hread
    have hlength := congrArg List.length htext
    rw [List.length_cons, List.length_append] at hlength
    have hpos : 0 < word.length := List.length_pos_iff.2 hlexeme.ne_nil
    refine List.forall_mem_cons.2 ⟨?_, fun token htoken => ?_⟩
    · dsimp only
      rw [List.length_cons]
      omega
    · have := ih token htoken
      rw [List.length_drop] at this
      rw [List.length_cons]
      omega

end Token

/-! ## Phrases -/

mutual

/-- A phrase that stands `distance` characters further on. -/
def Phrase.shift (distance : Nat) : Phrase → Phrase
  | .literal value span => .literal value (span.shift distance)
  | .name span => .name (span.shift distance)
  | .prefixed operator mark operand =>
    .prefixed operator (mark.shift distance) (operand.shift distance)
  | .joined left connector mark right =>
    .joined (left.shift distance) connector (mark.shift distance) (right.shift distance)
  | .group opening inner closing =>
    .group (opening.shift distance) (inner.shift distance) (closing.shift distance)
  | .display bracket opening items closing =>
    .display bracket (opening.shift distance) (items.shift distance) (closing.shift distance)
  | .trailed target trailer => .trailed (target.shift distance) (trailer.shift distance)

/-- A trailer that stands further on. -/
def Trailer.shift (distance : Nat) : Trailer → Trailer
  | .attribute dot label => .attribute (dot.shift distance) (label.shift distance)
  | .call opening arguments closing =>
    .call (opening.shift distance) (arguments.shift distance) (closing.shift distance)
  | .subscript opening indices closing =>
    .subscript (opening.shift distance) (indices.shift distance) (closing.shift distance)

/-- An item that stands further on. -/
def Item.shift (distance : Nat) : Item → Item
  | .plain value => .plain (value.shift distance)
  | .named label equals value =>
    .named (label.shift distance) (equals.shift distance) (value.shift distance)
  | .keyed key colon value =>
    .keyed (key.shift distance) (colon.shift distance) (value.shift distance)

/-- Items that stand further on. -/
def Items.shift (distance : Nat) : Items → Items
  | .nil => .nil
  | .last item => .last (item.shift distance)
  | .cons item comma rest =>
    .cons (item.shift distance) (comma.shift distance) (rest.shift distance)

end

variable {distance : Nat}

mutual

theorem Phrase.tokens_shift : (phrase : Phrase) →
    (phrase.shift distance).tokens = phrase.tokens.map (Token.shift distance)
  | .literal _ _ | .name _ => rfl
  | .prefixed _ _ operand => by
    rw [Phrase.shift, Phrase.tokens, Phrase.tokens, operand.tokens_shift]
    rfl
  | .joined left _ _ right => by
    rw [Phrase.shift, Phrase.tokens, Phrase.tokens, left.tokens_shift, right.tokens_shift,
      List.map_append]
    rfl
  | .group _ inner _ => by
    rw [Phrase.shift, Phrase.tokens, Phrase.tokens, inner.tokens_shift, List.map_cons,
      List.map_append]
    rfl
  | .display _ _ items _ => by
    rw [Phrase.shift, Phrase.tokens, Phrase.tokens, items.tokens_shift, List.map_cons,
      List.map_append]
    rfl
  | .trailed target trailer => by
    rw [Phrase.shift, Phrase.tokens, Phrase.tokens, target.tokens_shift, trailer.tokens_shift,
      List.map_append]

theorem Trailer.tokens_shift : (trailer : Trailer) →
    (trailer.shift distance).tokens = trailer.tokens.map (Token.shift distance)
  | .attribute _ _ => rfl
  | .call _ items _ | .subscript _ items _ => by
    rw [Trailer.shift, Trailer.tokens, Trailer.tokens, items.tokens_shift, List.map_cons,
      List.map_append]
    rfl

theorem Item.tokens_shift : (item : Item) →
    (item.shift distance).tokens = item.tokens.map (Token.shift distance)
  | .plain value => value.tokens_shift
  | .named _ _ value => by
    rw [Item.shift, Item.tokens, Item.tokens, value.tokens_shift]
    rfl
  | .keyed key _ value => by
    rw [Item.shift, Item.tokens, Item.tokens, key.tokens_shift, value.tokens_shift,
      List.map_append]
    rfl

theorem Items.tokens_shift : (items : Items) →
    (items.shift distance).tokens = items.tokens.map (Token.shift distance)
  | .nil => rfl
  | .last item => item.tokens_shift
  | .cons item _ rest => by
    rw [Items.shift, Items.tokens, Items.tokens, item.tokens_shift, rest.tokens_shift,
      List.map_append]
    rfl

end

theorem Phrase.strength_shift (phrase : Phrase) :
    (phrase.shift distance).strength = phrase.strength := by
  cases phrase <;> rfl

theorem Items.all_shift {p : Item → Bool} (hp : ∀ item : Item, p (item.shift distance) = p item) :
    (items : Items) → (items.shift distance).all p = items.all p
  | .nil => rfl
  | .last item => hp item
  | .cons item _ rest => by
    rw [shift, all, all, hp, rest.all_shift hp]

theorem Item.isPlain_shift (item : Item) : (item.shift distance).isPlain = item.isPlain := by
  cases item <;> rfl

theorem Item.isKeyed_shift (item : Item) : (item.shift distance).isKeyed = item.isKeyed := by
  cases item <;> rfl

theorem Bracket.admits_shift (bracket : Bracket) (item : Item) :
    bracket.admits (item.shift distance) = bracket.admits item := by
  cases bracket <;> cases item <;> rfl

theorem Items.isSingle_shift (items : Items) :
    (items.shift distance).isSingle = items.isSingle := by
  cases items with
  | last item => cases item <;> rfl
  | _ => rfl

theorem Items.isEmpty_shift (items : Items) :
    (items.shift distance).isEmpty = items.isEmpty := by
  cases items <;> rfl

mutual

/-- A phrase is as well formed further on. -/
theorem Phrase.wellFormed_shift_iff : (phrase : Phrase) →
    ((phrase.shift distance).WellFormed ↔ phrase.WellFormed)
  | .literal _ _ | .name _ => Iff.rfl
  | .prefixed _ _ operand => by
    rw [Phrase.shift, Phrase.WellFormed, Phrase.WellFormed, operand.wellFormed_shift_iff,
      operand.strength_shift]
  | .joined left _ _ right => by
    rw [Phrase.shift, Phrase.WellFormed, Phrase.WellFormed, left.wellFormed_shift_iff,
      right.wellFormed_shift_iff, left.strength_shift, right.strength_shift]
  | .group _ inner _ => inner.wellFormed_shift_iff
  | .display bracket _ items _ => by
    rw [Phrase.shift, Phrase.WellFormed, Phrase.WellFormed, items.wellFormed_shift_iff,
      Items.all_shift bracket.admits_shift, items.isSingle_shift]
  | .trailed target trailer => by
    rw [Phrase.shift, Phrase.WellFormed, Phrase.WellFormed, target.wellFormed_shift_iff,
      trailer.wellFormed_shift_iff, target.strength_shift]

theorem Trailer.wellFormed_shift_iff : (trailer : Trailer) →
    ((trailer.shift distance).WellFormed ↔ trailer.WellFormed)
  | .attribute _ _ => Iff.rfl
  | .call _ items _ => by
    rw [Trailer.shift, Trailer.WellFormed, Trailer.WellFormed, items.wellFormed_shift_iff,
      Items.all_shift fun item => congrArg (!·) item.isKeyed_shift]
  | .subscript _ items _ => by
    rw [Trailer.shift, Trailer.WellFormed, Trailer.WellFormed, items.wellFormed_shift_iff,
      Items.all_shift Item.isPlain_shift, items.isEmpty_shift]

theorem Item.wellFormed_shift_iff : (item : Item) →
    ((item.shift distance).WellFormed ↔ item.WellFormed)
  | .plain value | .named _ _ value => value.wellFormed_shift_iff
  | .keyed key _ value => and_congr key.wellFormed_shift_iff value.wellFormed_shift_iff

theorem Items.wellFormed_shift_iff : (items : Items) →
    ((items.shift distance).WellFormed ↔ items.WellFormed)
  | .nil => Iff.rfl
  | .last item => item.wellFormed_shift_iff
  | .cons item _ rest => and_congr item.wellFormed_shift_iff rest.wellFormed_shift_iff

end

theorem Phrase.wellFormed_shift (phrase : Phrase) (h : phrase.WellFormed) :
    (phrase.shift distance).WellFormed :=
  phrase.wellFormed_shift_iff.2 h

/-! ### Phrases that stand further on -/

/-- A span that is not before `distance`. -/
def Span.IsShifted (distance : Nat) (span : Span) : Prop :=
  ∃ alone : Span, alone.shift distance = span

mutual

/-- A phrase whose tokens all stand further on is one that stands further on. -/
theorem Phrase.exists_shift : (phrase : Phrase) →
    (∀ token ∈ phrase.tokens, token.span.IsShifted distance) →
    ∃ alone : Phrase, alone.shift distance = phrase
  | .literal value span, h => by
    obtain ⟨span, rfl⟩ : span.IsShifted distance := h _ List.mem_cons_self
    exact ⟨.literal value span, rfl⟩
  | .name span, h => by
    obtain ⟨span, rfl⟩ : span.IsShifted distance := h _ List.mem_cons_self
    exact ⟨.name span, rfl⟩
  | .prefixed operator mark operand, h => by
    obtain ⟨hmark, ho⟩ := List.forall_mem_cons.1 h
    obtain ⟨mark, rfl⟩ : mark.IsShifted distance := hmark
    obtain ⟨operand, rfl⟩ := operand.exists_shift ho
    exact ⟨.prefixed operator mark operand, rfl⟩
  | .joined left connector mark right, h => by
    obtain ⟨hl, hbehind⟩ := List.forall_mem_append.1 h
    obtain ⟨hmark, hr⟩ := List.forall_mem_cons.1 hbehind
    obtain ⟨left, rfl⟩ := left.exists_shift hl
    obtain ⟨mark, rfl⟩ : mark.IsShifted distance := hmark
    obtain ⟨right, rfl⟩ := right.exists_shift hr
    exact ⟨.joined left connector mark right, rfl⟩
  | .group opening inner closing, h => by
    obtain ⟨hopening, hbehind⟩ := List.forall_mem_cons.1 h
    obtain ⟨hi, hclosing⟩ := List.forall_mem_append.1 hbehind
    obtain ⟨opening, rfl⟩ : opening.IsShifted distance := hopening
    obtain ⟨inner, rfl⟩ := inner.exists_shift hi
    obtain ⟨closing, rfl⟩ : closing.IsShifted distance := hclosing _ List.mem_cons_self
    exact ⟨.group opening inner closing, rfl⟩
  | .display bracket opening items closing, h => by
    obtain ⟨hopening, hbehind⟩ := List.forall_mem_cons.1 h
    obtain ⟨hi, hclosing⟩ := List.forall_mem_append.1 hbehind
    obtain ⟨opening, rfl⟩ : opening.IsShifted distance := hopening
    obtain ⟨items, rfl⟩ := items.exists_shift hi
    obtain ⟨closing, rfl⟩ : closing.IsShifted distance := hclosing _ List.mem_cons_self
    exact ⟨.display bracket opening items closing, rfl⟩
  | .trailed target trailer, h => by
    obtain ⟨ht, htrailer⟩ := List.forall_mem_append.1 h
    obtain ⟨target, rfl⟩ := target.exists_shift ht
    obtain ⟨trailer, rfl⟩ := trailer.exists_shift htrailer
    exact ⟨.trailed target trailer, rfl⟩

theorem Trailer.exists_shift : (trailer : Trailer) →
    (∀ token ∈ trailer.tokens, token.span.IsShifted distance) →
    ∃ alone : Trailer, alone.shift distance = trailer
  | .attribute dot label, h => by
    obtain ⟨hdot, hlabel⟩ := List.forall_mem_cons.1 h
    obtain ⟨dot, rfl⟩ : dot.IsShifted distance := hdot
    obtain ⟨label, rfl⟩ : label.IsShifted distance := hlabel _ List.mem_cons_self
    exact ⟨.attribute dot label, rfl⟩
  | .call opening items closing, h => by
    obtain ⟨hopening, hbehind⟩ := List.forall_mem_cons.1 h
    obtain ⟨hi, hclosing⟩ := List.forall_mem_append.1 hbehind
    obtain ⟨opening, rfl⟩ : opening.IsShifted distance := hopening
    obtain ⟨items, rfl⟩ := items.exists_shift hi
    obtain ⟨closing, rfl⟩ : closing.IsShifted distance := hclosing _ List.mem_cons_self
    exact ⟨.call opening items closing, rfl⟩
  | .subscript opening items closing, h => by
    obtain ⟨hopening, hbehind⟩ := List.forall_mem_cons.1 h
    obtain ⟨hi, hclosing⟩ := List.forall_mem_append.1 hbehind
    obtain ⟨opening, rfl⟩ : opening.IsShifted distance := hopening
    obtain ⟨items, rfl⟩ := items.exists_shift hi
    obtain ⟨closing, rfl⟩ : closing.IsShifted distance := hclosing _ List.mem_cons_self
    exact ⟨.subscript opening items closing, rfl⟩

theorem Item.exists_shift : (item : Item) →
    (∀ token ∈ item.tokens, token.span.IsShifted distance) →
    ∃ alone : Item, alone.shift distance = item
  | .plain value, h => by
    obtain ⟨value, rfl⟩ := value.exists_shift h
    exact ⟨.plain value, rfl⟩
  | .named label equals value, h => by
    obtain ⟨hlabel, hbehind⟩ := List.forall_mem_cons.1 h
    obtain ⟨hequals, hv⟩ := List.forall_mem_cons.1 hbehind
    obtain ⟨label, rfl⟩ : label.IsShifted distance := hlabel
    obtain ⟨equals, rfl⟩ : equals.IsShifted distance := hequals
    obtain ⟨value, rfl⟩ := value.exists_shift hv
    exact ⟨.named label equals value, rfl⟩
  | .keyed key colon value, h => by
    obtain ⟨hk, hbehind⟩ := List.forall_mem_append.1 h
    obtain ⟨hcolon, hv⟩ := List.forall_mem_cons.1 hbehind
    obtain ⟨key, rfl⟩ := key.exists_shift hk
    obtain ⟨colon, rfl⟩ : colon.IsShifted distance := hcolon
    obtain ⟨value, rfl⟩ := value.exists_shift hv
    exact ⟨.keyed key colon value, rfl⟩

theorem Items.exists_shift : (items : Items) →
    (∀ token ∈ items.tokens, token.span.IsShifted distance) →
    ∃ alone : Items, alone.shift distance = items
  | .nil, _ => ⟨.nil, rfl⟩
  | .last item, h => by
    obtain ⟨item, rfl⟩ := item.exists_shift h
    exact ⟨.last item, rfl⟩
  | .cons item comma rest, h => by
    obtain ⟨hi, hbehind⟩ := List.forall_mem_append.1 h
    obtain ⟨hcomma, hr⟩ := List.forall_mem_cons.1 hbehind
    obtain ⟨item, rfl⟩ := item.exists_shift hi
    obtain ⟨comma, rfl⟩ : comma.IsShifted distance := hcomma
    obtain ⟨rest, rfl⟩ := rest.exists_shift hr
    exact ⟨.cons item comma rest, rfl⟩

end

/-- A text whose tokens further on are those of a phrase is a text of the phrase that stands
    before. -/
theorem Phrase.exists_alone {text : List Char} {phrase : Phrase}
    (htokens : (Token.ofText text).map (Token.shift distance) = phrase.tokens)
    (h : phrase.WellFormed) :
    ∃ alone : Phrase, Phrase.ofText text = .ok alone ∧ alone.shift distance = phrase := by
  have hspans : ∀ token ∈ phrase.tokens, token.span.IsShifted distance := by
    rw [← htokens]
    exact List.forall_mem_map.2 fun token _ => ⟨token.span, rfl⟩
  obtain ⟨alone, rfl⟩ := phrase.exists_shift hspans
  rw [Phrase.tokens_shift] at htokens
  have htokens : Token.ofText text = alone.tokens :=
    (List.map_inj_right fun _ _ h => Token.shift_injective distance h).1 htokens
  exact ⟨alone, Phrase.ofTokens_eq_ok_iff.2 ⟨alone.wellFormed_shift_iff.1 h, htokens.symm⟩, rfl⟩

/-! ### Places -/

theorem Phrase.start_shift : (phrase : Phrase) →
    (phrase.shift distance).start = phrase.start + distance
  | .literal _ _ | .name _ | .prefixed _ _ _ | .group _ _ _ | .display _ _ _ _ => rfl
  | .joined left _ _ _ => left.start_shift
  | .trailed target _ => target.start_shift

theorem Phrase.stop_shift : (phrase : Phrase) →
    (phrase.shift distance).stop = phrase.stop + distance
  | .literal _ _ | .name _ | .group _ _ _ | .display _ _ _ _ => rfl
  | .prefixed _ _ operand => operand.stop_shift
  | .joined _ _ _ right => right.stop_shift
  | .trailed _ trailer => by cases trailer <;> rfl

theorem Phrase.span_shift (phrase : Phrase) :
    (phrase.shift distance).span = phrase.span.shift distance := by
  rw [span, span, phrase.start_shift, phrase.stop_shift, Span.shift]

/-- A phrase starts where its first token starts. -/
theorem Phrase.exists_first : (phrase : Phrase) →
    ∃ token tokens, phrase.tokens = token :: tokens ∧ token.span.start = phrase.start
  | .literal value span => ⟨⟨.literal value, span⟩, [], rfl, rfl⟩
  | .name span => ⟨⟨.name, span⟩, [], rfl, rfl⟩
  | .prefixed operator mark operand => ⟨⟨operator.kind, mark⟩, operand.tokens, rfl, rfl⟩
  | .joined left connector mark right => by
    obtain ⟨token, tokens, htokens, hstart⟩ := left.exists_first
    exact ⟨token, tokens ++ ⟨connector.kind, mark⟩ :: right.tokens,
      by rw [Phrase.tokens, htokens]; rfl, hstart⟩
  | .group opening inner closing => ⟨⟨.opening .round, opening⟩, _, rfl, rfl⟩
  | .display bracket opening items closing => ⟨⟨.opening bracket, opening⟩, _, rfl, rfl⟩
  | .trailed target trailer => by
    obtain ⟨token, tokens, htokens, hstart⟩ := target.exists_first
    exact ⟨token, tokens ++ trailer.tokens, by rw [Phrase.tokens, htokens]; rfl, hstart⟩

/-- A trailer ends where its last token ends, and is complete there. -/
theorem Trailer.exists_last : (trailer : Trailer) →
    ∃ tokens token, trailer.tokens = tokens ++ [token] ∧ token.span.stop = trailer.stop ∧
      token.kind.endsOperand
  | .attribute dot label => ⟨[⟨.dot, dot⟩], ⟨.name, label⟩, rfl, rfl, rfl⟩
  | .call opening items closing =>
    ⟨⟨.opening .round, opening⟩ :: items.tokens, ⟨.closing .round, closing⟩, rfl, rfl, rfl⟩
  | .subscript opening items closing =>
    ⟨⟨.opening .square, opening⟩ :: items.tokens, ⟨.closing .square, closing⟩, rfl, rfl, rfl⟩

/-- A phrase ends where its last token ends, and is complete there. -/
theorem Phrase.exists_last : (phrase : Phrase) →
    ∃ tokens token, phrase.tokens = tokens ++ [token] ∧ token.span.stop = phrase.stop ∧
      token.kind.endsOperand
  | .literal value span => ⟨[], ⟨.literal value, span⟩, rfl, rfl, rfl⟩
  | .name span => ⟨[], ⟨.name, span⟩, rfl, rfl, rfl⟩
  | .prefixed operator mark operand => by
    obtain ⟨tokens, token, htokens, hstop, hk⟩ := operand.exists_last
    exact ⟨⟨operator.kind, mark⟩ :: tokens, token, by rw [Phrase.tokens, htokens]; rfl, hstop, hk⟩
  | .joined left connector mark right => by
    obtain ⟨tokens, token, htokens, hstop, hk⟩ := right.exists_last
    refine ⟨left.tokens ++ ⟨connector.kind, mark⟩ :: tokens, token, ?_, hstop, hk⟩
    rw [Phrase.tokens, htokens, List.append_assoc]
    rfl
  | .group opening inner closing =>
    ⟨⟨.opening .round, opening⟩ :: inner.tokens, ⟨.closing .round, closing⟩, rfl, rfl, rfl⟩
  | .display bracket opening items closing =>
    ⟨⟨.opening bracket, opening⟩ :: items.tokens, ⟨.closing bracket, closing⟩, rfl, rfl, rfl⟩
  | .trailed target trailer => by
    obtain ⟨tokens, token, htokens, hstop, hk⟩ := trailer.exists_last
    refine ⟨target.tokens ++ tokens, token, ?_, hstop, hk⟩
    rw [Phrase.tokens, htokens, List.append_assoc]

theorem Phrase.stop_le {stop : Nat} (phrase : Phrase)
    (h : ∀ token ∈ phrase.tokens, token.span.stop ≤ stop) : phrase.stop ≤ stop := by
  obtain ⟨tokens, token, htokens, hstop, _⟩ := phrase.exists_last
  rw [← hstop]
  refine h token ?_
  rw [htokens]
  exact List.mem_append_right _ List.mem_cons_self

/-- No token of a phrase ends behind its text. -/
theorem Phrase.stop_le_length {text : List Char} {phrase : Phrase}
    (h : Phrase.ofText text = .ok phrase) :
    ∀ token ∈ phrase.tokens, token.span.stop ≤ text.length := by
  rw [tokens_ofTokens h]
  have hstop := Token.stop_le_of_scan false 0 text
  rwa [Nat.zero_add] at hstop

/-! ## Trees -/

/-- The refusals of what is no expression, which tell where in the text it is. -/
def Rejection.IsMalformed : Rejection → Prop
  | .malformed _ _ => True
  | _ => False

theorem Phrase.trailedConstruct_shift : (phrase : Phrase) → (trailer : Trailer) →
    (phrase.shift distance).trailedConstruct (trailer.shift distance) =
      phrase.trailedConstruct trailer
  | .trailed target first, _ => target.trailedConstruct_shift first
  | .literal _ _, trailer | .name _, trailer | .prefixed _ _ _, trailer
  | .joined _ _ _ _, trailer | .group _ _ _, trailer | .display _ _ _ _, trailer => by
    cases trailer <;> rfl

section

variable {text : List Char} (front back : List Char)

theorem Span.unsupported_shift {span : Span} (h : span.stop ≤ text.length) (construct : Construct) :
    (span.shift front.length).unsupported (front ++ (text ++ back)) construct =
      span.unsupported text construct := by
  rw [unsupported, unsupported, of_shift h]

/-- What becomes of the tree of a text, or of its refusal, where the text stands inside a longer
    one: only the column of mixed entries is counted anew. -/
inductive Tree.Moved (front text back : List Char) :
    Except Rejection Tree → Except Rejection Tree → Prop
  | ok (t : Tree) : Moved front text back (.ok t) (.ok t)
  | error (rejection : Rejection) (h : ¬rejection.IsMalformed) :
    Moved front text back (.error rejection) (.error rejection)
  | mixed (point : Nat) :
    Moved front text back (.error (.malformed (Text.column text point) .mixedEntries))
      (.error (.malformed (Text.column (front ++ (text ++ back)) (point + front.length))
        .mixedEntries))

namespace Tree.Moved

variable {front back : List Char} {alone inside : Except Rejection Tree}

theorem map (h : Moved front text back alone inside) (f : Tree → Tree) :
    Moved front text back (alone.map f) (inside.map f) := by
  cases h with
  | ok t => exact .ok (f t)
  | error rejection h => exact .error rejection h
  | mixed point => exact .mixed point

theorem bind (h : Moved front text back alone inside) {f g : Tree → Except Rejection Tree}
    (hnext : ∀ t, Moved front text back (f t) (g t)) :
    Moved front text back (alone >>= f) (inside >>= g) := by
  cases h with
  | ok t => exact hnext t
  | error rejection h => exact .error rejection h
  | mixed point => exact .mixed point

/-- All but the column of mixed entries is the same. -/
theorem eq (h : Moved front text back alone inside)
    (hsome : ∀ rejection, alone = .error rejection → ¬rejection.IsMalformed) : inside = alone := by
  cases h with
  | ok | error => rfl
  | mixed point => exact absurd trivial (hsome _ rfl)

/-- A refusal for a construct is that of the part. -/
theorem eq_unsupported {construct : Construct} {culprit : String}
    (h : Moved front text back alone (.error (.unsupported construct culprit))) :
    alone = .error (.unsupported construct culprit) := by
  cases h
  rfl

end Tree.Moved

theorem Phrase.displayRejection_moved {span : Span} (h : span.stop ≤ text.length)
    (bracket : Bracket) (items : Items) :
    Tree.Moved front text back (.error (displayRejection text bracket items span))
      (.error (displayRejection (front ++ (text ++ back)) bracket (items.shift front.length)
        (span.shift front.length))) := by
  have hplain (items : Items) : (items.shift front.length).all (!·.isKeyed) =
      items.all (!·.isKeyed) :=
    Items.all_shift (fun item => congrArg (!·) item.isKeyed_shift) items
  unfold displayRejection
  simp only [Items.all_shift Item.isKeyed_shift, hplain, Span.unsupported_shift front back h]
  cases bracket with
  | round | square => exact .error _ id
  | curly =>
    dsimp only
    split
    · exact .error _ id
    · split
      · exact .error _ id
      · exact .mixed span.start

/-- A phrase of a text is accepted or refused as before where the text stands inside a longer one,
    apart from the column of mixed entries. -/
theorem Tree.ofChain_moved : (phrase : Phrase) → (chain : Option Logical) →
    (∀ token ∈ phrase.tokens, token.span.stop ≤ text.length) →
    Moved front text back (ofChain text chain phrase)
      (ofChain (front ++ (text ++ back)) chain (phrase.shift front.length))
  | .literal value _, _, _ => by
    rw [Phrase.shift, ofChain, ofChain]
    cases hvalue : value.toConstant with
    | ok constant => exact .ok _
    | error rejection =>
      rw [Literal.eq_overflow_of_toConstant hvalue]
      exact .error _ id
  | .name span, _, h => by
    have hstop := List.forall_mem_singleton.1 h
    rw [Phrase.shift, ofChain, ofChain, Span.unsupported_shift front back hstop]
    exact .error _ id
  | .prefixed _ _ operand, _, h => by
    rw [Phrase.shift, ofChain, ofChain]
    exact (ofChain_moved operand none (List.forall_mem_cons.1 h).2).map _
  | .joined left (.operator operator) _ right, _, h => by
    obtain ⟨hl, hr⟩ := List.forall_mem_append.1 h
    rw [Phrase.shift, ofChain, ofChain]
    refine (ofChain_moved left none hl).bind fun a => ?_
    exact (ofChain_moved right none (List.forall_mem_cons.1 hr).2).bind fun b => .ok _
  | .joined left (.logical connective) mark right, chain, h => by
    have hspan : (Phrase.joined (left.shift front.length) (.logical connective)
        (mark.shift front.length) (right.shift front.length)).span =
          (Phrase.joined left (.logical connective) mark right).span.shift front.length :=
      Phrase.span_shift (.joined left (.logical connective) mark right)
    have hstop := (Phrase.joined left (.logical connective) mark right).stop_le h
    rw [Phrase.shift, ofChain, ofChain, hspan, Span.unsupported_shift front back hstop]
    refine (ofChain_moved left (some connective) (List.forall_mem_append.1 h).1).bind fun a => ?_
    split
    · exact .ok a
    · exact .error _ id
  | .group _ inner _, _, h => by
    rw [Phrase.shift, ofChain, ofChain]
    exact ofChain_moved inner none (List.forall_mem_append.1 (List.forall_mem_cons.1 h).2).1
  | .display bracket opening items closing, _, h => by
    have hstop := (Phrase.display bracket opening items closing).stop_le h
    have hspan : (⟨opening.start, closing.stop⟩ : Span).stop ≤ text.length := hstop
    rw [Phrase.shift, ofChain, ofChain]
    exact Phrase.displayRejection_moved front back hspan bracket items
  | .trailed target trailer, _, h => by
    have hspan : (Phrase.trailed (target.shift front.length) (trailer.shift front.length)).span =
        (Phrase.trailed target trailer).span.shift front.length :=
      Phrase.span_shift (.trailed target trailer)
    have hstop := (Phrase.trailed target trailer).stop_le h
    rw [Phrase.shift, ofChain, ofChain, hspan, Span.unsupported_shift front back hstop,
      target.trailedConstruct_shift trailer]
    exact .error _ id

theorem Tree.ofChain_shift (phrase : Phrase) (chain : Option Logical)
    (h : ∀ token ∈ phrase.tokens, token.span.stop ≤ text.length)
    (hsome : ∀ rejection, ofChain text chain phrase = .error rejection → ¬rejection.IsMalformed) :
    ofChain (front ++ (text ++ back)) chain (phrase.shift front.length) =
      ofChain text chain phrase :=
  (ofChain_moved front back phrase chain h).eq hsome

end

end Calculator
