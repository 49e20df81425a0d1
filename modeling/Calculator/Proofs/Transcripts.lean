import Calculator.CommandLine
import Calculator.Proofs.OneLine
import Mathlib

/-!
# Transcripts of sessions

A session writes one answer, on one line, for each line that it reads, and what it writes about a
line is what the program writes about that line alone. What comes after the line that ends a session
does not matter.

* `Text.encode`: the bytes of a text.
* `Session.inputLines`: the lines of an input, split at line feeds, without the carriage return
  before a line feed.
* `Session.readings`: the expressions on these lines.
* `Session.answered`, `Session.ending`: the expressions that are answered, and how a session ends.

Results:
* `Session.isExit_iff`: the words that end a session.
* `Session.converse_eq`: what is written about lines.
* `Session.transcript_eq`: what is written about an input.
-/

namespace Calculator

/-! ## Texts as bytes -/

namespace Text

/-- The bytes of a text. -/
def encode (cs : List Char) : List UInt8 := cs.flatMap String.utf8EncodeChar

theorem encode_append (front back : List Char) :
    encode (front ++ back) = encode front ++ encode back :=
  List.flatMap_append

/-- The bytes that are a text are those of its characters. -/
theorem fromUTF8?_eq_some_iff {bytes : List UInt8} {text : String} :
    String.fromUTF8? ⟨bytes.toArray⟩ = some text ↔ bytes = encode text.toList := by
  have hencode : text.toByteArray = ⟨(encode text.toList).toArray⟩ := by
    rw [← String.utf8Encode_toList]
    exact ByteArray.ext List.data_toByteArray
  unfold String.fromUTF8?
  split
  · rw [Option.some_inj, ← String.toByteArray_inj, hencode]
    simp [String.fromUTF8]
  · rename_i hinvalid
    refine ⟨fun h => (by cases h), fun h => absurd ?_ hinvalid⟩
    rw [h, ← hencode]
    exact text.isValidUTF8

/-- A character is one small byte, or its last byte is not small. -/
theorem utf8EncodeChar_cases (c : Char) :
    c.toNat < 128 ∧ String.utf8EncodeChar c = [.ofNat c.toNat] ∨
      ∃ front, String.utf8EncodeChar c = front ++ [.ofNat (c.toNat % 64 + 128)] := by
  unfold String.utf8EncodeChar
  dsimp only
  split
  · rename_i hsmall
    exact .inl ⟨Nat.lt_succ_of_le hsmall, rfl⟩
  · refine .inr ?_
    split_ifs
    · exact ⟨[_], rfl⟩
    · exact ⟨[_, _], rfl⟩
    · exact ⟨[_, _, _], rfl⟩

/-- Without its last character, a text that ends with a small byte is a text again. -/
theorem exists_of_encode_eq_concat {cs : List Char} {bytes : List UInt8} {last : UInt8}
    (h : encode cs = bytes ++ [last]) (hlast : last.toNat < 128) :
    ∃ front c, cs = front ++ [c] ∧ encode front = bytes ∧ c.toNat = last.toNat := by
  rcases List.eq_nil_or_concat' cs with rfl | ⟨front, c, rfl⟩
  · simp [encode] at h
  · have hsingle : encode [c] = String.utf8EncodeChar c := List.flatMap_singleton _ c
    rw [encode_append, hsingle] at h
    rcases utf8EncodeChar_cases c with ⟨hsmall, hchar⟩ | ⟨start, hchar⟩
    · rw [hchar] at h
      obtain ⟨hfront, heq⟩ := List.append_inj' h rfl
      have hnat : (UInt8.ofNat c.toNat).toNat = c.toNat % 256 := UInt8.toNat_ofNat'
      rw [(List.cons.inj heq).1] at hnat
      exact ⟨front, c, rfl, hfront, by omega⟩
    · rw [hchar, ← List.append_assoc] at h
      obtain ⟨_, heq⟩ := List.append_inj' h rfl
      have hnat : (UInt8.ofNat (c.toNat % 64 + 128)).toNat = (c.toNat % 64 + 128) % 256 :=
        UInt8.toNat_ofNat'
      rw [(List.cons.inj heq).1] at hnat
      omega

theorem newline_notMem_of_encode {cs : List Char} (h : 10 ∉ encode cs) : '\n' ∉ cs := by
  intro hmem
  exact h (List.mem_flatMap.2 ⟨'\n', hmem, by decide⟩)

theorem trimEnd_concat_carriage (cs : List Char) : trimEnd (cs ++ ['\r']) = trimEnd cs := by
  have hblank : isBlank '\r' := by decide
  simp [trimEnd, hblank]

/-- A carriage return at the end is white space. -/
theorem trim_concat_carriage (cs : List Char) : trim (cs ++ ['\r']) = trim cs := by
  have hblank : isBlank '\r' := by decide
  unfold trim
  rw [List.dropWhile_append]
  split
  · rename_i hempty
    rw [List.isEmpty_iff.1 hempty]
    simp [hblank]
  · exact trimEnd_concat_carriage _

theorem mem_of_mem_trim {c : Char} {cs : List Char} (h : c ∈ trim cs) : c ∈ cs := by
  unfold trim trimEnd at h
  have hreversed := (List.dropWhile_sublist _).subset (List.mem_reverse.1 h)
  exact (List.dropWhile_sublist _).subset (List.mem_reverse.1 hreversed)

/-- A text without white space at its ends. -/
def trimmed (text : String) : String := .ofList (trim text.toList)

/-! ### Capital and small letters -/

/-- Two characters become one small letter: the letter itself, and its capital. -/
theorem toLower_eq_iff {c d : Char} (hd : d.isLower) : c.toLower = d ↔ c = d ∨ c = d.toUpper := by
  have hsmall : d.toLower = d := Char.toLower_eq_of_not_isUpper (Char.not_isUpper_of_isLower hd)
  constructor
  · rintro rfl
    by_cases hc : c.isUpper
    · have hcapital : c.toUpper = c :=
        Char.toUpper_eq_of_not_isLower (Char.not_isLower_of_isUpper hc)
      exact .inr (by rw [Char.toUpper_toLower_eq_toUpper, hcapital])
    · exact .inl (Char.toLower_eq_of_not_isUpper hc).symm
  · rintro (rfl | rfl)
    · exact hsmall
    · rw [Char.toLower_toUpper_eq_toLower, hsmall]

theorem map_toLower_eq_iff {cs ds : List Char} (hsmall : ∀ d ∈ ds, d.isLower) :
    cs.map Char.toLower = ds ↔ List.Forall₂ (fun c d => c = d ∨ c = d.toUpper) cs ds := by
  induction ds generalizing cs with
  | nil => rw [List.map_eq_nil_iff, List.forall₂_nil_right_iff]
  | cons d ds ih =>
    obtain ⟨hd, hds⟩ := List.forall_mem_cons.1 hsmall
    cases cs with
    | nil => simp
    | cons c cs =>
      rw [List.map_cons, List.cons_eq_cons, List.forall₂_cons, toLower_eq_iff hd, ih hds]

end Text

namespace Session

/-! ## Words to leave -/

/-- Three words end a session, each of their letters capital or small. -/
theorem isExit_iff (expression : String) :
    isExit expression ↔ ∃ word ∈ ["exit", "quit", "sair"],
      List.Forall₂ (fun c d => c = d ∨ c = d.toUpper) expression.toList word.toList := by
  have hword (word : String) : String.ofList (expression.toList.map Char.toLower) = word ↔
      expression.toList.map Char.toLower = word.toList := by
    rw [← String.toList_inj, String.toList_ofList]
  have hsmall : ∀ word ∈ ["exit", "quit", "sair"], ∀ d ∈ word.toList, d.isLower := by
    simp
  constructor
  · intro hexit
    have hmem := List.contains_iff_mem.1 hexit
    exact ⟨_, hmem, (Text.map_toLower_eq_iff (hsmall _ hmem)).1 ((hword _).1 rfl)⟩
  · rintro ⟨word, hmem, hletters⟩
    rw [isExit, (hword word).2 ((Text.map_toLower_eq_iff (hsmall word hmem)).2 hletters)]
    exact List.contains_iff_mem.2 hmem

/-! ## Readings -/

/-- A line without a carriage return at its end. -/
def dropCarriage (line : List UInt8) : List UInt8 :=
  if line.getLast? = some 13 then line.dropLast else line

/-- The lines of an input. What follows the last line feed is a line, unless it is empty; of all
    other lines, the line feed and a carriage return before it are dropped. -/
def inputLines (input : List UInt8) : List (List UInt8) :=
  let parts := input.splitOn 10
  parts.dropLast.map dropCarriage ++ parts.getLast?.toList.filter (!·.isEmpty)

/-- The expression on a line, without white space at its ends; none if the line is no text. -/
def expression? (line : List UInt8) : Option String :=
  (String.fromUTF8? ⟨line.toArray⟩).map Text.trimmed

/-- The expressions on the lines of an input. -/
def readings (input : List UInt8) : List (Option String) := (inputLines input).map expression?

/-- Whether a reading ends a session: a line that is no text does, and a word to leave. -/
def stops : Option String → Bool
  | some expression => isExit expression
  | none => true

/-- The expressions up to the one that ends a session. -/
def answered (readings : List (Option String)) : List String :=
  (readings.takeWhile (!stops ·)).reduceOption

/-- What is written about an expression. -/
def response (limits : Limits) (expression : String) : String :=
  if expression = "" then "" else answer limits expression

/-- How a session ends: at a word to leave, at a line that is no text, or at the end of input. -/
def ending (readings : List (Option String)) : Outcome :=
  match readings.find? stops with
  | some (some _) => ⟨0, "Bye.\n", ""⟩
  | some none => ⟨1, "", "Error: stream did not contain valid UTF-8\n"⟩
  | none => ⟨0, "\nBye.\n", ""⟩

/-- A session from its first prompt on: what is written about each expression that is answered,
    behind a prompt, and then how the session ends, behind a last prompt. -/
def dialogue (limits : Limits) (readings : List (Option String)) : Outcome :=
  { ending readings with
    output := String.join ((answered readings).map fun expression =>
      ">>> " ++ response limits expression) ++ (">>> " ++ (ending readings).output) }

/-! ### Lines -/

/-- The lines that the parts between line feeds make. -/
def linesOfParts (parts : List (List UInt8)) : List (List UInt8) :=
  parts.dropLast ++ parts.getLast?.toList.filter (!·.isEmpty)

theorem linesOfParts_cons (part : List UInt8) {parts : List (List UInt8)} (h : parts ≠ []) :
    linesOfParts (part :: parts) = part :: linesOfParts parts := by
  rw [linesOfParts, List.dropLast_cons_of_ne_nil h, List.getLast?_cons_of_ne_nil h]
  rfl

theorem modifyHead_nil_append (parts : List (List UInt8)) :
    parts.modifyHead (List.reverse [] ++ ·) = parts :=
  congrFun List.modifyHead_id parts

theorem linesAfter_eq (read bytes : List UInt8) :
    linesAfter read bytes = linesOfParts ((bytes.splitOn 10).modifyHead (read.reverse ++ ·)) := by
  induction bytes generalizing read with
  | nil =>
    have hempty : read.reverse.isEmpty = read.isEmpty := by simp
    rw [linesAfter, List.splitOn_nil, List.modifyHead_cons, List.append_nil]
    cases hread : read.isEmpty <;> simp [linesOfParts, hempty, hread]
  | cons byte bytes ih =>
    rw [linesAfter, List.splitOn_cons_eq_if_modifyHead]
    by_cases hfeed : byte = 10
    · rw [if_pos hfeed, if_pos (beq_iff_eq.2 hfeed), List.modifyHead_cons, List.append_nil,
        linesOfParts_cons _ (List.splitOn_ne_nil _ _), ih, modifyHead_nil_append]
    · rw [if_neg hfeed, if_neg (fun h => hfeed (beq_iff_eq.1 h)), List.modifyHead_modifyHead, ih]
      simp [Function.comp_def]

theorem lines_eq (input : List UInt8) : lines input = linesOfParts (input.splitOn 10) := by
  rw [lines, linesAfter_eq, modifyHead_nil_append]

/-- A carriage return at the end of a line is not read. -/
theorem expression?_concat_carriage (line : List UInt8) :
    expression? (line ++ [13]) = expression? line := by
  unfold expression?
  cases hline : String.fromUTF8? ⟨line.toArray⟩ with
  | some text =>
    have hbytes := Text.fromUTF8?_eq_some_iff.1 hline
    have hlonger : String.fromUTF8? ⟨(line ++ [13]).toArray⟩ =
        some (.ofList (text.toList ++ ['\r'])) := by
      rw [Text.fromUTF8?_eq_some_iff, String.toList_ofList, Text.encode_append, ← hbytes]
      rfl
    rw [hlonger, Option.map_some, Option.map_some, Text.trimmed, String.toList_ofList,
      Text.trim_concat_carriage, ← Text.trimmed]
  | none =>
    cases hlonger : String.fromUTF8? ⟨(line ++ [13]).toArray⟩ with
    | none => rfl
    | some text =>
      obtain ⟨front, c, _, hfront, _⟩ := Text.exists_of_encode_eq_concat
        (Text.fromUTF8?_eq_some_iff.1 hlonger).symm (by decide)
      have hshorter : String.fromUTF8? ⟨line.toArray⟩ = some (.ofList front) := by
        rw [Text.fromUTF8?_eq_some_iff, String.toList_ofList, hfront]
      rw [hline] at hshorter
      cases hshorter

theorem expression?_dropCarriage (line : List UInt8) :
    expression? (dropCarriage line) = expression? line := by
  unfold dropCarriage
  split
  · rename_i hlast
    rw [← expression?_concat_carriage line.dropLast, List.dropLast_append_getLast? 13 hlast]
  · rfl

/-- The carriage returns before line feeds do not matter. -/
theorem map_expression?_lines (input : List UInt8) :
    (lines input).map expression? = readings input := by
  have hdrop : expression? ∘ dropCarriage = expression? := funext expression?_dropCarriage
  rw [lines_eq, readings, inputLines, linesOfParts, List.map_append, List.map_append, List.map_map,
    hdrop]

/-! ### Conversations -/

theorem replyTo_eq (limits : Limits) (expression : String) :
    replyTo limits expression =
      if isExit expression then .stop ⟨0, "Bye.\n", ""⟩
      else .continue (response limits expression) := by
  unfold replyTo response
  by_cases hempty : expression = "" <;> simp [hempty, farewell]

theorem dialogue_none (limits : Limits) (readings : List (Option String)) :
    dialogue limits (none :: readings) =
      ⟨1, ">>> ", "Error: stream did not contain valid UTF-8\n"⟩ := by
  have hstop : (none :: readings).find? stops = some none := List.find?_cons_of_pos rfl
  simp [dialogue, ending, answered, hstop, stops]

theorem dialogue_exit (limits : Limits) {expression : String} (h : isExit expression)
    (readings : List (Option String)) :
    dialogue limits (some expression :: readings) = ⟨0, ">>> Bye.\n", ""⟩ := by
  simp [dialogue, ending, answered, stops, h]

theorem dialogue_answer (limits : Limits) {expression : String} (h : isExit expression = false)
    (readings : List (Option String)) :
    dialogue limits (some expression :: readings) =
      { dialogue limits readings with
        output := ">>> " ++ response limits expression ++ (dialogue limits readings).output } := by
  have hgo : stops (some expression) = false := h
  have hanswered : answered (some expression :: readings) = expression :: answered readings := by
    simp [answered, hgo]
  have hending : ending (some expression :: readings) = ending readings := by
    simp [ending, hgo]
  rw [dialogue, hanswered, hending, List.map_cons, String.join_cons, String.append_assoc]
  rfl

/-- What a session writes, line by line, as the readings of the lines tell. -/
theorem reply_line (limits : Limits) (line : List UInt8) :
    reply limits (.line ⟨line.toArray⟩) =
      match expression? line with
      | some expression =>
        if isExit expression then .stop ⟨0, "Bye.\n", ""⟩
        else .continue (response limits expression)
      | none => .stop ⟨1, "", "Error: stream did not contain valid UTF-8\n"⟩ := by
  rw [reply, expression?]
  cases String.fromUTF8? ⟨line.toArray⟩ with
  | none => rfl
  | some text => exact replyTo_eq limits _

theorem converse_eq (limits : Limits) (read : List (List UInt8)) :
    converse limits read = dialogue limits (read.map expression?) := by
  induction read with
  | nil => rfl
  | cons line read ih =>
    rw [List.map_cons, converse, reply_line, ih]
    cases expression? line with
    | none =>
      rw [dialogue_none]
      rfl
    | some expression =>
      cases hexit : isExit expression with
      | true =>
        rw [dialogue_exit limits hexit]
        simp only [hexit, if_true]
        rfl
      | false =>
        rw [dialogue_answer limits hexit]
        simp only [hexit, Bool.false_eq_true, if_false, prompt]

/-! ### Answers -/

theorem notMem_of_mem_splitOn {bytes part : List UInt8} (h : part ∈ bytes.splitOn 10) :
    10 ∉ part := by
  induction bytes generalizing part with
  | nil =>
    rw [List.splitOn_nil, List.mem_singleton] at h
    rw [h]
    exact List.not_mem_nil
  | cons byte bytes ih =>
    rw [List.splitOn_cons_eq_if_modifyHead] at h
    by_cases hfeed : byte = 10
    · rw [if_pos (beq_iff_eq.2 hfeed)] at h
      rcases List.mem_cons.1 h with rfl | h
      · exact List.not_mem_nil
      · exact ih h
    · rw [if_neg (fun h => hfeed (beq_iff_eq.1 h))] at h
      obtain ⟨first, rest, hparts⟩ := List.exists_cons_of_ne_nil (List.splitOn_ne_nil 10 bytes)
      rw [hparts, List.modifyHead_cons] at h
      rw [hparts] at ih
      rcases List.mem_cons.1 h with rfl | h
      · exact List.not_mem_cons_of_ne_of_not_mem (Ne.symm hfeed) (ih List.mem_cons_self)
      · exact ih (List.mem_cons_of_mem first h)

/-- The lines of an input have no line feed. -/
theorem notMem_of_mem_inputLines {input line : List UInt8} (h : line ∈ inputLines input) :
    10 ∉ line := by
  rcases List.mem_append.1 h with h | h
  · obtain ⟨part, hpart, rfl⟩ := List.mem_map.1 h
    have hfeed := notMem_of_mem_splitOn (List.dropLast_subset _ hpart)
    unfold dropCarriage
    split
    · exact fun hmem => hfeed (List.dropLast_subset _ hmem)
    · exact hfeed
  · have hlast := List.mem_of_mem_filter h
    exact notMem_of_mem_splitOn (List.mem_of_getLast? (Option.mem_toList.1 hlast))

/-- The text of a line has no line feed. -/
theorem oneLine_trimmed {line : List UInt8} {text : String} (hline : 10 ∉ line)
    (htext : String.fromUTF8? ⟨line.toArray⟩ = some text) :
    Text.OneLine (Text.trimmed text) := by
  rw [Text.fromUTF8?_eq_some_iff.1 htext] at hline
  exact Text.oneLine_ofList.2 fun hmem =>
    Text.newline_notMem_of_encode hline (Text.mem_of_mem_trim hmem)

/-- The line that the program writes about a text alone: its value, or the reason why it has
    none. -/
def WrittenAlone (limits : Limits) (text written : String) : Prop :=
  (∃ v, evaluate limits (Text.trimmed text) = .ok v ∧ written = v.result ∧
    CommandLine.oneShot limits text = ⟨0, written ++ "\n", ""⟩) ∨
  ∃ rejection, evaluate limits (Text.trimmed text) = .error rejection ∧
    written = "Error: " ++ rejection.message ∧
    CommandLine.oneShot limits text = ⟨1, "", written ++ "\n"⟩

/-- What a session writes about a text without line feed is one line, the one that is written about
    this text alone. -/
theorem exists_writtenAlone (limits : Limits) {text : String}
    (h : Text.OneLine (Text.trimmed text)) :
    ∃ written, answer limits (Text.trimmed text) = written ++ "\n" ∧ Text.OneLine written ∧
      WrittenAlone limits text written := by
  cases hvalue : evaluate limits (Text.trimmed text) with
  | ok v =>
    have hanswer : answer limits (Text.trimmed text) = v.result ++ "\n" := by
      rw [answer, hvalue]
    have honeShot : CommandLine.oneShot limits text = ⟨0, v.result ++ "\n", ""⟩ := by
      rw [CommandLine.oneShot, ← Text.trimmed, hvalue]
    exact ⟨v.result, hanswer, v.oneLine_result, .inl ⟨v, hvalue, rfl, honeShot⟩⟩
  | error rejection =>
    have hanswer : answer limits (Text.trimmed text) =
        "Error: " ++ rejection.message ++ "\n" := by
      rw [answer, hvalue]
    have honeShot : CommandLine.oneShot limits text =
        ⟨1, "", "Error: " ++ rejection.message ++ "\n"⟩ := by
      rw [CommandLine.oneShot, ← Text.trimmed, hvalue]
    have herror : Text.OneLine "Error: " := by decide
    exact ⟨"Error: " ++ rejection.message, hanswer,
      herror.append (Rejection.oneLine_of_evaluate h hvalue),
      .inr ⟨rejection, hvalue, rfl, honeShot⟩⟩

/-! ### Whole inputs -/

/-- Behind a line feed, new lines begin. -/
theorem inputLines_append (front tail : List UInt8) :
    inputLines (front ++ 10 :: tail) = inputLines (front ++ [10]) ++ inputLines tail := by
  have hne := List.splitOn_ne_nil 10 tail
  simp only [inputLines, List.splitOn_append_cons_self, List.splitOn_nil, List.dropLast_concat,
    List.getLast?_concat, List.dropLast_append_of_ne_nil hne, List.map_append]
  rw [List.getLast?_append_of_ne_nil _ hne]
  simp

/-- The readings behind one that ends a session do not matter. -/
theorem dialogue_append (limits : Limits) {front : List (Option String)}
    (h : ∃ reading ∈ front, stops reading) (back : List (Option String)) :
    dialogue limits (front ++ back) = dialogue limits front := by
  induction front with
  | nil =>
    obtain ⟨reading, hmem, _⟩ := h
    cases hmem
  | cons reading front ih =>
    rw [List.cons_append]
    cases reading with
    | none => rw [dialogue_none, dialogue_none]
    | some expression =>
      cases hexit : isExit expression with
      | true => rw [dialogue_exit limits hexit, dialogue_exit limits hexit]
      | false =>
        obtain ⟨reading, hmem, hstop⟩ := h
        have hlater : reading ∈ front := by
          rcases List.mem_cons.1 hmem with rfl | hlater
          · rw [stops, hexit] at hstop
            cases hstop
          · exact hlater
        rw [dialogue_answer limits hexit, dialogue_answer limits hexit, ih ⟨reading, hlater, hstop⟩]

/-- **What a session writes**: a greeting, then behind each prompt what it writes about the next
    line, up to the line that ends it or the end of the input, and then how it ends. What it writes
    about a line that is not blank is one line, the same as about this line alone. What comes behind
    the line that ends it does not matter. The words to leave are `exit`, `quit` and `sair`, in
    capital or small letters. -/
theorem transcript_eq (limits : Limits) (input : List UInt8) :
    transcript limits input =
        { dialogue limits (readings input) with
          output := "Safe calculator. Type 'exit' or 'quit' to leave.\n" ++
            (dialogue limits (readings input)).output } ∧
      (∀ line ∈ inputLines input, ∀ text, String.fromUTF8? ⟨line.toArray⟩ = some text →
        ∃ written, answer limits (Text.trimmed text) = written ++ "\n" ∧ Text.OneLine written ∧
          WrittenAlone limits text written) ∧
      (∀ front tail, input = front ++ 10 :: tail →
        (∃ reading ∈ readings (front ++ [10]), stops reading) →
        ∀ other, transcript limits (front ++ 10 :: other) = transcript limits input) ∧
      ∀ expression, isExit expression ↔ ∃ word ∈ ["exit", "quit", "sair"],
        List.Forall₂ (fun c d => c = d ∨ c = d.toUpper) expression.toList word.toList := by
  have htranscript (input : List UInt8) : transcript limits input =
      { dialogue limits (readings input) with
        output := greeting ++ (dialogue limits (readings input)).output } := by
    rw [transcript, converse_eq, map_expression?_lines]
  refine ⟨htranscript input, fun line hline text htext => ?_, fun front tail heq hstop other => ?_,
    isExit_iff⟩
  · exact exists_writtenAlone limits (oneLine_trimmed (notMem_of_mem_inputLines hline) htext)
  · have hdialogue (tail : List UInt8) : dialogue limits (readings (front ++ 10 :: tail)) =
        dialogue limits (readings (front ++ [10])) := by
      rw [readings, inputLines_append, List.map_append]
      exact dialogue_append limits hstop _
    rw [heq, htranscript, htranscript, hdialogue tail, hdialogue other]

end Session

end Calculator
