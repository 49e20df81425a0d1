import Calculator.Evaluator
import Calculator.Text.Blank

/-!
# Sessions

A session asks for one expression after another and answers each on a line of its own, until it is
told to leave or the input ends. Every line is answered by itself: nothing is kept from one line to
the next.

* `Session.answer`: the answer to an expression.
* `Session.reply`: what a line, or the end of the input, leads to.
* `Session.transcript`: all that a session writes, given all that it reads.
-/

namespace Calculator

/-- All that a run of the program leaves behind. -/
structure Outcome where
  exitCode : UInt32
  output : String
  errors : String
  deriving DecidableEq, Repr

namespace Session

/-! ## Answers -/

/-- Told to whoever starts a session. -/
def greeting : String := "Safe calculator. Type 'exit' or 'quit' to leave.\n"

/-- Asks for an expression. -/
def prompt : String := ">>> "

/-- Ends a session. -/
def farewell : String := "Bye.\n"

/-- The words that end a session, in any mixture of capital and small letters. -/
def exitWords : List String := ["exit", "quit", "sair"]

/-- Whether an expression is one of the words that end a session. -/
def isExit (expression : String) : Bool :=
  exitWords.contains (.ofList (expression.toList.map Char.toLower))

/-- A value on a line of its own, or the reason why there is none. -/
def answer (limits : Limits) (expression : String) : String :=
  match evaluate limits expression with
  | .ok value => value.result ++ "\n"
  | .error rejection => "Error: " ++ rejection.message ++ "\n"

/-! ## Replies -/

/-- What is read after a prompt. -/
inductive Event where
  /-- A line, without its line feed. -/
  | line (bytes : ByteArray)
  | endOfInput

/-- What is written after a prompt, and whether that ends the session. -/
inductive Reply where
  | continue (output : String)
  | stop (outcome : Outcome)

/-- The reply to an expression, that is, to a line without white space at its ends. -/
def replyTo (limits : Limits) (expression : String) : Reply :=
  if isExit expression then .stop ⟨0, farewell, ""⟩
  else if expression.isEmpty then .continue ""
  else .continue (answer limits expression)

/-- The reply to a line or to the end of the input. A line that is no text ends the session at
    once. -/
def reply (limits : Limits) : Event → Reply
  | .endOfInput => .stop ⟨0, "\n" ++ farewell, ""⟩
  | .line bytes =>
    match String.fromUTF8? bytes with
    | some text => replyTo limits (.ofList (Text.trim text.toList))
    | none => .stop ⟨1, "", "Error: stream did not contain valid UTF-8\n"⟩

/-! ## Transcripts -/

/-- The lines of `bytes`, after the part of the first one that has been read, its last byte
    first. -/
def linesAfter (read : List UInt8) : List UInt8 → List (List UInt8)
  | [] => if read.isEmpty then [] else [read.reverse]
  | byte :: rest =>
    if byte = 10 then read.reverse :: linesAfter [] rest else linesAfter (byte :: read) rest

/-- The lines of an input, without their line feeds. What follows the last line feed is a line,
    unless it is empty. -/
def lines (bytes : List UInt8) : List (List UInt8) := linesAfter [] bytes

/-- What a session writes from the next prompt on. -/
def converse (limits : Limits) : List (List UInt8) → Outcome
  | [] =>
    match reply limits .endOfInput with
    | .stop outcome => { outcome with output := prompt ++ outcome.output }
    | .continue output => ⟨0, prompt ++ output, ""⟩
  | line :: rest =>
    match reply limits (.line ⟨line.toArray⟩) with
    | .stop outcome => { outcome with output := prompt ++ outcome.output }
    | .continue output =>
      let outcome := converse limits rest
      { outcome with output := prompt ++ output ++ outcome.output }

/-- All that a session writes, given all that it reads. -/
def transcript (limits : Limits) (input : List UInt8) : Outcome :=
  let outcome := converse limits (lines input)
  { outcome with output := greeting ++ outcome.output }

end Session

end Calculator
