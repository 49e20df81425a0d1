import Calculator.CommandLine

/-!
# The program

Reads arguments and input, and writes what `Calculator.CommandLine` and `Calculator.Session` make of
them.
-/

namespace Calculator.Main

/-- Reads up to and without the next line feed; none at the end of the input. -/
partial def readLine (stream : IO.FS.Stream) (read : ByteArray) : IO (Option ByteArray) := do
  let bytes ← stream.read 1
  match bytes[0]? with
  | none => return if read.isEmpty then none else some read
  | some byte => if byte = 10 then return some read else readLine stream (read.push byte)

/-- Writes an outcome to the standard streams. -/
def write (outcome : Outcome) : IO UInt32 := do
  IO.print outcome.output
  IO.eprint outcome.errors
  return outcome.exitCode

/-- Asks and answers until the session stops. -/
partial def converse (limits : Limits) : IO UInt32 := do
  let stdout ← IO.getStdout
  IO.print Session.prompt
  stdout.flush
  let line ← readLine (← IO.getStdin) .empty
  let event := match line with
    | some bytes => Session.Event.line bytes
    | none => Session.Event.endOfInput
  match Session.reply limits event with
  | .continue output => IO.print output; converse limits
  | .stop outcome => write outcome

end Calculator.Main

/-- Evaluates the expression in the arguments, or holds a session. -/
def main (arguments : List String) : IO UInt32 := do
  match Calculator.CommandLine.read? arguments with
  | none =>
    IO.eprintln "Usage: calculator [--max-length N] [--max-depth N] [EXPRESSION]"
    return 2
  | some invocation =>
    match invocation.expression with
    | some expression =>
      Calculator.Main.write (Calculator.CommandLine.oneShot invocation.limits expression)
    | none =>
      IO.print Calculator.Session.greeting
      Calculator.Main.converse invocation.limits
