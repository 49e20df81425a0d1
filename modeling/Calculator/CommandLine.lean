import Calculator.Session

/-!
# The command line

One expression to evaluate, or none for a session, and options for the limits.

* `CommandLine.natural?`: the numbers that options take.
* `CommandLine.read?`: what arguments ask for, if they make sense.
* `CommandLine.oneShot`: the outcome for a single expression.
* `CommandLine.outcome?`: the outcome for all arguments.
-/

namespace Calculator.CommandLine

/-! ## Arguments -/

/-- What the arguments ask for. -/
structure Invocation where
  maxLength : Option Nat := none
  maxDepth : Option Nat := none
  expression : Option String := none
  deriving DecidableEq, Repr

/-- The limits of an invocation. -/
def Invocation.limits (invocation : Invocation) : Limits :=
  let standard : Limits := {}
  ⟨invocation.maxLength.getD standard.maxLength, invocation.maxDepth.getD standard.maxDepth⟩

/-- A natural number below `2 ^ 64`, in decimal, perhaps with a plus sign. -/
def natural? (text : String) : Option Nat :=
  let digits :=
    match text.toList with
    | '+' :: digits => digits
    | digits => digits
  if digits.isEmpty || !digits.all Char.isDigit then none
  else
    let n := Nat.ofDigitChars 10 digits 0
    if n < UInt64.size then some n else none

/-- Sets the greatest length, once. -/
def setLength (invocation : Invocation) (value : String) : Option Invocation :=
  if invocation.maxLength.isSome then none
  else (natural? value).map fun n => { invocation with maxLength := some n }

/-- Sets the greatest depth, once. -/
def setDepth (invocation : Invocation) (value : String) : Option Invocation :=
  if invocation.maxDepth.isSome then none
  else (natural? value).map fun n => { invocation with maxDepth := some n }

/-- Sets the expression, once. -/
def setExpression (invocation : Invocation) (value : String) : Option Invocation :=
  if invocation.expression.isSome then none
  else some { invocation with expression := some value }

/-- Whether an argument is an option, or means to be one. -/
def looksLikeOption (argument : String) : Bool :=
  argument.startsWith "-" && argument != "-"

/-- The value of an option that is written as one argument. -/
def valueOf? (option argument : String) : Option String :=
  let start := option.toList ++ ['=']
  if start.isPrefixOf argument.toList then some (.ofList (argument.toList.drop start.length))
  else none

/-- Reads arguments; none if they make no sense. -/
def readFrom (invocation : Invocation) : List String → Option Invocation
  | [] => some invocation
  | argument :: rest =>
    if argument = "--" then
      rest.foldlM setExpression invocation
    else if argument = "--max-length" ∨ argument = "--max-depth" then
      match rest with
      | [] => none
      | value :: rest =>
        if value.startsWith "-" then none
        else
          let next? :=
            if argument = "--max-length" then setLength invocation value
            else setDepth invocation value
          match next? with
          | some next => readFrom next rest
          | none => none
    else
      let next? :=
        match valueOf? "--max-length" argument, valueOf? "--max-depth" argument with
        | some value, _ => setLength invocation value
        | none, some value => setDepth invocation value
        | none, none => if looksLikeOption argument then none else setExpression invocation argument
      match next? with
      | some next => readFrom next rest
      | none => none

/-- What the arguments ask for; none if they make no sense. -/
def read? (arguments : List String) : Option Invocation := readFrom {} arguments

/-! ## Outcomes -/

/-- The outcome for a single expression: its value, or the reason why there is none as an error. -/
def oneShot (limits : Limits) (expression : String) : Outcome :=
  let expression := String.ofList (Text.trim expression.toList)
  match evaluate limits expression with
  | .ok value => ⟨0, value.result ++ "\n", ""⟩
  | .error rejection => ⟨1, "", "Error: " ++ rejection.message ++ "\n"⟩

/-- The outcome for these arguments and this input; none if the arguments make no sense. -/
def outcome? (arguments : List String) (input : List UInt8) : Option Outcome :=
  (read? arguments).map fun invocation =>
    match invocation.expression with
    | some expression => oneShot invocation.limits expression
    | none => Session.transcript invocation.limits input

end Calculator.CommandLine
