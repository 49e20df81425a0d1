import Calculator.Number

/-!
# Arithmetic

Two integers give an integer, computed exactly and then checked against the range; as soon as one
operand is a double, both are. True division always gives a double, and so does a negative exponent.

* `add`, `sub`, `mul`, `neg`, `div`: the elementary operations.
* `floorDiv`, `mod`: division rounding down, and its remainder with the sign of the divisor.
* `pow`: powers, refused where no real number is their value; `powWith` leaves open how those of
  doubles are computed.
-/

namespace Calculator.Number

/-! ## Sums, products and quotients -/

/-- The sum. -/
def add : Number → Number → Except MathError Number
  | .integer a, .integer b => ofInt (a.toInt + b.toInt)
  | a, b => .ok (.float (a.asFloat + b.asFloat))

/-- The difference. -/
def sub : Number → Number → Except MathError Number
  | .integer a, .integer b => ofInt (a.toInt - b.toInt)
  | a, b => .ok (.float (a.asFloat - b.asFloat))

/-- The product. -/
def mul : Number → Number → Except MathError Number
  | .integer a, .integer b => ofInt (a.toInt * b.toInt)
  | a, b => .ok (.float (a.asFloat * b.asFloat))

/-- The negation; that of the least integer is out of range. -/
def neg : Number → Except MathError Number
  | .integer a => ofInt (-a.toInt)
  | .float x => .ok (.float (-x))

/-- True division; also that of two integers is a double. -/
def div (a b : Number) : Except MathError Number :=
  if b.asFloat == 0 then .error .divisionByZero else .ok (.float (a.asFloat / b.asFloat))

/-! ## Floored division -/

/-- Division rounding toward negative infinity. -/
def floorDiv : Number → Number → Except MathError Number
  | .integer a, .integer b =>
    if b = 0 then .error .floorDivisionByZero else ofInt (a.toInt.fdiv b.toInt)
  | a, b =>
    if b.asFloat == 0 then .error .floorDivisionByZero
    else .ok (.float (Binary64.floorDivMod a.asFloat b.asFloat).1)

/-- The remainder of floored division, which has the sign of the divisor. -/
def mod : Number → Number → Except MathError Number
  | .integer a, .integer b =>
    if b = 0 then .error .moduloByZero else ofInt (a.toInt.fmod b.toInt)
  | a, b =>
    if b.asFloat == 0 then .error .moduloByZero
    else .ok (.float (Binary64.floorDivMod a.asFloat b.asFloat).2)

/-! ## Powers -/

/-- Exact integer powers. Zero and the units have powers in range for every exponent, decided by its
    parity; of any other base, no power from the 64th on is in range. -/
def integerPow (base : Int) (exponent : Nat) : Except MathError Number :=
  if base = 1 ∨ base = 0 ∧ exponent ≠ 0 then ofInt base
  else if base = -1 then ofInt (if exponent % 2 = 0 then 1 else -1)
  else if 64 ≤ exponent ∧ base ≠ 0 then .error .overflow
  else ofInt (Int.pow base exponent)

section

variable (power : Float → Float → Float)

/-- Powers of doubles, computed by `power`. Zero has no negative power, a negative number no
    fractional one, and finite operands have no infinite result. -/
def floatPow (base exponent : Float) : Except MathError Float :=
  if exponent == 0 then .ok 1
  else if base == 0 && exponent < 0 then .error .zeroToNegativePower
  else if base < 0 && base.isFinite && exponent.isFinite && !Binary64.isIntegral exponent then
    .error .complexResult
  else
    let result := power base exponent
    if result.isInf && base.isFinite && exponent.isFinite then .error .overflow else .ok result

/-- Powers, where `power` computes those of doubles. -/
def powWith : Number → Number → Except MathError Number
  | .integer a, .integer b =>
    if 0 ≤ b then integerPow a.toInt b.toInt.toNat
    else if a = 0 then .error .zeroToNegativePower
    else (floatPow power (Binary64.ofInt a.toInt) (Binary64.ofInt b.toInt)).map .float
  | a, b => (floatPow power a.asFloat b.asFloat).map .float

end

/-- Powers, those of doubles by `Float.pow`. -/
def pow : Number → Number → Except MathError Number := powWith Float.pow

end Calculator.Number
