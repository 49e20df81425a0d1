/-!
# Exact operations on doubles

A double is unpacked into its sign, a whole significand and a power of two, and the operations
below are computed exactly on these before they are packed again.

* `ofInt`: the double nearest to an integer.
* `isIntegral`, `truncated`, `floor`: whole numbers among the doubles.
* `remainder`: the exact remainder of the truncated quotient, with the sign of the dividend.
* `floorDivMod`: floored quotient and remainder, the remainder with the sign of the divisor.
-/

namespace Calculator.Binary64

open Float.Model (UnpackedFloat)
open Float.Model.UnpackedFloat (Sign)

/-! ## Packing -/

/-- The parts of a double: a signed zero, infinity or finite number, or no number at all. -/
def parts (x : Float) : UnpackedFloat := x.toModel.unpack

/-- The double with these parts. -/
def pack (parts : UnpackedFloat) : Float := .ofModel (.pack parts)

/-- The double nearest to `n · 2 ^ exponent`; `zeroSign` is the sign of the result for `n = 0`. -/
def scaled (n : Int) (exponent : Int) (zeroSign : Sign) : Float :=
  pack (.normalize Float.Model.Format.binary64 n exponent zeroSign)

/-- The double nearest to an integer, of two equally near ones the one with even significand. -/
def ofInt (n : Int) : Float := scaled n 0 .positive

/-- Not a number. -/
def nan : Float := pack .notANumber

/-- The sign of a double; what is not a number counts as positive. -/
def signOf (x : Float) : Sign :=
  match parts x with
  | .infinity sign | .zero sign | .finite sign _ _ _ => sign
  | .notANumber => .positive

/-- Zero with the sign of `x`. -/
def zeroLike (x : Float) : Float := pack (.zero (signOf x))

/-! ## Whole numbers -/

/-- Finite and without fractional part. -/
def isIntegral (x : Float) : Bool :=
  match parts x with
  | .zero _ => true
  | .finite _ significand exponent _ => significand % Nat.pow 2 (-exponent).toNat == 0
  | .infinity _ | .notANumber => false

/-- The whole part of a double, toward zero; zero for what has none. -/
def truncated (x : Float) : Int :=
  match parts x with
  | .finite sign significand exponent _ =>
    sign.apply (significand * Nat.pow 2 exponent.toNat / Nat.pow 2 (-exponent).toNat : Nat)
  | .infinity _ | .zero _ | .notANumber => 0

/-- The greatest whole number that is not above `x`. -/
def floor (x : Float) : Float :=
  match parts x with
  | .finite sign significand exponent _ =>
    if 0 ≤ exponent then x
    else scaled (sign.apply significand / (Nat.pow 2 (-exponent).toNat : Nat)) 0 sign
  | .infinity _ | .zero _ | .notANumber => x

/-! ## Remainders and floored quotients -/

/-- `a - b · n`, where `n` is `a / b` without its fractional part. It is computed exactly, on the
    grid of the operand with the smaller unit, and carries the sign of `a`. -/
def remainder (a b : Float) : Float :=
  match parts a, parts b with
  | .finite sign m e _, .finite _ n f _ =>
    let unit := min e f
    scaled (sign.apply ((m <<< (e - unit).toNat % n <<< (f - unit).toNat : Nat))) unit sign
  | .finite _ _ _ _, .infinity _ => a
  | .zero _, .finite _ _ _ _ => a
  | .zero _, .infinity _ => a
  | _, _ => nan

/-- Floored quotient and remainder of `a` by a nonzero `b`. The remainder of truncated division is
    moved to the sign of `b`; the quotient `(a - r) / b` is whole up to rounding and is snapped to
    the whole number that it stands for. A zero in either place keeps the sign that its exact limit
    has. -/
def floorDivMod (a b : Float) : Float × Float :=
  let truncated := remainder a b
  let ratio := (a - truncated) / b
  let (quotient, rest) :=
    if truncated != 0 then
      if (b < 0) != (truncated < 0) then (ratio - 1, truncated + b) else (ratio, truncated)
    else (ratio, zeroLike b)
  let whole :=
    if quotient != 0 then
      let below := floor quotient
      if quotient - below > 0.5 then below + 1 else below
    else zeroLike (a / b)
  (whole, rest)

end Calculator.Binary64
