import Calculator.Decimal.Shortest
import Calculator.Number

/-!
# The text of numbers

An integer is written in decimal. A double is written with the fewest digits that read back, and
always so that it cannot be taken for an integer: with a point (`4.0`, `0.1`) or, from `10 ^ 16` on
and below `10 ^ -4`, with an exponent (`1e+16`, `1.5e-07`).

* `Decimal.text`: a positive decimal in that notation.
* `Number.text`: any number.
* `Number.result`: the same, but whole doubles are written out as integers.
-/

namespace Calculator

/-! ## Decimals -/

namespace Decimal

/-- Exponents of ten are written out with a sign and two digits at least. -/
def exponentText (n : Int) : List Char :=
  let digits := Nat.toDigits 10 n.natAbs
  (if n < 0 then '-' else '+') :: (List.replicate (2 - digits.length) '0' ++ digits)

/-- One digit, the others after a point if there are any, and the power of ten of the first. -/
def scientific (digits : List Char) (magnitude : Int) : List Char :=
  let fraction := digits.drop 1
  digits.take 1 ++ (if fraction.isEmpty then [] else '.' :: fraction) ++
    'e' :: exponentText magnitude

/-- The digits around a point, filled up with zeros on both sides as needed. -/
def positional (digits : List Char) (magnitude : Int) : List Char :=
  if magnitude < 0 then
    '0' :: '.' :: (List.replicate (-magnitude - 1).toNat '0' ++ digits)
  else
    let whole := magnitude.toNat + 1
    let fraction := digits.drop whole
    digits.take whole ++ List.replicate (whole - digits.length) '0' ++
      '.' :: (if fraction.isEmpty then ['0'] else fraction)

/-- Numbers from `10 ^ -4` up to `10 ^ 16`, this one excluded, are written without exponent. -/
def IsPositional (magnitude : Int) : Prop := -4 ≤ magnitude ∧ magnitude < 16

instance (magnitude : Int) : Decidable (IsPositional magnitude) := by
  unfold IsPositional; infer_instance

/-- The text of a positive decimal. -/
def text (d : Decimal) : List Char :=
  if IsPositional d.magnitude then positional d.digits d.magnitude
  else scientific d.digits d.magnitude

end Decimal

/-! ## Integers and doubles -/

/-- An integer in decimal. -/
def integerText (n : Int) : List Char :=
  (if n < 0 then ['-'] else []) ++ Nat.toDigits 10 n.natAbs

open Float.Model.UnpackedFloat (Sign) in
/-- The mark of a negative number. -/
def signText : Sign → List Char
  | .negative => ['-']
  | .positive => []

/-- A double, marked as one. -/
def floatText (x : Float) : List Char :=
  match Binary64.parts x with
  | .notANumber => ['n', 'a', 'n']
  | .infinity sign => signText sign ++ ['i', 'n', 'f']
  | .zero sign => signText sign ++ ['0', '.', '0']
  | .finite sign significand exponent _ =>
    signText sign ++ (Decimal.shortest significand exponent).text

namespace Number

/-- The text of a number. -/
def text : Number → String
  | .integer n => .ofList (integerText n.toInt)
  | .float x => .ofList (floatText x)

/-! ## Results -/

/-- The text of a result: whole numbers are written as integers, with all their digits; zero has no
    sign. -/
def result : Number → String
  | .integer n => .ofList (integerText n.toInt)
  | .float x =>
    if Binary64.isIntegral x then .ofList (integerText (Binary64.truncated x))
    else .ofList (floatText x)

end Number

end Calculator
