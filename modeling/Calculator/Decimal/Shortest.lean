import Calculator.Decimal

/-!
# Shortest decimals

The decimal with the fewest digits that reads back as a given positive double, and of those the
nearest to it; an exact tie between two goes to the larger.

* `Decimal.neighbours`: the decimals with so many digits around an exact one, nearest first.
* `Decimal.shortest`: the first neighbour, over a growing number of digits, that reads back.
* `Decimal.toFloat_shortened?`: it does read back.
-/

namespace Calculator.Decimal

/-- The two decimals around `d` whose last digit is `dropped` places before the last one of `d`, the
    nearer one first. Those that are more than half of `reach` away are left out. -/
def neighbours (d : Decimal) (reach dropped : Nat) : List Decimal :=
  let unit := Nat.pow 10 dropped
  let below := d.significand / unit
  let rest := d.significand % unit
  let missing := unit - rest
  let exponent := d.exponent + dropped
  let lower := if 2 * rest ≤ reach then [⟨below, exponent⟩] else []
  let upper := if 2 * missing ≤ reach then [⟨below + 1, exponent⟩] else []
  if rest < missing then lower ++ upper else upper ++ lower

/-- The greatest number of digits that a double can need. -/
def maxDigits : Nat := 17

/-- The first neighbour of `d` with fewer digits that reads back as `x`, in the order of the number
    of digits. -/
def shortened? (x : Float) (d : Decimal) (reach : Nat) : Option Decimal :=
  let count := d.digits.length
  (List.range (min maxDigits (count - 1))).findSome? fun n =>
    (d.neighbours reach (count - 1 - n)).find? fun candidate => candidate.toFloat = x

/-- The shortest decimal for the positive double `significand · 2 ^ exponent`. What reads back is at
    most half a unit of its last binary place away. -/
def shortest (significand : Nat) (exponent : Int) : Decimal :=
  let d := ofBinary significand exponent
  let reach := (ofBinary 1 exponent).significand
  ((shortened? (Binary64.scaled significand exponent .positive) d reach).getD d).reduced

/-! ## Reading back -/

theorem toFloat_shortened? {x : Float} {d c : Decimal} {reach : Nat}
    (h : shortened? x d reach = some c) : c.toFloat = x := by
  obtain ⟨n, -, hn⟩ := List.exists_of_findSome?_eq_some h
  simpa using List.find?_some hn

end Calculator.Decimal
