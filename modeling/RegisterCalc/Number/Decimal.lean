import RegisterCalc.Number.Nearest

/-!
# Decimals

A decimal is a coefficient and a number of places after the point. `Decimal.ofNumeral?` reads one
from a run of digits and points, `Decimal.text` writes one without an exponent, and
`Decimal.nearest` is the double next to it.
-/

namespace RegisterCalc

/-- The number `coefficient / 10 ^ places`. -/
structure Decimal where
  coefficient : Nat
  places : Nat
  deriving DecidableEq, Repr

namespace Decimal

/-- The double nearest to a decimal, infinity included. -/
def nearest (d : Decimal) : Float := Binary64.nearest d.coefficient (10 ^ d.places)

/-- The decimal that a numeral denotes: digits with at most one point before, among or after them,
and at least one digit. -/
def ofNumeral? (numeral : List Char) : Option Decimal :=
  let whole := numeral.takeWhile (· ≠ '.')
  let fraction := (numeral.dropWhile (· ≠ '.')).drop 1
  let digits := whole ++ fraction
  if digits ≠ [] ∧ digits.all Char.isDigit then
    some ⟨Nat.ofDigitChars 10 digits 0, fraction.length⟩
  else
    none

/-- The places of a decimal as digits, without the zeros that end them. -/
def fractionDigits (d : Decimal) : List Char :=
  let digits := Nat.toDigits 10 (d.coefficient % 10 ^ d.places)
  let padded := List.replicate (d.places - digits.length) '0' ++ digits
  ((padded.take d.places).reverse.dropWhile (· = '0')).reverse

/-- A decimal written out in full: the whole part, then, where it is not zero, a point and the
fraction. -/
def text (d : Decimal) : String :=
  let whole := Nat.repr (d.coefficient / 10 ^ d.places)
  match d.fractionDigits with
  | [] => whole
  | fraction => whole ++ "." ++ String.ofList fraction

end Decimal

end RegisterCalc
