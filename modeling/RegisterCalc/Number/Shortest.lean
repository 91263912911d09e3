import RegisterCalc.Number.Decimal

/-!
# The text of a number

A number is written with the fewest digits that read back as the same number; of the decimals with
so few digits the nearest is taken, and the greater one of two that are equally near. There is never
an exponent, and a whole number has no point.
-/

namespace RegisterCalc

namespace Binary64

/-- The exact value of point `n`, as a decimal. -/
def exactDecimal (n : Nat) : Decimal :=
  if 1074 ≤ scale n then
    ⟨significand n * 2 ^ (scale n - 1074), 0⟩
  else
    ⟨significand n * 5 ^ (1074 - scale n), 1074 - scale n⟩

/-- Whether a decimal is read as point `n`. -/
def readsBack (n : Nat) (d : Decimal) : Bool :=
  nearestPoint d.coefficient (10 ^ d.places) = n

/-- The multiple of `unit` next to the coefficient of `exact` that reads back as point `n`, if one
of the two neighbours does: the nearer, or the greater of two equally near. -/
def roundTo (n : Nat) (exact : Decimal) (unit : Nat) : Option Decimal :=
  let down := exact.coefficient / unit * unit
  let up := down + unit
  let neighbours :=
    if exact.coefficient - down < up - exact.coefficient then [down, up] else [up, down]
  (neighbours.map (Decimal.mk · exact.places)).find? (readsBack n)

/-- The coarsest rounding of `exact` that reads back as point `n` and drops at most `dropped` of its
digits; `exact` itself where none can be dropped. -/
def shortestDropping (n : Nat) (exact : Decimal) : (dropped : Nat) → Decimal
  | 0 => exact
  | dropped + 1 =>
    match roundTo n exact (10 ^ (dropped + 1)) with
    | some d => d
    | none => shortestDropping n exact dropped

/-- The shortest decimal that reads back as point `n`. -/
def shortest (n : Nat) : Decimal :=
  let exact := exactDecimal n
  shortestDropping n exact ((Nat.toDigits 10 exact.coefficient).length - 1)

end Binary64

/-- The text of a number; the sign of zero is kept, that of a value that is not a number is not. -/
def numberText (x : Float) : String :=
  let n := Binary64.point x
  let sign := if Binary64.isNegative x then "-" else ""
  if Binary64.infinity < n then "NaN"
  else if n = Binary64.infinity then sign ++ "inf"
  else sign ++ (Binary64.shortest n).text

end RegisterCalc
