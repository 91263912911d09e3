import RegisterCalc.Number.Nearest

/-!
# Whole numbers in doubles

Operators on bits take a double to the 64-bit word of its truncation and take the resulting word
back. `truncate` drops the fraction and clamps what a word cannot hold; `ofInt` rounds to the
nearest double, a tie to the even significand.
-/

namespace RegisterCalc

/-- A 64-bit word, read as a two's-complement number. -/
abbrev Word := BitVec 64

namespace Binary64

/-- The whole part of `x`, clamped to the range of a word; zero where `x` is not a number. -/
def truncate (x : Float) : Int :=
  let n := point x
  let whole : Nat := steps n / 2 ^ 1074
  if infinity < n then 0
  else if isNegative x then -(min whole (2 ^ 63) : Nat)
  else (min whole (2 ^ 63 - 1) : Nat)

/-- The double nearest to a whole number. -/
def ofInt (i : Int) : Float := ofPoint (decide (i < 0)) (nearestPoint i.natAbs 1)

/-- The word of a double. -/
def toWord (x : Float) : Word := BitVec.ofInt 64 (truncate x)

/-- The double nearest to the value of a word. -/
def ofWord (w : Word) : Float := ofInt w.toInt

end Binary64

end RegisterCalc
