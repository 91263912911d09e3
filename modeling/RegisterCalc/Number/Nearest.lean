import RegisterCalc.Number.Binary64

/-!
# The nearest double

`nearestPoint num den` is the number of the point nearest to the quotient `num / den`, a tie going
to the even significand. A quotient at or past the middle between the last finite point and the one
that would follow it gives infinity. Main statements: `two_mul_mul_divEven_le` and
`le_two_mul_mul_divEven` put the rounded quotient within half a unit of the exact one.
-/

namespace RegisterCalc

/-- The whole number nearest to `num / den`, the even one of two that are equally near. -/
def divEven (num den : Nat) : Nat :=
  let down := num / den
  let left := num % den
  if 2 * left < den ∨ (2 * left = den ∧ down % 2 = 0) then down else down + 1

/-- The rounded quotient is at most half a unit above the exact one. -/
theorem two_mul_mul_divEven_le (num : Nat) {den : Nat} (h : 0 < den) :
    2 * (den * divEven num den) ≤ 2 * num + den := by
  have split := Nat.div_add_mod num den
  have below := Nat.mod_lt num h
  unfold divEven
  dsimp only
  split
  · omega
  · rw [Nat.mul_add]; omega

/-- The rounded quotient is at most half a unit below the exact one. -/
theorem le_two_mul_mul_divEven (num : Nat) {den : Nat} (h : 0 < den) :
    2 * num ≤ 2 * (den * divEven num den) + den := by
  have split := Nat.div_add_mod num den
  have below := Nat.mod_lt num h
  unfold divEven
  dsimp only
  split
  · omega
  · rw [Nat.mul_add]; omega

namespace Binary64

/-- The number of the point nearest to `num / den`. The scale is the one at which the quotient
has 53 significant bits, or zero where it has fewer in least steps; a significand that rounds up to
`2 ^ 53` carries into the next scale by the addition. -/
def nearestPoint (num den : Nat) : Nat :=
  let exact := num * 2 ^ 1074
  let k := (exact / den).log2 - 52
  min (k * 2 ^ 52 + divEven exact (den * 2 ^ k)) infinity

/-- The double nearest to `num / den`. -/
def nearest (num den : Nat) : Float := ofPoint false (nearestPoint num den)

end Binary64

end RegisterCalc
