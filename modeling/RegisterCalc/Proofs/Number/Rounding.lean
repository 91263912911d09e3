import RegisterCalc.Number.Shortest
import Mathlib.Tactic.Ring

/-!
# Rounding to the nearest point

The nearest point depends on the quotient alone, not on how it is written
(`nearestPoint_congr`), and the exact value of a finite point is rounded to that point
(`readsBack_exactDecimal`). So the decimal that a finite point is written as, which only ever
replaces the exact value by one that reads back, reads back (`readsBack_shortest`).
-/

namespace RegisterCalc

/-- The rounded quotient does not change when both sides are multiplied. -/
theorem divEven_mul_left {c : Nat} (pos : 0 < c) (num den : Nat) :
    divEven (c * num) (c * den) = divEven num den := by
  have half : 2 * (c * (num % den)) < c * den ↔ 2 * (num % den) < den := by
    rw [Nat.mul_left_comm]
    exact Nat.mul_lt_mul_left pos
  have tie : 2 * (c * (num % den)) = c * den ↔ 2 * (num % den) = den := by
    rw [Nat.mul_left_comm]
    exact Nat.mul_right_inj pos.ne'
  simp only [divEven, Nat.mul_div_mul_left _ _ pos, Nat.mul_mod_mul_left, half, tie]

/-- A quotient without a rest is rounded to itself. -/
theorem divEven_mul_self {den : Nat} (pos : 0 < den) (n : Nat) : divEven (n * den) den = n := by
  simp [divEven, pos]

namespace Binary64

/-! ## The quotient alone -/

/-- The nearest point does not change when both sides of the quotient are multiplied. -/
theorem nearestPoint_mul_left {c : Nat} (pos : 0 < c) (num den : Nat) :
    nearestPoint (c * num) (c * den) = nearestPoint num den := by
  unfold nearestPoint
  generalize 1074 = least
  dsimp only
  rw [Nat.mul_assoc c num, Nat.mul_div_mul_left _ _ pos, Nat.mul_assoc c den, divEven_mul_left pos]

/-- Equal quotients have the same nearest point. -/
theorem nearestPoint_congr {num den num' den' : Nat} (pos : 0 < den) (pos' : 0 < den')
    (same : num * den' = num' * den) : nearestPoint num den = nearestPoint num' den' := by
  calc nearestPoint num den = nearestPoint (den' * num) (den' * den) :=
        (nearestPoint_mul_left pos' num den).symm
    _ = nearestPoint (den * num') (den * den') := by
        rw [Nat.mul_comm den' num, same, Nat.mul_comm num' den, Nat.mul_comm den' den]
    _ = nearestPoint num' den' := nearestPoint_mul_left pos num' den'

/-! ## Exact values -/

/-- A point is its significand above the points of the scales below its own. -/
theorem scale_add_significand (n : Nat) : scale n * 2 ^ 52 + significand n = n := by
  have : scale n * 2 ^ 52 ≤ n := by
    calc scale n * 2 ^ 52 ≤ n / 2 ^ 52 * 2 ^ 52 := Nat.mul_le_mul_right _ (Nat.sub_le _ _)
      _ ≤ n := Nat.div_mul_le_self _ _
  unfold significand
  omega

/-- The scale of a point is the one that its distance from zero calls for: its significand has 53
bits, or there is no scale below. -/
theorem log2_steps_sub (n : Nat) : (steps n).log2 - 52 = scale n := by
  have split := scale_add_significand n
  rcases Nat.eq_zero_or_pos (scale n) with least | above
  · have small : significand n < 2 ^ 53 := by
      have : n / 2 ^ 52 - 1 = 0 := least
      omega
    rw [steps, least, Nat.pow_zero, Nat.mul_one]
    rcases Nat.eq_zero_or_pos (significand n) with zero | pos
    · rw [zero]
      rfl
    · have := (Nat.log2_lt pos.ne').2 small
      omega
  · have bits : 2 ^ 52 ≤ significand n ∧ significand n < 2 ^ 53 := by
      have : n / 2 ^ 52 - 1 = scale n := rfl
      omega
    have pos : 0 < 2 ^ scale n := Nat.two_pow_pos _
    have log : (significand n * 2 ^ scale n).log2 = 52 + scale n := by
      refine (Nat.log2_eq_iff (Nat.mul_pos (by omega) pos).ne').2 ⟨?_, ?_⟩
      · rw [Nat.pow_add]
        exact Nat.mul_le_mul_right _ bits.1
      · rw [Nat.add_right_comm, Nat.pow_add]
        exact Nat.mul_lt_mul_of_pos_right bits.2 pos
    rw [steps, log]
    omega

/-- A finite point is the nearest one to its own distance from zero. -/
theorem nearestPoint_steps {n : Nat} (finite : n < infinity) :
    nearestPoint (steps n) (2 ^ 1074) = n := by
  unfold nearestPoint
  generalize 1074 = least
  have pos : 0 < 2 ^ least := Nat.two_pow_pos least
  have scaled : steps n * 2 ^ least = significand n * (2 ^ least * 2 ^ scale n) := by
    rw [steps, Nat.mul_assoc, Nat.mul_comm (2 ^ scale n)]
  dsimp only
  rw [Nat.mul_div_cancel _ pos, log2_steps_sub, scaled,
    divEven_mul_self (Nat.mul_pos pos (Nat.two_pow_pos _)), scale_add_significand]
  exact Nat.min_eq_left finite.le

/-- The exact decimal of a point has the value of the point. -/
theorem exactDecimal_value (n : Nat) :
    (exactDecimal n).coefficient * 2 ^ 1074 = steps n * 10 ^ (exactDecimal n).places := by
  unfold exactDecimal steps
  generalize 1074 = least
  split
  case isTrue whole =>
    obtain ⟨above, split⟩ := Nat.exists_eq_add_of_le whole
    rw [split, Nat.add_sub_cancel_left, Nat.pow_add]
    ring
  case isFalse fractional =>
    have split : least = scale n + (least - scale n) := by omega
    generalize least - scale n = below at split ⊢
    have ten : (10 : Nat) ^ below = 5 ^ below * 2 ^ below := by rw [← Nat.mul_pow]
    rw [split, ten, Nat.pow_add]
    ring

/-- The exact value of a finite point is rounded to that point. -/
theorem readsBack_exactDecimal {n : Nat} (finite : n < infinity) :
    readsBack n (exactDecimal n) := by
  have pos : 0 < 2 ^ 1074 := by apply Nat.two_pow_pos
  have same := nearestPoint_congr (Nat.pow_pos (by decide)) pos (exactDecimal_value n)
  have nearest := nearestPoint_steps finite
  rw [← same] at nearest
  exact decide_eq_true nearest

/-! ## The decimal that is written -/

/-- Rounding the exact value gives a decimal only if it reads back. -/
theorem readsBack_roundTo {n unit : Nat} {exact d : Decimal} (h : roundTo n exact unit = some d) :
    readsBack n d := by
  unfold roundTo at h
  exact List.find?_some h

/-- What is left after dropping digits reads back, if the exact value does. -/
theorem readsBack_shortestDropping {n : Nat} {exact : Decimal} (h : readsBack n exact)
    (dropped : Nat) : readsBack n (shortestDropping n exact dropped) := by
  induction dropped with
  | zero => exact h
  | succ dropped ih =>
    unfold shortestDropping
    split
    · exact readsBack_roundTo ‹_›
    · exact ih

/-- The decimal that a finite point is written as reads back as that point. -/
theorem readsBack_shortest {n : Nat} (finite : n < infinity) : readsBack n (shortest n) :=
  readsBack_shortestDropping (readsBack_exactDecimal finite) _

end Binary64

end RegisterCalc
