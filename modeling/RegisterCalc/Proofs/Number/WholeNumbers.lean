import RegisterCalc.Proofs.Number.Bits
import RegisterCalc.Proofs.Number.NearestEven

/-!
# Whole numbers and doubles

The word of a double is that of its truncation: its value rounded toward zero and then clamped to
the words, zero for what is not a number, and the last number on its side for an infinity
(`isTruncation_iff`). The double of a whole number is the only one that the number is rounded to, a
tie going to the even significand (`roundsToEven_ofInt_iff`).

Up to `2 ^ 53` on either side of zero whole numbers are the values of doubles (`value_ofInt`), so
they come back from there (`truncate_ofInt`).
-/

namespace RegisterCalc.Binary64

/-! ## Truncation -/

/-- The whole part of a number, which is no further from zero than the number. -/
def towardZero (q : ℚ) : ℤ := if 0 ≤ q then ⌊q⌋ else ⌈q⌉

/-- The value of a word that is next to a whole number. -/
def clamp (i : ℤ) : ℤ := max (-2 ^ 63) (min i (2 ^ 63 - 1))

/-- The whole number that a double is truncated to. -/
structure IsTruncation (x : Float) (a : ℤ) : Prop where
  notNumber : x.isNaN → a = 0
  finite : isFinite x → a = clamp (towardZero (value x))
  infinite : ¬x.isNaN → ¬isFinite x → a = if isNegative x then (-2 ^ 63 : ℤ) else (2 ^ 63 - 1 : ℤ)

/-- The whole parts of opposite numbers are opposite. -/
theorem towardZero_neg (q : ℚ) : towardZero (-q) = -towardZero q := by
  unfold towardZero
  rcases lt_trichotomy q 0 with below | rfl | above
  · rw [if_pos (by linarith), if_neg (by linarith), Int.floor_neg]
  · simp
  · rw [if_neg (by linarith), if_pos (by linarith), Int.ceil_neg]

/-- A whole number is its own whole part. -/
theorem towardZero_intCast (i : ℤ) : towardZero i = i := by
  unfold towardZero
  split
  · exact Int.floor_intCast i
  · exact Int.ceil_intCast i

/-- The whole part of the distance of a point, by the division of its steps. -/
theorem towardZero_magnitude (n : Nat) : towardZero (magnitude n) = (steps n / 2 ^ 1074 : Nat) := by
  rw [towardZero, if_pos (magnitude_nonneg n), magnitude]
  exact Rat.floor_natCast_div_natCast _ _

/-- The values of words are clamped to themselves. -/
theorem clamp_of_fits {i : ℤ} (fits : Bits.Fits 63 i) : clamp i = i := by
  obtain ⟨low, high⟩ := fits
  unfold clamp
  omega

/-- Infinity is so far from zero that its distance is clamped. -/
theorem le_steps_infinity : 2 ^ 63 ≤ steps infinity / 2 ^ 1074 := by
  decide +kernel

/-- A double has the truncation that is computed from its sign and its point. -/
theorem isTruncation_truncate (x : Float) : IsTruncation x (truncate x) := by
  constructor
  · intro notNumber
    exact if_pos ((isNaN_iff x).1 notNumber)
  · intro finite
    have below : point x < infinity := of_decide_eq_true finite
    rw [truncate, if_neg below.not_gt, value]
    split
    · rw [towardZero_neg, towardZero_magnitude]
      generalize steps (point x) / 2 ^ 1074 = whole
      unfold clamp
      omega
    · rw [towardZero_magnitude]
      generalize steps (point x) / 2 ^ 1074 = whole
      unfold clamp
      omega
  · intro number notFinite
    have atMost : point x ≤ infinity := not_lt.1 (mt (isNaN_iff x).2 number)
    have atLeast : infinity ≤ point x := not_lt.1 (mt decide_eq_true notFinite)
    have far := le_steps_infinity
    rw [truncate, if_neg atMost.not_gt, atMost.antisymm atLeast]
    generalize steps infinity / 2 ^ 1074 = whole at far ⊢
    split <;> omega

/-- A double has one truncation. -/
theorem isTruncation_iff {x : Float} {a : ℤ} : IsTruncation x a ↔ a = truncate x := by
  constructor
  · intro h
    have computed := isTruncation_truncate x
    by_cases notNumber : x.isNaN
    · rw [h.notNumber notNumber, computed.notNumber notNumber]
    · by_cases finite : isFinite x
      · rw [h.finite finite, computed.finite finite]
      · rw [h.infinite notNumber finite, computed.infinite notNumber finite]
  · rintro rfl
    exact isTruncation_truncate x

/-- A truncation is the value of a word. -/
theorem fits_truncate (x : Float) : Bits.Fits 63 (truncate x) := by
  unfold truncate Bits.Fits
  dsimp only
  generalize steps (point x) / 2 ^ 1074 = whole
  split
  · decide
  · split <;> omega

/-- The word of a double has its truncation as value. -/
theorem toInt_toWord (x : Float) : (toWord x).toInt = truncate x := (fits_truncate x).toInt_ofInt

/-! ## Rounding -/

/-- A number is rounded to the finite double `x`: no other is nearer, and where one of another value
is equally near, the significand of `x` is even. A double that is zero has no sign then, unless the
number is below zero. -/
structure RoundsToEven (q : ℚ) (x : Float) : Prop where
  finite : isFinite x
  sign : isNegative x = decide (q < 0)
  nearest : ∀ y, isFinite y → |q - value x| ≤ |q - value y|
  even : ∀ y, isFinite y → value y ≠ value x → |q - value y| = |q - value x| →
    significand (point x) % 2 = 0

/-- The opposite of a finite double has the opposite value. -/
theorem value_neg {x : Float} (finite : isFinite x) : value (-x) = -value x := by
  rw [value, value, isNegative_neg finite, point_neg finite]
  cases isNegative x <;> simp

/-- What is not negative is rounded to doubles without a sign. -/
theorem roundsToEven_iff_of_nonneg {q : ℚ} (notNegative : 0 ≤ q) (x : Float) :
    RoundsToEven q x ↔ RoundsTo q x := by
  have sign : decide (q < 0) = false := decide_eq_false notNegative.not_gt
  constructor
  · intro h
    exact ⟨h.finite, h.sign.trans sign, h.nearest, h.even⟩
  · intro h
    exact ⟨h.finite, h.positive.trans sign.symm, h.nearest, h.even⟩

/-- Opposite numbers are rounded to opposite doubles. -/
theorem RoundsToEven.neg {q : ℚ} {x : Float} (h : RoundsToEven q x) (notZero : q ≠ 0) :
    RoundsToEven (-q) (-x) := by
  have mirrored {y : Float} (finite : isFinite y) : |-q - value y| = |q - value (-y)| := by
    rw [value_neg finite, ← abs_neg]
    ring_nf
  have mirroredBack : |-q - value (-x)| = |q - value x| := by
    rw [mirrored (isFinite_neg h.finite), neg_neg_of_finite h.finite]
  refine ⟨isFinite_neg h.finite, ?_, fun y finite => ?_, fun y finite other tie => ?_⟩
  · rw [isNegative_neg h.finite, h.sign]
    rcases lt_or_gt_of_ne notZero with below | above
    · rw [decide_eq_true below, decide_eq_false (by linarith)]
      rfl
    · rw [decide_eq_false above.not_gt, decide_eq_true (by linarith)]
      rfl
  · rw [mirroredBack, mirrored finite]
    exact h.nearest _ (isFinite_neg finite)
  · rw [point_neg h.finite]
    refine h.even (-y) (isFinite_neg finite) ?_ ?_
    · rw [value_neg finite]
      rw [value_neg h.finite] at other
      exact fun same => other (by rw [← same, neg_neg])
    · rw [← mirrored finite, tie, mirroredBack]

/-- A whole number below the middle between the last finite double and infinity is rounded to its
double, and to no other. -/
theorem roundsToEven_ofInt_iff {i : ℤ} (small : (i.natAbs : ℚ) < 2 ^ 1024 - 2 ^ 970) (x : Float) :
    RoundsToEven i x ↔ x = ofInt i := by
  have small : (i.natAbs / (1 : Nat) : ℚ) < 2 ^ 1024 - 2 ^ 970 := by rwa [Nat.cast_one, div_one]
  have finite := (nearestPoint_lt_infinity_iff i.natAbs Nat.one_pos).2 small
  obtain ⟨n, same, nearest⟩ := exists_isNearestEven_magnitude i.natAbs Nat.one_pos
  have here : nearestPoint i.natAbs 1 = n := by omega
  rw [← here, Nat.cast_one, div_one] at nearest
  have rounded := roundsTo_iff (Nat.cast_nonneg _) finite nearest
  simp only [← roundsToEven_iff_of_nonneg (Nat.cast_nonneg _)] at rounded
  unfold ofInt
  rcases lt_or_ge i 0 with negative | notNegative
  · have value : (i : ℚ) = -i.natAbs := by
      rw [Nat.cast_natAbs, abs_of_neg negative, Int.cast_neg, neg_neg]
    have notZero : (i.natAbs : ℚ) ≠ 0 := Nat.cast_ne_zero.2 (Int.natAbs_ne_zero.2 negative.ne)
    rw [value, decide_eq_true negative, ← Bool.not_false, ← neg_ofPoint false finite.le]
    constructor
    · intro h
      have opposite := h.neg (neg_ne_zero.2 notZero)
      rw [neg_neg, rounded] at opposite
      rw [← opposite, neg_neg_of_finite h.finite]
    · rintro rfl
      exact ((rounded _).2 rfl).neg notZero
  · have value : (i : ℚ) = i.natAbs := by
      rw [Nat.cast_natAbs, abs_of_nonneg notNegative]
    rw [value, rounded, decide_eq_false notNegative.not_gt]

/-! ## Whole numbers that are values of doubles -/

/-- The distance of a point is `m` if `m` takes at most 53 bits. -/
theorem exists_steps_eq {m : Nat} (small : m ≤ 2 ^ 53) :
    ∃ n < infinity, steps n = m * 2 ^ 1074 := by
  rcases Nat.eq_zero_or_pos m with rfl | pos
  · exact ⟨0, by decide, by decide +kernel⟩
  · obtain ⟨e, within, low, high⟩ : ∃ e ≤ 52, 2 ^ e ≤ m ∧ m ≤ 2 ^ (e + 1) := by
      refine ⟨min m.log2 52, Nat.min_le_right _ _, ?_, ?_⟩
      · exact (Nat.pow_le_pow_right (by decide) (Nat.min_le_left _ _)).trans
          (Nat.log2_self_le pos.ne')
      · rcases Nat.le_total m.log2 52 with fits | beyond
        · rw [Nat.min_eq_left fits]
          exact Nat.lt_log2_self.le
        · rw [Nat.min_eq_right beyond]
          exact small
    obtain ⟨shift, total⟩ := Nat.exists_eq_add_of_le within
    have width : 2 ^ 52 = 2 ^ e * 2 ^ shift := by rw [← Nat.pow_add, ← total]
    have width' : 2 ^ 53 = 2 ^ (e + 1) * 2 ^ shift := by
      rw [← Nat.pow_add, Nat.add_right_comm, ← total]
    refine ⟨(1022 + e) * 2 ^ 52 + m * 2 ^ shift, ?_, ?_⟩
    · have below : m * 2 ^ shift ≤ 2 ^ 53 := by
        rw [width']
        exact Nat.mul_le_mul_right _ high
      unfold infinity
      omega
    · rw [steps_add (.inr ?_) ?_, Nat.mul_assoc, ← Nat.pow_add]
      · congr 2
        omega
      · rw [width]
        exact Nat.mul_le_mul_right _ low
      · rw [width']
        exact Nat.mul_le_mul_right _ high

/-- A whole number of at most 53 bits is the distance of its nearest point. -/
theorem magnitude_nearestPoint {m : Nat} (small : m ≤ 2 ^ 53) :
    nearestPoint m 1 < infinity ∧ magnitude (nearestPoint m 1) = m := by
  obtain ⟨n, finite, exact⟩ := exists_steps_eq small
  have pos : 0 < 2 ^ 1074 := by apply Nat.two_pow_pos
  have same : nearestPoint m 1 = n := by
    rw [nearestPoint_congr Nat.one_pos pos (by rw [← exact, Nat.mul_one]),
      nearestPoint_steps finite]
  rw [same, magnitude, exact, Nat.cast_mul, mul_div_cancel_right₀ _ step_pos.ne']
  exact ⟨finite, rfl⟩

section
variable {i : ℤ} (small : i.natAbs ≤ 2 ^ 53)
include small

/-- The double of a whole number of at most 53 bits is finite and has the number as value. -/
theorem value_ofInt : isFinite (ofInt i) ∧ value (ofInt i) = i := by
  obtain ⟨finite, exact⟩ := magnitude_nearestPoint small
  rw [isFinite, value, ofInt, isNegative_ofPoint _ finite.le, point_ofPoint _ finite.le, exact,
    Nat.cast_natAbs]
  refine ⟨decide_eq_true finite, ?_⟩
  split
  case isTrue negative =>
    rw [abs_of_neg (of_decide_eq_true negative), Int.cast_neg, neg_neg]
  case isFalse notNegative =>
    rw [abs_of_nonneg (not_lt.1 (mt decide_eq_true notNegative))]

/-- A whole number of at most 53 bits is the truncation of its double. -/
theorem truncate_ofInt : truncate (ofInt i) = i := by
  obtain ⟨finite, exact⟩ := value_ofInt small
  rw [(isTruncation_truncate _).finite finite, exact, towardZero_intCast]
  exact clamp_of_fits ⟨by omega, by omega⟩

end

end RegisterCalc.Binary64
