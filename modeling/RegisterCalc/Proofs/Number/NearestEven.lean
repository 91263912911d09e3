import RegisterCalc.Proofs.Number.Points
import RegisterCalc.Proofs.Number.Rounding

/-!
# Rounding to the nearest double

The doubles that are not negative are a sequence that ascends with their points, so rounding is
choosing a place in it: no other number of the sequence is nearer, and of two that are equally near
the one at the even place is chosen (`IsNearestEven`). Within a scale the points are multiples of
one unit, where the nearest is `divEven` (`isNearestEven_divEven`); a point of another scale is
further away than the end of the scale on its side (`isNearestEven_steps_of_unit`).

A quotient is rounded to a finite double (`Binary64.RoundsTo`) if it lies below the middle between
the last finite point and the one that would follow it (`nearestPoint_lt_infinity_iff`), and that
double is the only one it is rounded to (`roundsTo_iff`).
-/

namespace RegisterCalc

/-! ## The nearest of a sequence -/

/-- Among the numbers of a sequence the one at `n` is nearest to `q`, and where another is equally
near, `n` is even. -/
structure IsNearestEven (values : Nat → ℚ) (q : ℚ) (n : Nat) : Prop where
  nearest : ∀ m, |q - values n| ≤ |q - values m|
  even : ∀ m, m ≠ n → |q - values m| = |q - values n| → n % 2 = 0

namespace IsNearestEven

variable {values : Nat → ℚ} {q : ℚ} {n m : Nat}

/-- The nearest number stays the nearest when all is multiplied. -/
theorem scale (h : IsNearestEven values q n) {unit : ℚ} (pos : 0 < unit) :
    IsNearestEven (fun m => values m * unit) (q * unit) n := by
  have distance (m : Nat) : |q * unit - values m * unit| = |q - values m| * unit := by
    rw [← sub_mul, abs_mul, abs_of_pos pos]
  constructor
  · intro m
    rw [distance, distance]
    exact mul_le_mul_of_nonneg_right (h.nearest m) pos.le
  · intro m other tie
    rw [distance, distance] at tie
    exact h.even m other (mul_right_cancel₀ pos.ne' tie)

/-- The numbers before one that is at most `q` are further away. -/
theorem nearer_of_lt (ascending : StrictMono values) (before : m < n) (atMost : values n ≤ q) :
    |q - values n| < |q - values m| := by
  have further : values m < values n := ascending before
  rw [abs_of_nonneg (by linarith), abs_of_pos (by linarith)]
  linarith

/-- The numbers behind one that is at least `q` are further away. -/
theorem nearer_of_gt (ascending : StrictMono values) (behind : n < m) (atLeast : q ≤ values n) :
    |q - values n| < |q - values m| := by
  have further : values n < values m := ascending behind
  rw [abs_of_nonpos (by linarith), abs_of_neg (by linarith)]
  linarith

/-- Of two numbers that are equally near in an ascending sequence, both at even places, the next one
after the lower is nearer. -/
theorem nearer_between (ascending : StrictMono values) (below : n < m) (evenN : n % 2 = 0)
    (evenM : m % 2 = 0) (tie : |q - values m| = |q - values n|) :
    |q - values (n + 1)| < |q - values n| := by
  have first : values n < values (n + 1) := ascending (by omega)
  have second : values (n + 1) < values m := ascending (by omega)
  rcases abs_eq_abs.1 tie with same | mirrored
  · linarith
  · rw [abs_of_pos (by linarith : 0 < q - values n), abs_lt]
    constructor <;> linarith

/-- A number that is as near as the nearest one, and at an even place if it is another, is the
nearest one. -/
theorem eq_of_tie (h : IsNearestEven values q n) (ascending : StrictMono values)
    (tie : |q - values m| = |q - values n|) (evenM : m ≠ n → m % 2 = 0) : m = n := by
  by_contra other
  have evenN := h.even m other tie
  rcases Nat.lt_or_gt_of_ne other with below | above
  · have nearer := nearer_between ascending below (evenM other) evenN tie.symm
    rw [tie] at nearer
    exact absurd (h.nearest _) (not_le.2 nearer)
  · have nearer := nearer_between ascending above evenN (evenM other) tie
    exact absurd (h.nearest _) (not_le.2 nearer)

/-- The nearest number is below the one at an even place if and only if `q` is below the middle
between that number and the one before it. -/
theorem lt_iff (h : IsNearestEven values q n) (ascending : StrictMono values)
    (even : (m + 1) % 2 = 0) : n < m + 1 ↔ 2 * q < values m + values (m + 1) := by
  have last : values m < values (m + 1) := ascending (Nat.lt_succ_self m)
  constructor
  · intro below
    by_contra above
    have atMost : values n ≤ values m := ascending.monotone (by omega)
    have nearest := h.nearest (m + 1)
    rcases le_total q (values (m + 1)) with within | beyond
    · have left : |q - values n| = q - values n := abs_of_pos (by linarith)
      have right : |q - values (m + 1)| = values (m + 1) - q := by
        rw [abs_sub_comm, abs_of_nonneg (by linarith)]
      have same : n = m := ascending.injective (by linarith)
      have tie := h.even (m + 1) (by omega) (by linarith)
      omega
    · exact absurd nearest (not_le.2 (nearer_of_lt ascending below beyond))
  · intro below
    by_contra above
    have atLeast : values (m + 1) ≤ values n := ascending.monotone (by omega)
    have nearest := h.nearest m
    rw [abs_sub_comm, abs_of_pos (by linarith : 0 < values n - q), le_abs] at nearest
    rcases nearest with nearest | nearest <;> linarith

end IsNearestEven

/-! ## The nearest whole number -/

/-- A rounded quotient that is half a unit from the exact one is even. -/
theorem divEven_mod_two_of_tie {num den : Nat} (pos : 0 < den)
    (tie : 2 * num = 2 * (den * divEven num den) + den ∨
      2 * (den * divEven num den) = 2 * num + den) : divEven num den % 2 = 0 := by
  have split := Nat.div_add_mod num den
  have below := Nat.mod_lt num pos
  unfold divEven at tie ⊢
  dsimp only at tie ⊢
  split
  case isTrue down =>
    rw [if_pos down] at tie
    omega
  case isFalse up =>
    rw [if_neg up, Nat.mul_add] at tie
    omega

/-- The rounded quotient is the whole number nearest to the exact one, the even one of two. -/
theorem isNearestEven_divEven (num : Nat) {den : Nat} (pos : 0 < den) :
    IsNearestEven (fun s => s) (num / den) (divEven num den) := by
  have pos' : (0 : ℚ) < den := Nat.cast_pos.2 pos
  obtain ⟨a, quotient⟩ : ∃ a : ℚ, (num : ℚ) / den = a := ⟨_, rfl⟩
  have product : (num : ℚ) = den * a := by rw [← quotient, mul_div_cancel₀ _ pos'.ne']
  have above : 2 * (divEven num den : ℚ) ≤ 2 * a + 1 := by
    have scaled : 2 * (den * divEven num den : ℚ) ≤ 2 * num + den := by
      exact_mod_cast two_mul_mul_divEven_le num pos
    refine le_of_mul_le_mul_left ?_ pos'
    linarith
  have below : 2 * a ≤ 2 * (divEven num den : ℚ) + 1 := by
    have scaled : 2 * (num : ℚ) ≤ 2 * (den * divEven num den) + den := by
      exact_mod_cast le_two_mul_mul_divEven num pos
    refine le_of_mul_le_mul_left ?_ pos'
    linarith
  have half : |a - divEven num den| ≤ 1 / 2 := by
    rw [abs_le]
    constructor <;> linarith
  -- Any other whole number is at least half a unit away, so one that is equally near is a tie.
  have far : ∀ s : Nat, s ≠ divEven num den → 1 / 2 ≤ |a - s| := by
    intro s other
    rw [le_abs]
    rcases Nat.lt_or_gt_of_ne other with less | greater
    · have gap : (s : ℚ) + 1 ≤ divEven num den := by exact_mod_cast less
      left
      linarith
    · have gap : (divEven num den : ℚ) + 1 ≤ s := by exact_mod_cast greater
      right
      linarith
  rw [quotient]
  constructor
  · intro s
    rcases eq_or_ne s (divEven num den) with rfl | other
    · exact le_rfl
    · exact half.trans (far s other)
  · intro s other tie
    have exact : |a - divEven num den| = 1 / 2 := le_antisymm half (tie ▸ far s other)
    apply divEven_mod_two_of_tie pos
    rcases (abs_eq (by norm_num)).1 exact with up | down
    · left
      have scaled : 2 * (num : ℚ) = 2 * (den * divEven num den) + den := by
        rw [product, sub_eq_iff_eq_add.1 up]
        ring
      exact_mod_cast scaled
    · right
      have scaled : 2 * (den * divEven num den : ℚ) = 2 * num + den := by
        rw [product, sub_eq_iff_eq_add.1 down]
        ring
      exact_mod_cast scaled

namespace Binary64

/-! ## Points in ascending order -/

/-- The points of a scale lie as many units above zero as their significand, that of the first point
of the next scale included. -/
theorem steps_add {k s : Nat} (low : k = 0 ∨ 2 ^ 52 ≤ s) (high : s ≤ 2 ^ 53) :
    steps (k * 2 ^ 52 + s) = s * 2 ^ k := by
  rcases Nat.lt_or_ge s (2 ^ 53) with within | next
  · have here : scale (k * 2 ^ 52 + s) = k := by
      unfold scale
      omega
    rw [steps, significand, here, Nat.add_sub_cancel_left]
  · obtain rfl : s = 2 ^ 53 := by omega
    have here : scale (k * 2 ^ 52 + 2 ^ 53) = k + 1 := by
      unfold scale
      omega
    have first : significand (k * 2 ^ 52 + 2 ^ 53) = 2 ^ 52 := by
      rw [significand, here]
      omega
    rw [steps, first, here, Nat.pow_succ 2 k]
    ring

/-- The significand of a point takes less than 54 bits, and 53 unless there is no scale below. -/
theorem significand_bounds (n : Nat) :
    (scale n = 0 ∨ 2 ^ 52 ≤ significand n) ∧ significand n < 2 ^ 53 := by
  unfold significand scale
  omega

/-- A point is further from zero than the ones before it. -/
theorem strictMono_steps : StrictMono steps := by
  refine strictMono_nat_of_lt_succ fun n => ?_
  obtain ⟨low, high⟩ := significand_bounds n
  have split := scale_add_significand n
  have here : steps n = significand n * 2 ^ scale n := rfl
  have next : steps (n + 1) = (significand n + 1) * 2 ^ scale n := by
    rw [← steps_add (by omega) (by omega), ← Nat.add_assoc, split]
  rw [here, next]
  exact Nat.mul_lt_mul_of_pos_right (Nat.lt_succ_self _) (Nat.two_pow_pos _)

/-! ## The nearest point -/

/-- Between the first point of a scale and that of the next one, the nearest point is the nearest
multiple of the unit of the scale. -/
theorem isNearestEven_steps_of_unit {exact : ℚ} {k r : Nat} (low : k = 0 ∨ 2 ^ 52 ≤ r)
    (high : r ≤ 2 ^ 53) (least : k = 0 ∨ steps (k * 2 ^ 52 + 2 ^ 52) ≤ exact)
    (most : exact ≤ steps (k * 2 ^ 52 + 2 ^ 53))
    (h : IsNearestEven (fun s => s * (2 ^ k : Nat)) exact r) :
    IsNearestEven (fun n => steps n) exact (k * 2 ^ 52 + r) := by
  have value {s : Nat} (low : k = 0 ∨ 2 ^ 52 ≤ s) (high : s ≤ 2 ^ 53) :
      (s * (2 ^ k : Nat) : ℚ) = steps (k * 2 ^ 52 + s) := by
    rw [steps_add low high, Nat.cast_mul]
  have nearest (s : Nat) (low' : k = 0 ∨ 2 ^ 52 ≤ s) (high' : s ≤ 2 ^ 53) :
      |exact - steps (k * 2 ^ 52 + r)| ≤ |exact - steps (k * 2 ^ 52 + s)| := by
    rw [← value low high, ← value low' high']
    exact h.nearest s
  -- A point of another scale is further away than the end of the scale on its side.
  have outside {m : Nat} (other : k ≠ 0 ∧ m < k * 2 ^ 52 + 2 ^ 52 ∨ k * 2 ^ 52 + 2 ^ 53 < m) :
      |exact - steps (k * 2 ^ 52 + r)| < |exact - steps m| := by
    have ascending : StrictMono fun n => (steps n : ℚ) := Nat.strictMono_cast.comp strictMono_steps
    rcases other with ⟨notLeast, below⟩ | above
    · have nearer := IsNearestEven.nearer_of_lt ascending below (least.resolve_left notLeast)
      exact (nearest (2 ^ 52) (.inr le_rfl) (by omega)).trans_lt nearer
    · have nearer := IsNearestEven.nearer_of_gt ascending above most
      exact (nearest (2 ^ 53) (.inr (by omega)) le_rfl).trans_lt nearer
  constructor
  · intro m
    by_cases other : k ≠ 0 ∧ m < k * 2 ^ 52 + 2 ^ 52 ∨ k * 2 ^ 52 + 2 ^ 53 < m
    · exact (outside other).le
    · obtain ⟨s, rfl⟩ : ∃ s, m = k * 2 ^ 52 + s := ⟨m - k * 2 ^ 52, by omega⟩
      exact nearest s (by omega) (by omega)
  · intro m notSame tie
    by_cases other : k ≠ 0 ∧ m < k * 2 ^ 52 + 2 ^ 52 ∨ k * 2 ^ 52 + 2 ^ 53 < m
    · exact absurd tie (outside other).ne'
    · obtain ⟨s, rfl⟩ : ∃ s, m = k * 2 ^ 52 + s := ⟨m - k * 2 ^ 52, by omega⟩
      have even : r % 2 = 0 := by
        refine h.even s (by omega) ?_
        rw [value low high, value (by omega) (by omega)]
        exact tie
      omega

/-- Whole steps from zero have 53 significant bits in the unit of their scale, or fewer in single
steps. -/
theorem scale_bounds (whole : Nat) :
    (whole.log2 - 52 = 0 ∨ 2 ^ 52 * 2 ^ (whole.log2 - 52) ≤ whole) ∧
      whole < 2 ^ 53 * 2 ^ (whole.log2 - 52) := by
  constructor
  · rcases Nat.eq_zero_or_pos (whole.log2 - 52) with least | above
    · exact .inl least
    · have notZero : whole ≠ 0 := by
        rintro rfl
        simp at above
      right
      rw [← Nat.pow_add, Nat.add_sub_of_le (by omega)]
      exact Nat.log2_self_le notZero
  · rw [← Nat.pow_add]
    exact Nat.lt_log2_self.trans_le (Nat.pow_le_pow_right (by decide) (by omega))

/-- A rounded quotient is the whole part of the exact one or the number after it. -/
theorem divEven_bounds (num den : Nat) :
    num / den ≤ divEven num den ∧ divEven num den ≤ num / den + 1 := by
  unfold divEven
  dsimp only
  split <;> omega

/-- Among all points, those beyond infinity included, a quotient is rounded to the nearest; infinity
takes the place of those beyond it. -/
theorem exists_isNearestEven_steps (num : Nat) {den : Nat} (pos : 0 < den) :
    ∃ n, nearestPoint num den = min n infinity ∧
      IsNearestEven (fun n => steps n) (num / den * (2 ^ 1074 : Nat)) n := by
  unfold nearestPoint
  generalize (2 ^ 1074 : Nat) = least
  refine ⟨_, rfl, ?_⟩
  have exactly : (num / den * least : ℚ) = (num * least : Nat) / den := by
    rw [Nat.cast_mul, div_mul_eq_mul_div]
  rw [exactly]
  generalize num * least = exact
  obtain ⟨low, high⟩ := scale_bounds (exact / den)
  generalize (exact / den).log2 - 52 = k at low high ⊢
  have unit : 0 < 2 ^ k := Nat.two_pow_pos k
  have pos' : (0 : ℚ) < den := Nat.cast_pos.2 pos
  obtain ⟨down, up⟩ := divEven_bounds exact (den * 2 ^ k)
  rw [← Nat.div_div_eq_div_mul] at down up
  have rounded := (isNearestEven_divEven exact (Nat.mul_pos pos unit)).scale (Nat.cast_pos.2 unit)
  have value : (exact / (den * 2 ^ k : Nat) * (2 ^ k : Nat) : ℚ) = exact / den := by
    rw [Nat.cast_mul, ← div_div, div_mul_cancel₀ _ (Nat.cast_pos.2 unit).ne']
  rw [value] at rounded
  refine isNearestEven_steps_of_unit (low.imp_right fun low => ?_) ?_ (low.imp_right fun low => ?_)
    ?_ rounded
  · exact ((Nat.le_div_iff_mul_le unit).2 low).trans down
  · have below := (Nat.div_lt_iff_lt_mul unit).2 high
    omega
  · rw [steps_add (.inr le_rfl) (by omega)]
    exact (Nat.cast_le.2 low).trans Nat.cast_div_le
  · rw [steps_add (.inr (by omega)) le_rfl, div_le_iff₀ pos']
    exact_mod_cast ((Nat.div_lt_iff_lt_mul pos).1 high).le

/-! ## Values -/

/-- The distance of a point from zero. -/
def magnitude (n : Nat) : ℚ := steps n / (2 ^ 1074 : Nat)

/-- The value of a finite double. -/
def value (x : Float) : ℚ := if isNegative x then -magnitude (point x) else magnitude (point x)

/-- A quotient that is not negative is rounded to the finite double `x`: no other is nearer, and
where one of another value is equally near, the significand of `x` is even. -/
structure RoundsTo (q : ℚ) (x : Float) : Prop where
  finite : isFinite x
  positive : isNegative x = false
  nearest : ∀ y, isFinite y → |q - value x| ≤ |q - value y|
  even : ∀ y, isFinite y → value y ≠ value x → |q - value y| = |q - value x| →
    significand (point x) % 2 = 0

/-- There is a step between zero and one. -/
theorem step_pos : (0 : ℚ) < (2 ^ 1074 : Nat) := by
  rw [Nat.cast_pos]
  apply Nat.two_pow_pos

/-- A point is further from zero than the ones before it. -/
theorem strictMono_magnitude : StrictMono magnitude := fun _ _ below =>
  div_lt_div_of_pos_right (Nat.cast_lt.2 (strictMono_steps below)) step_pos

/-- The first point is at zero. -/
theorem magnitude_zero : magnitude 0 = 0 := by
  rw [magnitude, show steps 0 = 0 by decide, Nat.cast_zero, zero_div]

/-- No distance is negative. -/
theorem magnitude_nonneg (n : Nat) : 0 ≤ magnitude n := div_nonneg (Nat.cast_nonneg _) step_pos.le

/-- Among all points, those beyond infinity included, a quotient is rounded to the nearest; infinity
takes the place of those beyond it. -/
theorem exists_isNearestEven_magnitude (num : Nat) {den : Nat} (pos : 0 < den) :
    ∃ n, nearestPoint num den = min n infinity ∧ IsNearestEven magnitude (num / den) n := by
  obtain ⟨n, same, nearest⟩ := exists_isNearestEven_steps num pos
  have scaled := nearest.scale (inv_pos.2 step_pos)
  rw [mul_inv_cancel_right₀ step_pos.ne'] at scaled
  exact ⟨n, same, scaled⟩

/-- The middle between the last finite point and infinity. -/
theorem magnitude_add_magnitude :
    magnitude (infinity - 1) + magnitude (infinity - 1 + 1) = 2 * (2 ^ 1024 - 2 ^ 970) := by
  have last : infinity - 1 = 2045 * 2 ^ 52 + (2 ^ 53 - 1) := by decide
  have both (k : Nat) : (steps (k * 2 ^ 52 + (2 ^ 53 - 1)) : ℚ) +
      steps (k * 2 ^ 52 + (2 ^ 53 - 1) + 1) = (2 ^ 54 - 1) * 2 ^ k := by
    rw [steps_add (.inr (by decide)) (by decide), Nat.add_assoc,
      steps_add (.inr (by decide)) (by decide)]
    push_cast
    ring
  have scale : (2 : ℚ) ^ 2045 = 2 ^ 971 * (2 ^ 1074 : Nat) := by
    rw [Nat.cast_pow, Nat.cast_ofNat, ← pow_add]
  have twice : (2 : ℚ) ^ 971 = 2 * 2 ^ 970 := pow_succ' 2 970
  have power : (2 : ℚ) ^ 1024 = 2 ^ 54 * 2 ^ 970 := pow_add 2 54 970
  unfold magnitude
  rw [← add_div, last, both, scale, ← mul_assoc, mul_div_cancel_right₀ _ step_pos.ne', twice, power]
  generalize (2 : ℚ) ^ 970 = unit
  ring

/-- A quotient is rounded to a finite point if and only if it lies below the middle between the last
one and infinity. -/
theorem nearestPoint_lt_infinity_iff (num : Nat) {den : Nat} (pos : 0 < den) :
    nearestPoint num den < infinity ↔ (num / den : ℚ) < 2 ^ 1024 - 2 ^ 970 := by
  obtain ⟨n, same, nearest⟩ := exists_isNearestEven_magnitude num pos
  have below := nearest.lt_iff (m := infinity - 1) strictMono_magnitude (by decide)
  rw [magnitude_add_magnitude] at below
  have last : infinity - 1 + 1 = infinity := by decide
  rw [same, min_lt_iff, or_iff_left (lt_irrefl _), ← last, below]
  exact mul_lt_mul_iff_right₀ two_pos

/-- A significand is even if its point is. -/
theorem significand_mod_two (n : Nat) : significand n % 2 = n % 2 := by
  have split := scale_add_significand n
  omega

/-- The value of a double that is not negative is the distance of its point. -/
theorem value_of_positive {x : Float} (positive : isNegative x = false) :
    value x = magnitude (point x) := by
  rw [value, positive, if_neg Bool.false_ne_true]

/-- The value of a double is the distance of its point from zero, on one side or the other. -/
theorem value_eq (x : Float) : value x = -magnitude (point x) ∨ value x = magnitude (point x) := by
  unfold value
  split
  case isTrue => exact .inl rfl
  case isFalse => exact .inr rfl

/-- To what is not negative a double is no nearer than its distance from zero is. -/
theorem abs_sub_magnitude_le {q : ℚ} (notNegative : 0 ≤ q) (x : Float) :
    |q - magnitude (point x)| ≤ |q - value x| := by
  have distance := magnitude_nonneg (point x)
  rcases value_eq x with opposite | same
  · rw [opposite, abs_le, abs_of_nonneg (by linarith)]
    constructor <;> linarith
  · rw [same]

/-- A distance that has an equally near opposite, and is as near as zero, is zero. -/
theorem eq_zero_of_opposite_tie {q m : ℚ} (notNegative : 0 ≤ q) (nearest : |q - m| ≤ |q - 0|)
    (tie : |q - -m| = |q - m|) : m = 0 := by
  rcases abs_eq_abs.1 tie with same | opposite
  · linarith
  · obtain rfl : q = 0 := by linarith
    rw [zero_sub, abs_neg, sub_zero, abs_zero] at nearest
    exact abs_nonpos_iff.1 nearest

/-- The double made from a point that a quotient is rounded to is the only one that it is rounded
to. -/
theorem roundsTo_iff {q : ℚ} (notNegative : 0 ≤ q) {n : Nat} (finite : n < infinity)
    (h : IsNearestEven magnitude q n) (x : Float) : RoundsTo q x ↔ x = ofPoint false n := by
  have here : value (ofPoint false n) = magnitude n := by
    rw [value_of_positive (isNegative_ofPoint false finite.le), point_ofPoint false finite.le]
  have isFinite : isFinite (ofPoint false n) := by
    rw [isFinite, point_ofPoint false finite.le]
    exact decide_eq_true finite
  constructor
  · intro rounded
    have place : value x = magnitude (point x) := value_of_positive rounded.positive
    have tie : |q - magnitude (point x)| = |q - magnitude n| := by
      refine le_antisymm ?_ (h.nearest _)
      rw [← place, ← here]
      exact rounded.nearest _ isFinite
    have same : point x = n := by
      refine h.eq_of_tie strictMono_magnitude tie fun other => ?_
      rw [← significand_mod_two]
      refine rounded.even _ isFinite ?_ ?_
      · rw [here, place]
        exact strictMono_magnitude.injective.ne (Ne.symm other)
      · rw [here, place, tie]
    rw [← same, ← rounded.positive, ofPoint_point]
  · rintro rfl
    refine ⟨isFinite, isNegative_ofPoint false finite.le, fun y _ => ?_, fun y _ other tie => ?_⟩
    · rw [here]
      exact (h.nearest _).trans (abs_sub_magnitude_le notNegative y)
    · rw [here] at other tie
      rw [significand_mod_two, point_ofPoint false finite.le]
      have squeezed : |q - magnitude (point y)| = |q - magnitude n| :=
        le_antisymm ((abs_sub_magnitude_le notNegative y).trans tie.le) (h.nearest _)
      by_cases same : point y = n
      · -- Only the sign of `y` makes a difference, so zero and its opposite are the two values.
        have mirrored : value y = -magnitude n := by
          rcases value_eq y with opposite | same'
          · rw [opposite, same]
          · exact absurd (same'.trans (congrArg magnitude same)) other
        have least := h.nearest 0
        rw [magnitude_zero] at least
        rw [mirrored] at tie other
        rw [eq_zero_of_opposite_tie notNegative least tie, neg_zero] at other
        exact absurd rfl other
      · exact h.even _ same squeezed

end Binary64

end RegisterCalc
