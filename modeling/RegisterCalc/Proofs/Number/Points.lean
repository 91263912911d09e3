import Mathlib
import RegisterCalc.Number.Binary64

/-!
# A double is its sign and its point

A double is determined by its bits, and every bit pattern up to that of infinity, with either sign,
is the pattern of a double (`valid_of_le_infinity`). So a double is determined by its sign and its
point (`ofPoint_point`), and the points up to infinity are those of the doubles made from them
(`point_ofPoint`). All doubles with greater points are the same (`eq_of_infinity_lt`), the one that
is not a number (`isNaN_iff`), and negation turns the sign around (`neg_ofPoint`), so what is finite
is the opposite of its opposite (`neg_neg_of_finite`).
-/

open Float.Model Float.Model.UnpackedFloat

namespace RegisterCalc.Binary64

/-- A double has the bits it was made from, if they are the pattern of a double. -/
theorem toBits_ofBits {bits : UInt64} (valid : Format.binary64.Valid bits.toBitVec) :
    (Float.ofBits bits).toBits = bits := by
  show UInt64.ofBitVec _ = bits
  rw [pack_unpack_of_valid valid]

/-! ## Bit patterns -/

/-- The bit pattern of a sign and a point. -/
def pattern (negative : Bool) (n : Nat) : BitVec Format.binary64.numBits :=
  (UInt64.ofNat (if negative then 2 ^ 63 + n else n)).toBitVec

section
variable (negative : Bool) {n : Nat}

/-- The value of a pattern. -/
theorem toNat_pattern (small : n < 2 ^ 63) :
    (pattern negative n).toNat = if negative then 2 ^ 63 + n else n := by
  show _ % 2 ^ 64 = _
  cases negative <;> simp <;> omega

/-- The exponent field of a pattern does not depend on the sign. -/
theorem toNat_unpackExponent_pattern (small : n < 2 ^ 63) :
    (unpackExponent (pattern negative n)).toNat = n / 2 ^ 52 := by
  simp only [unpackExponent, BitVec.toNat_cast, BitVec.extractLsb_toNat,
    toNat_pattern negative small, Nat.shiftRight_eq_div_pow]
  show (if negative then 2 ^ 63 + n else n) / 2 ^ 52 % 2 ^ 11 = n / 2 ^ 52
  split <;> omega

/-- The mantissa field of a pattern does not depend on the sign. -/
theorem toNat_unpackMantissa_pattern (small : n < 2 ^ 63) :
    (unpackMantissa (pattern negative n)).toNat = n % 2 ^ 52 := by
  simp only [unpackMantissa, BitVec.toNat_cast, BitVec.extractLsb_toNat,
    toNat_pattern negative small, Nat.shiftRight_zero]
  show (if negative then 2 ^ 63 + n else n) % 2 ^ 52 = n % 2 ^ 52
  split <;> omega

/-- The sign field of a pattern is its sign. -/
theorem toNat_unpackSign_pattern (small : n < 2 ^ 63) :
    (unpackSign (pattern negative n)).toNat = if negative then 1 else 0 := by
  simp only [unpackSign, BitVec.toNat_cast, BitVec.extractLsb_toNat, toNat_pattern negative small,
    Nat.shiftRight_eq_div_pow]
  show (if negative then 2 ^ 63 + n else n) / 2 ^ 63 % 2 ^ 1 = _
  split <;> omega

/-- The pattern of a point up to infinity, with either sign, is the pattern of a double. -/
theorem valid_of_le_infinity (h : n ≤ infinity) :
    Format.binary64.Valid (pattern negative n) := by
  have small : n < 2 ^ 63 := Nat.lt_of_le_of_lt h (by decide)
  refine ⟨fun full nonzero => absurd ?_ nonzero⟩
  have exponent := congrArg BitVec.toNat full
  rw [toNat_unpackExponent_pattern negative small] at exponent
  replace exponent : n / 2 ^ 52 = 2047 := exponent
  apply BitVec.eq_of_toNat_eq
  rw [toNat_unpackMantissa_pattern negative small]
  unfold infinity at h
  show n % 2 ^ 52 = 0
  omega

/-- The pattern with the other sign is that of the negation. -/
theorem unpack_pattern_not (small : n < 2 ^ 63) :
    UnpackedFloat.unpack Format.binary64 (pattern (!negative) n) =
      (UnpackedFloat.unpack Format.binary64 (pattern negative n)).neg := by
  have exponent : unpackExponent (pattern (!negative) n) = unpackExponent (pattern negative n) := by
    apply BitVec.eq_of_toNat_eq
    rw [toNat_unpackExponent_pattern _ small, toNat_unpackExponent_pattern _ small]
  have mantissa : unpackMantissa (pattern (!negative) n) = unpackMantissa (pattern negative n) := by
    apply BitVec.eq_of_toNat_eq
    rw [toNat_unpackMantissa_pattern _ small, toNat_unpackMantissa_pattern _ small]
  have sign : Sign.ofBitVec (unpackSign (pattern (!negative) n)) =
      -Sign.ofBitVec (unpackSign (pattern negative n)) := by
    have bit : ∀ negative, unpackSign (pattern negative n) = if negative then 1#1 else 0#1 := by
      intro negative
      apply BitVec.eq_of_toNat_eq
      rw [toNat_unpackSign_pattern negative small]
      cases negative <;> rfl
    rw [bit, bit]
    cases negative <;> rfl
  unfold UnpackedFloat.unpack
  simp only [exponent, mantissa, sign]
  repeat' split
  all_goals rfl

/-! ## Signs and points -/

/-- The bits of a double made from a sign and a point up to infinity. -/
theorem toNat_toBits_ofPoint (h : n ≤ infinity) :
    (ofPoint negative n).toBits.toNat = if negative then 2 ^ 63 + n else n := by
  rw [ofPoint, toBits_ofBits (valid_of_le_infinity negative h)]
  exact toNat_pattern negative (Nat.lt_of_le_of_lt h (by decide))

/-- Negation turns the sign of a double around. -/
theorem neg_ofPoint (h : n ≤ infinity) : -ofPoint negative n = ofPoint (!negative) n := by
  have small : n < 2 ^ 63 := Nat.lt_of_le_of_lt h (by decide)
  have bits : (ofPoint negative n).toBits.toBitVec = pattern negative n :=
    congrArg UInt64.toBitVec (toBits_ofBits (valid_of_le_infinity negative h))
  calc -ofPoint negative n = ⟨Float.Model.pack (UnpackedFloat.unpack Format.binary64
        (ofPoint negative n).toBits.toBitVec).neg⟩ := rfl
    _ = ⟨Float.Model.pack (UnpackedFloat.unpack Format.binary64 (pattern (!negative) n))⟩ := by
        rw [bits, unpack_pattern_not negative small]
    _ = ofPoint (!negative) n := rfl

end

/-- The bits of a double are the pattern of its sign and its point. -/
theorem pattern_point (x : Float) : pattern (isNegative x) (point x) = x.toBits.toBitVec := by
  have bound := x.toBits.toNat_lt
  have small : point x < 2 ^ 63 := Nat.mod_lt _ (by decide)
  apply BitVec.eq_of_toNat_eq
  rw [toNat_pattern _ small]
  show _ = x.toBits.toNat
  unfold isNegative point
  split
  case isTrue h =>
    have := of_decide_eq_true h
    omega
  case isFalse h =>
    have := of_decide_eq_false (Bool.eq_false_iff.2 h)
    omega

/-- A double is made from its sign and its point. -/
theorem ofPoint_point (x : Float) : ofPoint (isNegative x) (point x) = x := by
  calc ofPoint (isNegative x) (point x)
      = Float.ofBits ⟨pattern (isNegative x) (point x)⟩ := rfl
    _ = Float.ofBits x.toBits := by rw [pattern_point]
    _ = x := Float.ofBits_toBits x

/-- A double whose point is past infinity has the pattern of what is not a number. -/
theorem pattern_point_of_infinity_lt {x : Float} (h : infinity < point x) :
    pattern (isNegative x) (point x) = packedNaN Format.binary64 := by
  have small : point x < 2 ^ 63 := Nat.mod_lt _ (by decide)
  have valid : Format.binary64.Valid (pattern (isNegative x) (point x)) :=
    pattern_point x ▸ x.toModel.valid
  unfold infinity at h
  have exponent : point x / 2 ^ 52 = 2047 := by omega
  refine valid.eq_packedNaN ?_ ?_
  · apply BitVec.eq_of_toNat_eq
    rw [toNat_unpackExponent_pattern _ small, exponent]
    rfl
  · intro zero
    have mantissa := congrArg BitVec.toNat zero
    rw [toNat_unpackMantissa_pattern _ small] at mantissa
    replace mantissa : point x % 2 ^ 52 = 0 := mantissa
    omega

/-- There is one double only whose point is past infinity. -/
theorem eq_of_infinity_lt {x y : Float} (hx : infinity < point x) (hy : infinity < point y) :
    x = y := by
  have patterns := (pattern_point_of_infinity_lt hx).trans (pattern_point_of_infinity_lt hy).symm
  rw [pattern_point, pattern_point] at patterns
  rw [← Float.ofBits_toBits x, UInt64.toBitVec_inj.1 patterns, Float.ofBits_toBits]

/-- What is not a number is the double whose point is past infinity. -/
theorem isNaN_iff (x : Float) : x.isNaN ↔ infinity < point x := by
  have small : point x < 2 ^ 63 := Nat.mod_lt _ (by decide)
  have fields : x.isNaN =
      (UnpackedFloat.unpack Format.binary64 (pattern (isNegative x) (point x))).isNaN := by
    rw [pattern_point]
    rfl
  -- The exponent field is full from infinity on, and the mantissa field is zero at infinity only.
  have full : unpackExponent (pattern (isNegative x) (point x)) =
      -BitVec.ofNat Format.binary64.exponentBits 1 ↔ point x / 2 ^ 52 = 2047 := by
    rw [← BitVec.toNat_inj, toNat_unpackExponent_pattern _ small]
    rfl
  have zero : unpackMantissa (pattern (isNegative x) (point x)) =
      BitVec.ofNat Format.binary64.mantissaBitsWithoutImplicit 0 ↔ point x % 2 ^ 52 = 0 := by
    rw [← BitVec.toNat_inj, toNat_unpackMantissa_pattern _ small]
    rfl
  rw [fields, UnpackedFloat.unpack]
  unfold RegisterCalc.Binary64.infinity
  simp only [full, zero]
  split
  · split
    · exact ⟨nofun, fun past => by omega⟩
    · exact ⟨fun _ => by omega, fun _ => rfl⟩
  · refine ⟨?_, fun past => by omega⟩
    split
    · split <;> nofun
    · nofun

section
variable (negative : Bool) {n : Nat}

/-- A point up to infinity is the point of the double made from it. -/
theorem point_ofPoint (h : n ≤ infinity) : point (ofPoint negative n) = n := by
  have small : n < 2 ^ 63 := Nat.lt_of_le_of_lt h (by decide)
  rw [point, toNat_toBits_ofPoint negative h]
  cases negative <;> simp <;> omega

/-- A double made from a point up to infinity has the sign it was made with. -/
theorem isNegative_ofPoint (h : n ≤ infinity) : isNegative (ofPoint negative n) = negative := by
  have small : n < 2 ^ 63 := Nat.lt_of_le_of_lt h (by decide)
  rw [isNegative, toNat_toBits_ofPoint negative h]
  cases negative
  · simp; omega
  · simp

end

/-! ## Opposites -/

section
variable {x : Float} (finite : isFinite x)
include finite

/-- The opposite of a finite double has the other sign and the same point. -/
theorem neg_eq_ofPoint : -x = ofPoint (!isNegative x) (point x) := by
  have below : point x < infinity := of_decide_eq_true finite
  rw [← neg_ofPoint _ below.le, ofPoint_point]

/-- The opposite of a finite double has the other sign. -/
theorem isNegative_neg : isNegative (-x) = !isNegative x := by
  have below : point x < infinity := of_decide_eq_true finite
  rw [neg_eq_ofPoint finite, isNegative_ofPoint _ below.le]

/-- The opposite of a finite double has the same point. -/
theorem point_neg : point (-x) = point x := by
  have below : point x < infinity := of_decide_eq_true finite
  rw [neg_eq_ofPoint finite, point_ofPoint _ below.le]

/-- The opposite of a finite double is finite. -/
theorem isFinite_neg : isFinite (-x) := by
  rw [isFinite, point_neg finite]
  exact finite

/-- The opposite of the opposite of a finite double is that double. -/
theorem neg_neg_of_finite : - -x = x := by
  rw [neg_eq_ofPoint (isFinite_neg finite), isNegative_neg finite, point_neg finite, Bool.not_not,
    ofPoint_point]

end

/-- A negative double is the opposite of the one with the same point and no sign. -/
theorem neg_ofPoint_point {x : Float} (bounded : point x ≤ infinity) (negative : isNegative x) :
    -ofPoint false (point x) = x := by
  rw [neg_ofPoint false bounded, Bool.not_false, ← negative, ofPoint_point]

end RegisterCalc.Binary64
