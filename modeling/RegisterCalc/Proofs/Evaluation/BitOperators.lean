import RegisterCalc.Evaluation.Basic
import RegisterCalc.Proofs.Number.WholeNumbers

/-!
# Operators on bits

An operator on bits is the exact operation on the truncations of its operands, whatever these are,
and its result is rounded once, to the nearest double (`apply_bitOperators`).
-/

namespace RegisterCalc

open Binary64 Bits

/-! ## Results -/

/-- An operation succeeds with the only double that a whole number is rounded to. -/
def GivesRounded (outcome : Except RuntimeFault Float) (i : ℤ) : Prop :=
  ∃ z, outcome = .ok z ∧ ∀ y, RoundsToEven i y ↔ y = z

/-- The value of a word is rounded to the double of the word. -/
theorem givesRounded_ofWord (w : Word) : GivesRounded (.ok (ofWord w)) w.toInt := by
  refine ⟨ofWord w, rfl, roundsToEven_ofInt_iff ?_⟩
  have within : (w.toInt.natAbs : ℚ) ≤ 2 ^ 63 := by exact_mod_cast (fits_toInt w).natAbs_le
  have far : (2 : ℚ) ^ 64 ≤ 2 ^ 970 := pow_le_pow_right₀ (by norm_num) (by norm_num)
  have power : (2 : ℚ) ^ 1024 = 2 ^ 54 * 2 ^ 970 := pow_add 2 54 970
  rw [power]
  generalize (2 : ℚ) ^ 970 = unit at far
  linarith

/-- The distance of a shift is the remainder of the truncation, which is not negative. -/
theorem shiftDistance_toWord (y : Float) :
    shiftDistance (toWord y) = (truncate y % 64).toNat := by
  rw [shiftDistance, toWord, BitVec.toNat_ofInt]
  omega

/-- Whatever two doubles are, fractions, infinities and what is not a number included, the operators
on bits succeed on them with an operation on their truncations, rounded to the nearest double.
Conjunction, disjunction, exclusion and complement are those of the two's complements. The distance
of a shift is the remainder of the second truncation by the width of a word, which is not negative.
A shift to the left multiplies by that power of two and reduces the product to the values of words;
a shift to the right divides by it and rounds down. -/
theorem apply_bitOperators (x y : Float) (offset : Offset) :
    ∃ a b : ℤ, IsTruncation x a ∧ IsTruncation y b ∧
      GivesRounded (BinaryOp.bitAnd.apply x y offset) (Int.land a b) ∧
      GivesRounded (BinaryOp.bitOr.apply x y offset) (Int.lor a b) ∧
      GivesRounded (BinaryOp.bitXor.apply x y offset) (Int.xor a b) ∧
      GivesRounded (.ok (PrefixOp.complement.apply x)) (Int.lnot a) ∧
      GivesRounded (BinaryOp.shiftLeft.apply x y offset)
        ((a * 2 ^ (b % 64).toNat).bmod (2 ^ 64)) ∧
      GivesRounded (BinaryOp.shiftRight.apply x y offset) ⌊(a / 2 ^ (b % 64).toNat : ℚ)⌋ := by
  refine ⟨_, _, isTruncation_truncate x, isTruncation_truncate y, ?_⟩
  rw [← shiftDistance_toWord, ← toInt_toWord, ← toInt_toWord, ← toInt_and, ← toInt_or, ← toInt_xor,
    ← toInt_not _ (by decide), ← toInt_shiftLeft, ← toInt_sshiftRight]
  exact ⟨givesRounded_ofWord _, givesRounded_ofWord _, givesRounded_ofWord _,
    givesRounded_ofWord _, givesRounded_ofWord _, givesRounded_ofWord _⟩

/-- The distance `-1` is 63, and one of the two bits of the number is lost. -/
example : BinaryOp.shiftLeft.apply 3.7 (-1) 0 = .ok (-9223372036854775808) := by decide +kernel

end RegisterCalc
