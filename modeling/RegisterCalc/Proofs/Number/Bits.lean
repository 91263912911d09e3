import Mathlib.Data.Int.Bitwise
import Mathlib.Data.Rat.Floor
import RegisterCalc.Number.Word

/-!
# The bits of whole numbers

A whole number is an endless row of bits, its two's complement, and far enough up all of them are
its sign (`testBit_of_natAbs_le`); so whole numbers with the same bits are the same
(`eq_of_testBit_eq`). A word has the bits of its value as far as it goes, and its sign in place of
all further ones (`testBit_toInt`). Hence what is done to words bit by bit is done to their values:
conjunction, disjunction, exclusion and complement. The numbers that words of some width have as
values are therefore closed under these operations (`Fits`).
-/

namespace RegisterCalc.Bits

/-! ## Rows of bits -/

/-- Far enough up all bits are the sign. -/
theorem testBit_of_natAbs_le {a : ℤ} {k : Nat} (far : a.natAbs ≤ k) :
    a.testBit k = decide (a < 0) := by
  have small : k < 2 ^ k := Nat.lt_two_pow_self
  cases a with
  | ofNat m =>
    have above : m ≤ k := far
    have notNegative : ¬Int.ofNat m < 0 := Int.not_lt.2 (Int.natCast_nonneg m)
    rw [decide_eq_false notNegative]
    exact Nat.testBit_lt_two_pow (above.trans_lt small)
  | negSucc m =>
    have above : m + 1 ≤ k := far
    have zero : m.testBit k = false := Nat.testBit_lt_two_pow (by omega)
    rw [decide_eq_true (Int.negSucc_lt_zero m)]
    exact congrArg not zero

/-- Whole numbers with the same bits are the same. -/
theorem eq_of_testBit_eq {a b : ℤ} (same : ∀ k, a.testBit k = b.testBit k) : a = b := by
  have signs := same (a.natAbs + b.natAbs)
  rw [testBit_of_natAbs_le (Nat.le_add_right _ _), testBit_of_natAbs_le (Nat.le_add_left _ _)]
    at signs
  have signs : a < 0 ↔ b < 0 := decide_eq_decide.1 signs
  cases a with
  | ofNat m =>
    cases b with
    | ofNat n => exact congrArg Int.ofNat (Nat.eq_of_testBit_eq same)
    | negSucc n =>
      exact absurd (signs.2 (Int.negSucc_lt_zero n)) (Int.not_lt.2 (Int.natCast_nonneg m))
  | negSucc m =>
    cases b with
    | ofNat n =>
      exact absurd (signs.1 (Int.negSucc_lt_zero m)) (Int.not_lt.2 (Int.natCast_nonneg n))
    | negSucc n =>
      exact congrArg Int.negSucc (Nat.eq_of_testBit_eq fun k => Bool.not_inj (same k))

section
variable {n : Nat} (v w : BitVec n)

/-- The value of a negative word is told by its complement. -/
theorem toInt_of_msb (negative : w.msb = true) : w.toInt = Int.negSucc (~~~w).toNat := by
  have below := w.isLt
  rw [BitVec.toInt_eq_msb_cond, if_pos negative, BitVec.toNat_not]
  omega

/-- A word has the bits of its value, and its sign is that of the value. -/
theorem testBit_toInt (k : Nat) :
    w.toInt.testBit k = if k < n then w.getLsbD k else w.msb := by
  cases sign : w.msb with
  | false =>
    have value : w.toInt.testBit k = w.getLsbD k := by
      rw [BitVec.toInt_eq_toNat_of_msb sign]
      rfl
    rw [value]
    split
    · rfl
    · exact BitVec.getLsbD_of_ge w k (by omega)
  | true =>
    have value : w.toInt.testBit k = !(~~~w).getLsbD k := by
      rw [toInt_of_msb w sign]
      rfl
    rw [value, BitVec.getLsbD_not]
    split <;> simp [*]

/-! ## Operations bit by bit -/

variable {v w} in
/-- What is combined of two words bit by bit has the value that is combined of theirs. -/
theorem toInt_eq_of_bits {u : BitVec n} {a : ℤ} (combine : Bool → Bool → Bool)
    (bits : ∀ k, a.testBit k = combine (v.toInt.testBit k) (w.toInt.testBit k))
    (words : ∀ k, u.getLsbD k = combine (v.getLsbD k) (w.getLsbD k))
    (signs : u.msb = combine v.msb w.msb) : u.toInt = a := by
  refine eq_of_testBit_eq fun k => ?_
  rw [bits, testBit_toInt, testBit_toInt, testBit_toInt]
  split
  · exact words k
  · exact signs

/-- The value of a conjunction. -/
theorem toInt_and : (v &&& w).toInt = Int.land v.toInt w.toInt :=
  toInt_eq_of_bits and (Int.testBit_land _ _) (fun _ => BitVec.getLsbD_and) BitVec.msb_and

/-- The value of a disjunction. -/
theorem toInt_or : (v ||| w).toInt = Int.lor v.toInt w.toInt :=
  toInt_eq_of_bits or (Int.testBit_lor _ _) (fun _ => BitVec.getLsbD_or) BitVec.msb_or

/-- The value of an exclusion. -/
theorem toInt_xor : (v ^^^ w).toInt = Int.xor v.toInt w.toInt :=
  toInt_eq_of_bits Bool.xor (Int.testBit_lxor _ _) (fun _ => BitVec.getLsbD_xor) BitVec.msb_xor

/-- The value of a complement. -/
theorem toInt_not (wide : 0 < n) : (~~~w).toInt = Int.lnot w.toInt := by
  refine eq_of_testBit_eq fun k => ?_
  rw [Int.testBit_lnot, testBit_toInt, testBit_toInt, BitVec.getLsbD_not, BitVec.msb_not]
  split <;> simp [*]

/-! ## Shifts -/

/-- A shift to the left multiplies by a power of two, up to multiples of the number of words. -/
theorem toInt_shiftLeft (k : Nat) : (w <<< k).toInt = (w.toInt * 2 ^ k).bmod (2 ^ n) := by
  rw [BitVec.toInt_shiftLeft, BitVec.toInt_eq_toNat_bmod, Int.bmod_mul_bmod, Nat.shiftLeft_eq,
    Nat.cast_mul, Nat.cast_pow, Nat.cast_ofNat]

/-- A shift to the right divides by a power of two and rounds down. -/
theorem toInt_sshiftRight (k : Nat) : (w.sshiftRight k).toInt = ⌊(w.toInt / 2 ^ k : ℚ)⌋ := by
  rw [BitVec.toInt_sshiftRight, Int.shiftRight_eq_div_pow, ← Rat.floor_intCast_div_natCast,
    Nat.cast_pow, Nat.cast_ofNat]

end

/-! ## Laws -/

section
variable (a b : ℤ)

/-- A complement is undone by another. -/
theorem lnot_lnot : Int.lnot (Int.lnot a) = a :=
  eq_of_testBit_eq fun k => by rw [Int.testBit_lnot, Int.testBit_lnot, Bool.not_not]

/-- An exclusion is undone by another with the same number. -/
theorem xor_xor : Int.xor (Int.xor a b) b = a :=
  eq_of_testBit_eq fun k => by
    rw [Int.testBit_lxor, Int.testBit_lxor, Bool.xor_assoc, Bool.xor_self, Bool.xor_false]

/-- The complement of a conjunction is the disjunction of the complements. -/
theorem lnot_land : Int.lnot (Int.land a b) = Int.lor (Int.lnot a) (Int.lnot b) :=
  eq_of_testBit_eq fun k => by
    rw [Int.testBit_lnot, Int.testBit_land, Int.testBit_lor, Int.testBit_lnot, Int.testBit_lnot,
      Bool.not_and]

end

/-! ## Widths -/

/-- A number fits into `n` bits and a sign. -/
def Fits (n : Nat) (a : ℤ) : Prop := -2 ^ n ≤ a ∧ a < 2 ^ n

/-- The value of a word fits into the bits behind its first. -/
theorem fits_toInt {n : Nat} (w : BitVec (n + 1)) : Fits n w.toInt := ⟨w.le_toInt, w.toInt_lt⟩

/-- A number that fits into `n` bits and a sign is the value of a word with one bit more. -/
theorem Fits.toInt_ofInt {n : Nat} {a : ℤ} (h : Fits n a) : (BitVec.ofInt (n + 1) a).toInt = a := by
  obtain ⟨low, high⟩ := h
  rw [BitVec.toInt_ofInt]
  apply Int.bmod_eq_of_le_mul_two <;> push_cast <;> omega

section
variable {n : Nat} {a b : ℤ}

/-- What fits into `n` bits and a sign is at most the next power of two from zero. -/
theorem Fits.natAbs_le (h : Fits n a) : a.natAbs ≤ 2 ^ n := by
  obtain ⟨low, high⟩ := h
  have same : ((2 ^ n : Nat) : ℤ) = 2 ^ n := by rw [Nat.cast_pow, Nat.cast_ofNat]
  omega

/-- What words can be combined to fits where the parts do. -/
theorem Fits.combine {f : BitVec (n + 1) → BitVec (n + 1) → BitVec (n + 1)} {g : ℤ → ℤ → ℤ}
    (same : ∀ v w, (f v w).toInt = g v.toInt w.toInt) (left : Fits n a) (right : Fits n b) :
    Fits n (g a b) := by
  rw [← left.toInt_ofInt, ← right.toInt_ofInt, ← same]
  exact fits_toInt _

/-- A complement fits where its number does. -/
theorem Fits.lnot (h : Fits n a) : Fits n (Int.lnot a) := by
  rw [← h.toInt_ofInt, ← toInt_not _ n.succ_pos]
  exact fits_toInt _

end

end RegisterCalc.Bits
