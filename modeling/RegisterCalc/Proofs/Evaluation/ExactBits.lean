import RegisterCalc.Proofs.Evaluation.BitOperators

/-!
# Operators on bits without rounding

Operands whose truncations take at most 53 bits have them as values of doubles, and operators on
bits do not leave these numbers (`Fits`), except that shifts may. So in a tree of conjunctions,
disjunctions, exclusions and complements nothing is ever rounded: every part has the exact whole
number as its value (`Expr.Combines.evaluate`), and the laws of whole numbers hold of doubles
(`Expr.evaluate_bitOperators`).
-/

namespace RegisterCalc

open Binary64 Bits

/-- The operation on whole numbers that an operator on bits is, shifts apart. -/
def BinaryOp.combination? : BinaryOp → Option (ℤ → ℤ → ℤ)
  | bitAnd => some Int.land
  | bitOr => some Int.lor
  | bitXor => some Int.xor
  | _ => none

section
variable {op : BinaryOp} {combine : ℤ → ℤ → ℤ} (known : op.combination? = some combine)
include known

/-- An operator on bits combines the words of its operands, of whatever width, as it combines their
values. -/
theorem BinaryOp.exists_onWords : ∃ f : (n : Nat) → BitVec n → BitVec n → BitVec n,
    (∀ n v w, (f n v w).toInt = combine v.toInt w.toInt) ∧
      ∀ x y offset, op.apply x y offset = .ok (onWords (f 64) x y) := by
  cases op <;> cases known
  · exact ⟨fun _ => (· &&& ·), fun _ => toInt_and, fun _ _ _ => rfl⟩
  · exact ⟨fun _ => (· ||| ·), fun _ => toInt_or, fun _ _ _ => rfl⟩
  · exact ⟨fun _ => (· ^^^ ·), fun _ => toInt_xor, fun _ _ _ => rfl⟩

/-- Combining numbers does not take more bits. -/
theorem BinaryOp.fits_combination {n : Nat} {a b : ℤ} (left : Fits n a) (right : Fits n b) :
    Fits n (combine a b) := by
  obtain ⟨f, same, -⟩ := exists_onWords known
  exact left.combine (same (n + 1)) right

/-- An operator on bits combines the truncations of its operands. -/
theorem BinaryOp.apply_of_combination? (x y : Float) (offset : Offset) :
    op.apply x y offset = .ok (ofInt (combine (truncate x) (truncate y))) := by
  obtain ⟨f, same, apply⟩ := exists_onWords known
  rw [apply, onWords, ofWord, same, toInt_toWord, toInt_toWord]

end

/-- The complement of a number is that of its truncation. -/
theorem PrefixOp.apply_complement (x : Float) :
    PrefixOp.complement.apply x = ofInt (Int.lnot (truncate x)) := by
  rw [← toInt_toWord, ← toInt_not _ (by decide)]
  rfl

namespace Expr

/-- A tree has a value, without a write, and the truncation of the value lies between `-2 ^ 53` and
`2 ^ 53`. -/
def IsOperand (registers : Registers) (t : Expr) (a : ℤ) : Prop :=
  ∃ x, t.evaluate registers = .pure (.ok x) registers ∧ IsTruncation x a ∧
    -2 ^ 53 < a ∧ a < 2 ^ 53

/-- A tree has the double of a whole number as its value, without a write, and the double is exactly
that number. -/
def Yields (registers : Registers) (t : Expr) (a : ℤ) : Prop :=
  t.evaluate registers = .pure (.ok (ofInt a)) registers ∧ isFinite (ofInt a) ∧
    value (ofInt a) = a

/-- A tree of operators on bits over operands, shifts apart, and the whole number that comes of the
truncations of the operands. -/
inductive Combines (registers : Registers) : Expr → ℤ → Prop
  | operand {t : Expr} {a : ℤ} : IsOperand registers t a → Combines registers t a
  | complement {t : Expr} {a : ℤ} (offset : Offset) : Combines registers t a →
    Combines registers (.unary .complement t offset) (Int.lnot a)
  | binary {op : BinaryOp} {combine : ℤ → ℤ → ℤ} {left right : Expr} {a b : ℤ} (offset : Offset) :
    op.combination? = some combine → Combines registers left a → Combines registers right b →
    Combines registers (.binary op left right offset) (combine a b)

variable {registers : Registers} {t left right : Expr} {a b : ℤ}

/-- The complement of a tree without writes. -/
theorem evaluate_complement {x : Float} (h : t.evaluate registers = .pure (.ok x) registers)
    (offset : Offset) : (unary .complement t offset).evaluate registers =
      .pure (.ok (ofInt (Int.lnot (truncate x)))) registers := by
  rw [evaluate, h, Evaluation.pure_andThen, PrefixOp.apply_complement]

/-- An operator on bits between trees without writes. -/
theorem evaluate_combination {op : BinaryOp} {combine : ℤ → ℤ → ℤ}
    (known : op.combination? = some combine) {x y : Float}
    (h : left.evaluate registers = .pure (.ok x) registers)
    (h' : right.evaluate registers = .pure (.ok y) registers) (offset : Offset) :
    (binary op left right offset).evaluate registers =
      .pure (.ok (ofInt (combine (truncate x) (truncate y)))) registers := by
  rw [evaluate, h, Evaluation.pure_andThen, h', Evaluation.pure_andThen,
    BinaryOp.apply_of_combination? known]

/-- A tree of operators on bits has a value whose truncation is the exact whole number, and this
fits into 53 bits and a sign: it is the invariant that no operator has to round. -/
theorem Combines.evaluate (h : Combines registers t a) :
    Fits 53 a ∧ ∃ x, t.evaluate registers = .pure (.ok x) registers ∧ truncate x = a := by
  induction h with
  | operand h =>
    obtain ⟨x, value, truncation, low, high⟩ := h
    exact ⟨⟨low.le, high⟩, x, value, (isTruncation_iff.1 truncation).symm⟩
  | complement offset _ ih =>
    obtain ⟨fits, x, value, rfl⟩ := ih
    exact ⟨fits.lnot, _, evaluate_complement value offset,
      truncate_ofInt fits.lnot.natAbs_le⟩
  | binary offset known _ _ ihLeft ihRight =>
    obtain ⟨fits, x, value, rfl⟩ := ihLeft
    obtain ⟨fits', y, value', rfl⟩ := ihRight
    have fits := BinaryOp.fits_combination known fits fits'
    exact ⟨fits, _, evaluate_combination known value value' offset,
      truncate_ofInt fits.natAbs_le⟩

/-- The complement of a tree of operators on bits is exact. -/
theorem Combines.yields_complement (h : Combines registers t a) (offset : Offset) :
    Yields registers (.unary .complement t offset) (Int.lnot a) := by
  obtain ⟨fits, x, value, rfl⟩ := h.evaluate
  exact ⟨evaluate_complement value offset, value_ofInt fits.lnot.natAbs_le⟩

/-- An operator on bits between trees of them is exact. -/
theorem Combines.yields_binary {op : BinaryOp} {combine : ℤ → ℤ → ℤ}
    (known : op.combination? = some combine) (h : Combines registers left a)
    (h' : Combines registers right b) (offset : Offset) :
    Yields registers (.binary op left right offset) (combine a b) := by
  obtain ⟨fits, x, value, rfl⟩ := h.evaluate
  obtain ⟨fits', y, value', rfl⟩ := h'.evaluate
  exact ⟨evaluate_combination known value value' offset,
    value_ofInt (BinaryOp.fits_combination known fits fits').natAbs_le⟩

/-- On operands whose truncations lie between `-2 ^ 53` and `2 ^ 53` operators on bits lose nothing:
a complement of a complement is the truncation, as is an exclusion of an exclusion with the same
operand, and the complement of a conjunction is the disjunction of the complements. Every operator
in a tree of them, so every one in a sequence, has the exact whole number as its value, which lies
from `-2 ^ 53` up to, but not including, `2 ^ 53`. -/
theorem evaluate_bitOperators (registers : Registers) :
    (∀ t a offset offset', IsOperand registers t a →
      Yields registers (unary .complement (unary .complement t offset) offset') a) ∧
    (∀ t u a b offset offset', IsOperand registers t a → IsOperand registers u b →
      Yields registers (binary .bitXor (binary .bitXor t u offset) u offset') a) ∧
    (∀ t u a b offset offset' p q r, IsOperand registers t a → IsOperand registers u b →
      (unary .complement (binary .bitAnd t u offset) offset').evaluate registers =
        (binary .bitOr (unary .complement t p) (unary .complement u q) r).evaluate registers) ∧
    ∀ op combine left right a b offset, op.combination? = some combine →
      Combines registers left a → Combines registers right b →
      Yields registers (binary op left right offset) (combine a b) ∧
        -2 ^ 53 ≤ combine a b ∧ combine a b < 2 ^ 53 := by
  have conjunction : BinaryOp.bitAnd.combination? = some Int.land := rfl
  have disjunction : BinaryOp.bitOr.combination? = some Int.lor := rfl
  have exclusion : BinaryOp.bitXor.combination? = some Int.xor := rfl
  refine ⟨fun t a offset offset' h => ?_, fun t u a b offset offset' h h' => ?_,
    fun t u a b offset offset' p q r h h' => ?_,
    fun op combine left right a b offset known h h' => ?_⟩
  · have twice := (Combines.complement offset (.operand h)).yields_complement offset'
    rwa [lnot_lnot] at twice
  · have once := Combines.binary offset exclusion (.operand h) (.operand h')
    have twice := once.yields_binary exclusion (.operand h') offset'
    rwa [xor_xor] at twice
  · have once := Combines.binary offset conjunction (.operand h) (.operand h')
    have whole := once.yields_complement offset'
    have parts := Combines.yields_binary disjunction (.complement p (.operand h))
      (.complement q (.operand h')) r
    rw [whole.1, parts.1, lnot_land]
  · obtain ⟨fits, -⟩ := (Combines.binary offset known h h').evaluate
    exact ⟨h.yields_binary known h' offset, fits⟩

/-- The number next to `-2 ^ 53` and a register with a fraction, whose conjunction is `-2 ^ 53`. -/
theorem evaluate_bitOperators_least : ∃ (registers : Registers) (t u : Expr),
    registers = Registers.empty.set 1 (-2.5) ∧ t = number (-9007199254740991) 0 ∧
    u = register 1 2 ∧ IsOperand registers t (-9007199254740991) ∧ IsOperand registers u (-2) ∧
    Yields registers (unary .complement (unary .complement t 0) 0) (-9007199254740991) ∧
    Yields registers (binary .bitXor (binary .bitXor t u 1) u 1) (-9007199254740991) ∧
    (unary .complement (binary .bitAnd t u 1) 0).evaluate registers =
      (binary .bitOr (unary .complement t 0) (unary .complement u 0) 1).evaluate registers ∧
    Yields registers (binary .bitAnd t u 1) (-2 ^ 53) := by
  have first : IsOperand (Registers.empty.set 1 (-2.5)) (number (-9007199254740991) 0)
      (-9007199254740991) :=
    ⟨_, rfl, isTruncation_iff.2 (by decide +kernel), by decide, by decide⟩
  have second : IsOperand (Registers.empty.set 1 (-2.5)) (register 1 2) (-2) :=
    ⟨_, rfl, isTruncation_iff.2 (by decide +kernel), by decide, by decide⟩
  have least : Int.land (-9007199254740991) (-2) = -2 ^ 53 := by decide +kernel
  obtain ⟨complements, exclusions, conjunction, exact⟩ :=
    evaluate_bitOperators (Registers.empty.set 1 (-2.5))
  have edge := (exact .bitAnd _ _ _ _ _ 1 rfl (.operand first) (.operand second)).1
  rw [least] at edge
  exact ⟨_, _, _, rfl, rfl, rfl, first, second, complements _ _ _ _ first,
    exclusions _ _ _ _ _ _ first second, conjunction _ _ _ _ _ _ _ _ _ first second, edge⟩

end Expr

end RegisterCalc
