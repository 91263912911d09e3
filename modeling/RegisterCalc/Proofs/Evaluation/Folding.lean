import RegisterCalc.Evaluation.Basic
import RegisterCalc.Evaluation.Folding

/-!
# Folding keeps the meaning

A folded tree is evaluated as the tree it comes from, on all registers (`evaluate_fold`): the same
value or the same fault at the same place, the same registers afterwards and the same writes. A
number takes the place of an operator or a call only where the operands are numbers, and evaluating
those writes nothing (`evaluate_of_literal?`), so no write and no fault is lost, moved or put before
another.
-/

namespace RegisterCalc

namespace Expr

/-- A number is its value, whatever the registers. -/
theorem evaluate_of_literal? {t : Expr} {x : Float} (h : t.literal? = some x)
    (registers : Registers) : t.evaluate registers = .pure (.ok x) registers := by
  cases t <;> cases h
  rfl

/-- A result may take the place of a tree that has it without a write. -/
theorem evaluate_foldedOr {kept : Expr} {result : Except RuntimeFault Float} {registers : Registers}
    (h : kept.evaluate registers = .pure result registers) (offset : Offset) :
    (foldedOr kept offset result).evaluate registers = kept.evaluate registers := by
  unfold foldedOr
  split
  case h_1 value =>
    split
    · exact h.symm
    · rfl
  case h_2 => rfl

/-! ## One node -/

section
variable {registers : Registers}

/-- Folding at a prefix operator. -/
theorem evaluate_fold_unary (op : PrefixOp) {operand : Expr} (offset : Offset)
    (ih : ∀ registers, operand.fold.evaluate registers = operand.evaluate registers) :
    (unary op operand offset).fold.evaluate registers =
      (unary op operand offset).evaluate registers := by
  have kept : (unary op operand.fold offset).evaluate registers =
      (unary op operand offset).evaluate registers := by
    simp only [evaluate, ih]
  simp only [fold]
  split
  case h_1 x literal =>
    refine (evaluate_foldedOr ?_ offset).trans kept
    rw [evaluate, evaluate_of_literal? literal, Evaluation.pure_andThen]
  case h_2 => exact kept

/-- Folding at a binary operator. A division by zero stays, so that it fails where it stands. -/
theorem evaluate_fold_binary (op : BinaryOp) {left right : Expr} (offset : Offset)
    (ihl : ∀ registers, left.fold.evaluate registers = left.evaluate registers)
    (ihr : ∀ registers, right.fold.evaluate registers = right.evaluate registers) :
    (binary op left right offset).fold.evaluate registers =
      (binary op left right offset).evaluate registers := by
  have kept : (binary op left.fold right.fold offset).evaluate registers =
      (binary op left right offset).evaluate registers := by
    simp only [evaluate, ihl, ihr]
  simp only [fold]
  split
  case h_1 x y literal literal' =>
    refine (evaluate_foldedOr ?_ offset).trans kept
    rw [evaluate, evaluate_of_literal? literal, Evaluation.pure_andThen,
      evaluate_of_literal? literal', Evaluation.pure_andThen]
  case h_2 => exact kept

/-- Folding at a call. A call of what is no function stays. -/
theorem evaluate_fold_call (name : String) {argument : Expr} (offset : Offset)
    (ih : ∀ registers, argument.fold.evaluate registers = argument.evaluate registers) :
    (call name argument offset).fold.evaluate registers =
      (call name argument offset).evaluate registers := by
  have kept : (call name argument.fold offset).evaluate registers =
      (call name argument offset).evaluate registers := by
    simp only [evaluate, ih]
  simp only [fold]
  split
  case h_1 x literal =>
    refine (evaluate_foldedOr ?_ offset).trans kept
    rw [evaluate, evaluate_of_literal? literal, Evaluation.pure_andThen]
  case h_2 => exact kept

end

/-! ## The whole tree -/

/-- A folded tree is evaluated as the tree it comes from. -/
theorem evaluate_fold (t : Expr) (registers : Registers) :
    t.fold.evaluate registers = t.evaluate registers := by
  induction t generalizing registers with
  | number value offset | register id offset => rfl
  | unary op operand offset ih => exact evaluate_fold_unary op offset ih
  | binary op left right offset ihl ihr => exact evaluate_fold_binary op offset ihl ihr
  | call name argument offset ih => exact evaluate_fold_call name offset ih
  | assign target value offset ih => simp only [fold, evaluate, ih]

/-- Folding changes no outcome, neither a value nor a fault with its name and its place, none of the
registers afterwards and none of the writes that lead there. -/
theorem fold_keeps_meaning (t : Expr) (registers : Registers) :
    (t.fold.evaluate registers).outcome = (t.evaluate registers).outcome ∧
      (t.fold.evaluate registers).registers = (t.evaluate registers).registers ∧
      (t.fold.evaluate registers).writes = (t.evaluate registers).writes := by
  rw [evaluate_fold]
  exact ⟨rfl, rfl, rfl⟩

end Expr

end RegisterCalc
