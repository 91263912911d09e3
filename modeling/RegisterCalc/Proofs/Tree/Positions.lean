import RegisterCalc.Evaluation.Folding
import RegisterCalc.Proofs.Evaluation.Functions

/-!
# Positions are labels

A position says where a node stands and nothing else: moving the positions of a tree moves the
position of the fault that its evaluation may end in, and changes no value, no register and no write
(`Expr.evaluate_relocate`). Trees that agree when all their positions are forgotten (`Expr.bare`)
therefore have the same value or the same kind of fault (`Expr.bare_evaluate_congr`). Folding moves
the positions along (`Expr.fold_relocate`).
-/

namespace RegisterCalc

/-! ## Moving positions -/

/-- A fault with its position moved. -/
def RuntimeFault.relocate (f : Offset → Offset) : RuntimeFault → RuntimeFault
  | divisionByZero offset => divisionByZero (f offset)
  | unknownFunction name offset => unknownFunction name (f offset)

/-- An evaluation with the position of its fault moved, if it ended in one. -/
def Evaluation.relocate (f : Offset → Offset) (evaluation : Evaluation) : Evaluation :=
  { evaluation with outcome := evaluation.outcome.mapError (RuntimeFault.relocate f) }

/-- A tree with the positions of its nodes moved. -/
def Expr.relocate (f : Offset → Offset) : Expr → Expr
  | number value offset => number value (f offset)
  | register id offset => register id (f offset)
  | unary op operand offset => unary op (operand.relocate f) (f offset)
  | binary op left right offset => binary op (left.relocate f) (right.relocate f) (f offset)
  | call name argument offset => call name (argument.relocate f) (f offset)
  | assign target value offset => assign target (value.relocate f) (f offset)

/-- A tree with all positions forgotten. -/
def Expr.bare (t : Expr) : Expr := t.relocate fun _ => 0

/-- What comes of an evaluation, with the position of a fault forgotten. -/
def Evaluation.bare (evaluation : Evaluation) : Evaluation := evaluation.relocate fun _ => 0

/-! ## Evaluation -/

section
variable (f : Offset → Offset)

/-- Only a fault has a position. -/
theorem Evaluation.relocate_pure_ok (x : Float) (registers : Registers) :
    (Evaluation.pure (.ok x) registers).relocate f = .pure (.ok x) registers := rfl

/-- The position of a fault is moved wherever in a sequence the fault occurs. -/
theorem Evaluation.relocate_andThen (first : Evaluation) (next : Float → Registers → Evaluation) :
    (first.andThen next).relocate f =
      (first.relocate f).andThen fun x registers => (next x registers).relocate f := by
  obtain ⟨outcome, registers, writes⟩ := first
  cases outcome with
  | error fault => rfl
  | ok value => rfl

/-- An operator at another position fails at the other position, and has the same value. -/
theorem BinaryOp.apply_relocate (op : BinaryOp) (x y : Float) (offset : Offset) :
    op.apply x y (f offset) = (op.apply x y offset).mapError (RuntimeFault.relocate f) := by
  cases op with
  | div =>
    simp only [BinaryOp.apply]
    split <;> rfl
  | _ => rfl

/-- A call at another position fails at the other position, and has the same value. -/
theorem applyNamedWith_relocate (functions : FunctionValues) (name : String) (x : Float)
    (offset : Offset) : applyNamedWith functions name x (f offset) =
      (applyNamedWith functions name x offset).mapError (RuntimeFault.relocate f) := by
  unfold applyNamedWith
  split <;> rfl

/-- Evaluating a tree with its positions moved moves the position of the fault only, whatever the
functions. -/
theorem Expr.evaluateWith_relocate (functions : FunctionValues) (t : Expr)
    (registers : Registers) : (t.relocate f).evaluateWith functions registers =
      (t.evaluateWith functions registers).relocate f := by
  induction t generalizing registers with
  | number value offset | register id offset => rfl
  | unary op operand offset ih =>
    simp only [relocate, evaluateWith, ih, Evaluation.relocate_andThen,
      Evaluation.relocate_pure_ok]
  | binary op left right offset ihl ihr =>
    simp only [relocate, evaluateWith, ihl, ihr, Evaluation.relocate_andThen,
      BinaryOp.apply_relocate]
    rfl
  | call name argument offset ih =>
    simp only [relocate, evaluateWith, ih, Evaluation.relocate_andThen, applyNamedWith_relocate]
    rfl
  | assign target value offset ih =>
    simp only [relocate, evaluateWith, ih, Evaluation.relocate_andThen]
    rfl

/-- Evaluating a tree with its positions moved moves the position of the fault only. -/
theorem Expr.evaluate_relocate (t : Expr) (registers : Registers) :
    (t.relocate f).evaluate registers = (t.evaluate registers).relocate f := by
  rw [← evaluateWith_apply, ← evaluateWith_apply, evaluateWith_relocate]

end

/-- Trees that agree up to positions have the same value or the same kind of fault, and leave the
same registers, whatever the functions. -/
theorem Expr.bare_evaluateWith_congr {t u : Expr} (same : t.bare = u.bare)
    (functions : FunctionValues) (registers : Registers) :
    (t.evaluateWith functions registers).bare = (u.evaluateWith functions registers).bare := by
  calc (t.evaluateWith functions registers).bare = t.bare.evaluateWith functions registers :=
        (t.evaluateWith_relocate _ functions registers).symm
    _ = u.bare.evaluateWith functions registers := by rw [same]
    _ = (u.evaluateWith functions registers).bare := u.evaluateWith_relocate _ functions registers

/-- Trees that agree up to positions have the same value or the same kind of fault, and leave the
same registers. -/
theorem Expr.bare_evaluate_congr {t u : Expr} (same : t.bare = u.bare) (registers : Registers) :
    (t.evaluate registers).bare = (u.evaluate registers).bare := by
  simpa only [evaluateWith_apply] using bare_evaluateWith_congr same Function.apply registers

/-! ## Folding -/

namespace Expr

section
variable (f : Offset → Offset)

/-- A tree with its positions moved is a number if and only if it is one. -/
theorem literal?_relocate (t : Expr) : (t.relocate f).literal? = t.literal? := by
  cases t <;> rfl

/-- What a result leaves at another position is moved there. -/
theorem foldedOr_relocate (kept : Expr) (offset : Offset) (result : Except RuntimeFault Float) :
    foldedOr (kept.relocate f) (f offset) (result.mapError (RuntimeFault.relocate f)) =
      (foldedOr kept offset result).relocate f := by
  cases result with
  | error fault => rfl
  | ok value =>
    show foldedOr (kept.relocate f) (f offset) (.ok value) = _
    cases finite : Binary64.isFinite value <;> simp [foldedOr, finite, relocate]

/-- Folding a tree with its positions moved moves the positions of the folded tree. -/
theorem fold_relocate (t : Expr) : (t.relocate f).fold = t.fold.relocate f := by
  induction t with
  | number value offset | register id offset => rfl
  | unary op operand offset ih =>
    simp only [relocate, fold, ih, literal?_relocate]
    cases operand.fold.literal? with
    | none => rfl
    | some x => exact foldedOr_relocate f (unary op operand.fold offset) offset (.ok (op.apply x))
  | binary op left right offset ihl ihr =>
    simp only [relocate, fold, ihl, ihr, literal?_relocate, BinaryOp.apply_relocate]
    cases left.fold.literal? with
    | none => rfl
    | some x =>
      cases right.fold.literal? with
      | none => rfl
      | some y => exact foldedOr_relocate f (binary op left.fold right.fold offset) offset _
  | call name argument offset ih =>
    simp only [relocate, fold, ih, literal?_relocate, ← applyNamedWith_apply,
      applyNamedWith_relocate]
    cases argument.fold.literal? with
    | none => rfl
    | some x => exact foldedOr_relocate f (call name argument.fold offset) offset _
  | assign target value offset ih => simp only [relocate, fold, ih]

end

/-- Trees that agree up to positions agree up to positions when they are folded. -/
theorem bare_fold_congr {t u : Expr} (same : t.bare = u.bare) : t.fold.bare = u.fold.bare := by
  calc t.fold.bare = t.bare.fold := (t.fold_relocate _).symm
    _ = u.bare.fold := by rw [same]
    _ = u.fold.bare := u.fold_relocate _

end Expr

end RegisterCalc
