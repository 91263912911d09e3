import RegisterCalc.Evaluation.Operation
import RegisterCalc.Tree.Basic

/-!
# Folding of constants

`Expr.fold` replaces operators and calls on numbers alone by the numbers that they evaluate to, from
the leaves up. Registers and assignments stay, and so does what fails or has no finite value; an
operator's number stands where the operator stood.
-/

namespace RegisterCalc

/-- The number that a result leaves at `offset`, or the tree that it came from where it is a fault
or not finite. -/
def foldedOr (kept : Expr) (offset : Offset) : Except RuntimeFault Float → Expr
  | .ok value => if Binary64.isFinite value then .number value offset else kept
  | .error _ => kept

/-- Folds the constants of a tree. -/
def Expr.fold : Expr → Expr
  | number value offset => number value offset
  | register id offset => register id offset
  | unary op operand offset =>
    let operand := operand.fold
    let kept := unary op operand offset
    match operand.literal? with
    | some x => foldedOr kept offset (.ok (op.apply x))
    | none => kept
  | binary op left right offset =>
    let left := left.fold
    let right := right.fold
    let kept := binary op left right offset
    match left.literal?, right.literal? with
    | some x, some y => foldedOr kept offset (op.apply x y offset)
    | _, _ => kept
  | call name argument offset =>
    let argument := argument.fold
    let kept := call name argument offset
    match argument.literal? with
    | some x => foldedOr kept offset (applyNamed name x offset)
    | none => kept
  | assign target value offset => assign target value.fold offset

end RegisterCalc
