import RegisterCalc.Evaluation.Basic

/-!
# Evaluation over given functions

The values of the functions come from the machine. Here they are given: `Expr.evaluateWith`
evaluates a tree over any values of the functions, and over those of the machine it is the
evaluation itself (`Expr.evaluateWith_apply`).
-/

namespace RegisterCalc

/-- Values of the functions. -/
abbrev FunctionValues := Function → Float → Float

/-- The value of a call of `name` at `offset`, over given functions. -/
def applyNamedWith (functions : FunctionValues) (name : String) (x : Float) (offset : Offset) :
    Except RuntimeFault Float :=
  match Function.ofName? name with
  | some f => .ok (functions f x)
  | none => .error (.unknownFunction name offset)

/-- A call over the functions of the machine. -/
theorem applyNamedWith_apply : applyNamedWith Function.apply = applyNamed := rfl

namespace Expr

/-- Evaluates an expression on registers, over given functions. -/
def evaluateWith (functions : FunctionValues) : Expr → Registers → Evaluation
  | number value _, registers => .pure (.ok value) registers
  | register id _, registers => .pure (.ok (registers.get id)) registers
  | unary op operand _, registers =>
    (operand.evaluateWith functions registers).andThen fun x after => .pure (.ok (op.apply x)) after
  | binary op left right offset, registers =>
    (left.evaluateWith functions registers).andThen fun x between =>
      (right.evaluateWith functions between).andThen fun y after =>
        .pure (op.apply x y offset) after
  | call name argument offset, registers =>
    (argument.evaluateWith functions registers).andThen fun x after =>
      .pure (applyNamedWith functions name x offset) after
  | assign target value _, registers =>
    (value.evaluateWith functions registers).andThen fun x after => .write target x after

/-- Over the functions of the machine a tree is evaluated as ever. -/
theorem evaluateWith_apply (t : Expr) (registers : Registers) :
    t.evaluateWith Function.apply registers = t.evaluate registers := by
  induction t generalizing registers with
  | number value offset | register id offset => rfl
  | unary op operand offset ih => simp only [evaluateWith, evaluate, ih]
  | binary op left right offset ihl ihr => simp only [evaluateWith, evaluate, ihl, ihr]
  | call name argument offset ih => simp only [evaluateWith, evaluate, ih, applyNamedWith_apply]
  | assign target value offset ih => simp only [evaluateWith, evaluate, ih]

end Expr

end RegisterCalc
