import RegisterCalc.Evaluation.Operation
import RegisterCalc.Registers
import RegisterCalc.Tree.Basic

/-!
# Evaluation

An expression is evaluated from left to right, operands before operators, and no operand is skipped:
both sides of a logical operator are evaluated. An assignment writes its register once its value is
known. The first fault ends the evaluation; what was written before it stays.
-/

namespace RegisterCalc

/-- What comes of evaluating an expression: its value or the fault that ended it, the registers
afterwards, and the writes that led there, in order. -/
structure Evaluation where
  outcome : Except RuntimeFault Float
  registers : Registers
  writes : List Write

namespace Evaluation

/-- Nothing but a result, which writes nothing. -/
def pure (outcome : Except RuntimeFault Float) (registers : Registers) : Evaluation :=
  ⟨outcome, registers, []⟩

/-- Goes on with the value and the registers of an evaluation, unless it ended in a fault. -/
def andThen (first : Evaluation) (next : Float → Registers → Evaluation) : Evaluation :=
  match first.outcome with
  | .error _ => first
  | .ok value =>
    let second := next value first.registers
    ⟨second.outcome, second.registers, first.writes ++ second.writes⟩

/-- What follows a value that was had without a write starts from the same registers. -/
@[simp] theorem pure_andThen (x : Float) (registers : Registers)
    (next : Float → Registers → Evaluation) :
    (pure (.ok x) registers).andThen next = next x registers := rfl

section
variable {first : Evaluation} {next : Float → Registers → Evaluation}

/-- Nothing follows a fault. -/
theorem andThen_of_error {fault : RuntimeFault} (h : first.outcome = .error fault) :
    first.andThen next = first := by
  simp only [andThen, h]

/-- What follows a value starts from the registers that it leaves. -/
theorem andThen_of_ok {x : Float} (h : first.outcome = .ok x) :
    first.andThen next = ⟨(next x first.registers).outcome, (next x first.registers).registers,
      first.writes ++ (next x first.registers).writes⟩ := by
  simp only [andThen, h]

end

/-- Writes a register and keeps the value. -/
def write (id : RegisterId) (value : Float) (registers : Registers) : Evaluation :=
  ⟨.ok value, registers.set id value, [(id, value)]⟩

end Evaluation

/-- Evaluates an expression on registers. -/
def Expr.evaluate : Expr → Registers → Evaluation
  | number value _, registers => .pure (.ok value) registers
  | register id _, registers => .pure (.ok (registers.get id)) registers
  | unary op operand _, registers =>
    (operand.evaluate registers).andThen fun x after => .pure (.ok (op.apply x)) after
  | binary op left right offset, registers =>
    (left.evaluate registers).andThen fun x between =>
      (right.evaluate between).andThen fun y after => .pure (op.apply x y offset) after
  | call name argument offset, registers =>
    (argument.evaluate registers).andThen fun x after => .pure (applyNamed name x offset) after
  | assign target value _, registers =>
    (value.evaluate registers).andThen fun x after => .write target x after

end RegisterCalc
