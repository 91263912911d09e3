import RegisterCalc.Proofs.Evaluation.Faults
import RegisterCalc.Proofs.Registers.Entries

/-!
# Evaluation as a list of instructions

The nodes of a tree in postorder are instructions for a machine with a stack of values
(`Expr.postorder`), and evaluating the tree is carrying them out one after another, up to the first
that fails (`Expr.evaluate_postorder`): the outcome is the value that is left on the stack or the
fault, and the registers have been written by the instructions before the one that fails. There are
no jumps, so no operand is skipped, and the left one comes first.

A part of a tree leaves one value on the stack above what was there, and what follows takes it
from there. The invariant `CarriesOut` says so of any instructions, wherever they stand and whatever
comes behind them; an evaluation that goes on after another is carried out by the instructions of
the two in their order (`CarriesOut.andThen`).
-/

namespace RegisterCalc

/-! ## The machine -/

/-- An instruction; one that can fail knows where it is reported. -/
inductive Instruction where
  | push (value : Float)
  | load (id : RegisterId)
  | unary (op : PrefixOp)
  | call (name : String) (offset : Offset)
  | binary (op : BinaryOp) (offset : Offset)
  | store (target : RegisterId)

namespace Instruction

/-- The register that an instruction writes. -/
def target? : Instruction → Option RegisterId
  | store target => some target
  | _ => none

/-- Where a fault of an instruction is reported. -/
def offset? : Instruction → Option Offset
  | call _ offset | binary _ offset => some offset
  | _ => none

end Instruction

/-- A machine: its values, the last one first, its registers, and what was written to them. -/
structure Machine where
  stack : List Float
  registers : Registers
  writes : List Write

/-- Why an instruction is not carried out. -/
inductive Stop where
  | fault (fault : RuntimeFault)
  /-- There are fewer values than the instruction takes. -/
  | underflow

/-- Puts the result of an operation on a stack. -/
def Machine.pushResult (machine : Machine) : Except RuntimeFault Float → Except Stop Machine
  | .ok value => .ok { machine with stack := value :: machine.stack }
  | .error fault => .error (.fault fault)

/-- Carries out an instruction. An operator takes its operands from the stack, the right one first,
and a value that is stored stays there. -/
def Instruction.step : Instruction → Machine → Except Stop Machine
  | push value, machine => machine.pushResult (.ok value)
  | load id, machine => machine.pushResult (.ok (machine.registers.get id))
  | unary op, ⟨x :: stack, registers, writes⟩ =>
    Machine.pushResult ⟨stack, registers, writes⟩ (.ok (op.apply x))
  | call name offset, ⟨x :: stack, registers, writes⟩ =>
    Machine.pushResult ⟨stack, registers, writes⟩ (applyNamed name x offset)
  | binary op offset, ⟨y :: x :: stack, registers, writes⟩ =>
    Machine.pushResult ⟨stack, registers, writes⟩ (op.apply x y offset)
  | store target, ⟨x :: stack, registers, writes⟩ =>
    .ok ⟨x :: stack, registers.set target x, writes ++ [(target, x)]⟩
  | _, _ => .error .underflow

/-- Where a machine ends: behind all instructions, or before one that was not carried out. -/
structure Halt where
  machine : Machine
  stop : Option Stop

namespace Machine

/-- A machine before its first instruction. -/
def start (registers : Registers) : Machine := ⟨[], registers, []⟩

/-- Carries out instructions one after another, up to the first that fails. -/
def run (machine : Machine) : List Instruction → Halt
  | [] => ⟨machine, none⟩
  | instruction :: rest =>
    match instruction.step machine with
    | .ok after => after.run rest
    | .error stop => ⟨machine, some stop⟩

variable {machine after : Machine} {instruction : Instruction} {rest : List Instruction}
  {stop : Stop}

/-- An instruction that is carried out is followed by the others. -/
theorem run_cons_of_ok (h : instruction.step machine = .ok after) :
    machine.run (instruction :: rest) = after.run rest := by
  simp only [run, h]

/-- A machine ends before an instruction that is not carried out. -/
theorem run_cons_of_error (h : instruction.step machine = .error stop) :
    machine.run (instruction :: rest) = ⟨machine, some stop⟩ := by
  simp only [run, h]

end Machine

/-- The instructions of a tree: its nodes in postorder. -/
def Expr.postorder : Expr → List Instruction
  | number value _ => [.push value]
  | register id _ => [.load id]
  | unary op operand _ => operand.postorder ++ [.unary op]
  | binary op left right offset => left.postorder ++ (right.postorder ++ [.binary op offset])
  | call name argument offset => argument.postorder ++ [.call name offset]
  | assign target value _ => value.postorder ++ [.store target]

/-! ## Carrying out an evaluation -/

/-- Instructions carry out an evaluation on a machine, above the values `below`: whatever comes
behind them goes on with its value and its registers, or the machine ends with its fault. -/
structure CarriesOut (instructions : List Instruction) (machine : Machine) (below : List Float)
    (evaluation : Evaluation) : Prop where
  value : ∀ x, evaluation.outcome = .ok x → ∀ rest, machine.run (instructions ++ rest) =
    Machine.run ⟨x :: below, evaluation.registers, machine.writes ++ evaluation.writes⟩ rest
  fault : ∀ fault, evaluation.outcome = .error fault → ∀ rest, ∃ stack,
    machine.run (instructions ++ rest) =
      ⟨⟨stack, evaluation.registers, machine.writes ++ evaluation.writes⟩, some (.fault fault)⟩

namespace CarriesOut

variable {machine : Machine} {below : List Float}

/-- An instruction that puts a result on the stack carries out what has it without a write. -/
theorem pushResult {instruction : Instruction} {result : Except RuntimeFault Float}
    (h : instruction.step machine =
      Machine.pushResult ⟨below, machine.registers, machine.writes⟩ result) :
    CarriesOut [instruction] machine below (.pure result machine.registers) := by
  refine ⟨?_, ?_⟩
  · rintro x rfl rest
    show _ = Machine.run ⟨x :: below, machine.registers, machine.writes ++ []⟩ rest
    rw [List.append_nil]
    exact Machine.run_cons_of_ok h
  · rintro fault rfl rest
    refine ⟨machine.stack, ?_⟩
    show _ = Halt.mk ⟨machine.stack, machine.registers, machine.writes ++ []⟩ _
    rw [List.append_nil]
    exact Machine.run_cons_of_error h

/-- A value on the stack is stored and stays there. -/
theorem store (target : RegisterId) (x : Float) (registers : Registers) (writes : List Write) :
    CarriesOut [.store target] ⟨x :: below, registers, writes⟩ below
      (.write target x registers) := by
  refine ⟨?_, ?_⟩
  · rintro _ ⟨⟩ rest
    exact Machine.run_cons_of_ok rfl
  · rintro fault ⟨⟩

/-- An evaluation and what follows its value are carried out one behind the other. -/
theorem andThen {instructions instructions' : List Instruction} {below' : List Float}
    {first : Evaluation} {next : Float → Registers → Evaluation}
    (h : CarriesOut instructions machine below first)
    (further : ∀ x, CarriesOut instructions'
      ⟨x :: below, first.registers, machine.writes ++ first.writes⟩ below'
      (next x first.registers)) :
    CarriesOut (instructions ++ instructions') machine below' (first.andThen next) := by
  cases outcome : first.outcome with
  | error fault =>
    rw [Evaluation.andThen_of_error outcome]
    refine ⟨fun x same => ?_, fun fault' same rest => ?_⟩
    · rw [outcome] at same
      cases same
    · rw [List.append_assoc]
      exact h.fault fault' same _
  | ok x =>
    have goesOn (rest : List Instruction) := h.value x outcome (instructions' ++ rest)
    rw [Evaluation.andThen_of_ok outcome]
    refine ⟨fun y same rest => ?_, fun fault same rest => ?_⟩
    · rw [List.append_assoc, goesOn, (further x).value y same, List.append_assoc]
    · obtain ⟨stack, halted⟩ := (further x).fault fault same rest
      refine ⟨stack, ?_⟩
      rw [List.append_assoc, goesOn, halted, List.append_assoc]

end CarriesOut

/-- The instructions of a tree carry out its evaluation. -/
theorem Expr.carriesOut_postorder (t : Expr) (machine : Machine) :
    CarriesOut t.postorder machine machine.stack (t.evaluate machine.registers) := by
  induction t generalizing machine with
  | number value offset | register id offset => exact .pushResult rfl
  | unary op operand offset ih => exact (ih machine).andThen fun x => .pushResult rfl
  | binary op left right offset ihl ihr =>
    refine (ihl machine).andThen fun x => ?_
    exact (ihr ⟨x :: machine.stack, _, _⟩).andThen fun y => .pushResult rfl
  | call name argument offset ih => exact (ih machine).andThen fun x => .pushResult rfl
  | assign target value offset ih => exact (ih machine).andThen fun x => .store target x _ _

/-! ## Where a machine ends -/

section
variable {machine after : Machine} {instruction : Instruction} {instructions : List Instruction}
  {stop : Stop}

/-- A result on the stack writes nothing. -/
theorem Machine.eq_of_pushResult {result : Except RuntimeFault Float}
    (h : machine.pushResult result = .ok after) :
    after.registers = machine.registers ∧ after.writes = machine.writes := by
  cases result <;> cases h
  exact ⟨rfl, rfl⟩

/-- An instruction writes its target, if it has one. -/
theorem Instruction.writes_step (h : instruction.step machine = .ok after) : ∃ writes,
    after.writes = machine.writes ++ writes ∧ writes.map (·.1) = instruction.target?.toList ∧
      after.registers = machine.registers.setAll writes := by
  have silent (registers : after.registers = machine.registers)
      (writes : after.writes = machine.writes) : ∃ writes, after.writes = machine.writes ++ writes ∧
        writes.map (·.1) = [] ∧ after.registers = machine.registers.setAll writes :=
    ⟨[], by rw [writes, List.append_nil], rfl, registers⟩
  unfold step at h
  split at h
  case h_6 target x stack registers writes =>
    cases h
    exact ⟨[(target, x)], rfl, rfl, rfl⟩
  case h_7 => cases h
  all_goals
    obtain ⟨registers, writes⟩ := Machine.eq_of_pushResult h
    exact silent registers writes

/-- A fault is reported where the instruction that fails is. -/
theorem Instruction.offset?_of_step {fault : RuntimeFault}
    (h : instruction.step machine = .error (.fault fault)) :
    instruction.offset? = some fault.offset := by
  have ofResult {machine : Machine} {result : Except RuntimeFault Float}
      (h : machine.pushResult result = .error (.fault fault)) : result = .error fault := by
    cases result <;> cases h
    rfl
  unfold step at h
  split at h
  case h_4 name offset x stack registers writes =>
    exact congrArg some (fails_of_applyNamed (ofResult h)).offset_eq
  case h_5 op offset y x stack registers writes =>
    exact congrArg some (BinaryOp.fails_of_apply (ofResult h)).offset_eq
  all_goals cases h

namespace Machine

/-- Instructions that are all carried out write their targets in order. -/
theorem writes_run (h : machine.run instructions = ⟨after, none⟩) : ∃ writes,
    after.writes = machine.writes ++ writes ∧
      writes.map (·.1) = instructions.filterMap Instruction.target? ∧
      after.registers = machine.registers.setAll writes := by
  induction instructions generalizing machine with
  | nil =>
    cases h
    exact ⟨[], (List.append_nil _).symm, rfl, rfl⟩
  | cons instruction rest ih =>
    cases step : instruction.step machine with
    | error stop =>
      rw [run_cons_of_error step] at h
      cases h
    | ok between =>
      rw [run_cons_of_ok step] at h
      obtain ⟨own, ownWrites, ownTargets, ownRegisters⟩ := Instruction.writes_step step
      obtain ⟨later, writes, targets, registers⟩ := ih h
      refine ⟨own ++ later, ?_, ?_, ?_⟩
      · rw [writes, ownWrites, List.append_assoc]
      · rw [List.map_append, ownTargets, targets, List.filterMap_cons]
        cases instruction.target? <;> rfl
      · rw [Registers.setAll_append, ← ownRegisters, registers]

/-- A machine that ends early has carried out the instructions before one that it does not. -/
theorem exists_failing (h : machine.run instructions = ⟨after, some stop⟩) :
    ∃ done failing rest, instructions = done ++ failing :: rest ∧
      machine.run done = ⟨after, none⟩ ∧ failing.step after = .error stop := by
  induction instructions generalizing machine with
  | nil => cases h
  | cons instruction rest ih =>
    cases step : instruction.step machine with
    | error stop' =>
      rw [run_cons_of_error step] at h
      cases h
      exact ⟨[], instruction, rest, rfl, rfl, step⟩
    | ok between =>
      rw [run_cons_of_ok step] at h
      obtain ⟨done, failing, behind, split, carriedOut, fails⟩ := ih h
      refine ⟨instruction :: done, failing, behind, congrArg _ split, ?_, fails⟩
      rw [run_cons_of_ok step, carriedOut]

end Machine

end

/-! ## Evaluations -/

/-- The evaluation of a tree on `registers` fails with a fault: the instructions `done` are carried
out, which leaves the machine `machine`, and `failing` is not. It is the node where the fault is
reported, and what has been written is what `done` writes. -/
structure Expr.FailsBehind (t : Expr) (registers : Registers) (fault : RuntimeFault)
    (done : List Instruction) (failing : Instruction) (machine : Machine) : Prop where
  postorder : ∃ rest, t.postorder = done ++ failing :: rest
  carriedOut : Machine.run (.start registers) done = ⟨machine, none⟩
  fails : failing.step machine = .error (.fault fault)
  offset : failing.offset? = some fault.offset
  targets : machine.writes.map (·.1) = done.filterMap Instruction.target?
  registers_eq : machine.registers = registers.setAll machine.writes

namespace Expr

variable {t : Expr} {registers : Registers}

/-- A tree that has a value leaves it alone on the stack. -/
theorem run_postorder_of_ok {value : Float} (h : (t.evaluate registers).outcome = .ok value) :
    Machine.run (.start registers) t.postorder =
      ⟨⟨[value], (t.evaluate registers).registers, (t.evaluate registers).writes⟩, none⟩ := by
  have carriedOut := (t.carriesOut_postorder (.start registers)).value value h []
  rwa [List.append_nil] at carriedOut

/-- A tree that fails does so at one of its instructions, behind those that are carried out. -/
theorem run_postorder_of_error {fault : RuntimeFault}
    (h : (t.evaluate registers).outcome = .error fault) : ∃ done failing machine,
      Machine.run (.start registers) t.postorder = ⟨machine, some (.fault fault)⟩ ∧
      machine.registers = (t.evaluate registers).registers ∧
      machine.writes = (t.evaluate registers).writes ∧
      t.FailsBehind registers fault done failing machine := by
  obtain ⟨stack, halted⟩ := (t.carriesOut_postorder (.start registers)).fault fault h []
  rw [List.append_nil] at halted
  obtain ⟨done, failing, rest, split, carriedOut, fails⟩ := Machine.exists_failing halted
  obtain ⟨writes, same, targets, registersEq⟩ := Machine.writes_run carriedOut
  obtain rfl : _ = writes := same
  exact ⟨done, failing, _, halted, rfl, rfl, ⟨rest, split⟩, carriedOut, fails,
    Instruction.offset?_of_step fails, targets, registersEq⟩

/-- Evaluating a tree is carrying out its instructions. The machine ends with the registers and the
writes of the evaluation, behind all instructions and with its value alone on the stack, or else
with its fault, behind those that are carried out before the node that fails; it never lacks an
operand. In particular both operands of every operator are evaluated, the left one first. -/
theorem evaluate_postorder (t : Expr) (registers : Registers) :
    (∃ machine stop, Machine.run (.start registers) t.postorder = ⟨machine, stop⟩ ∧
      machine.registers = (t.evaluate registers).registers ∧
      machine.writes = (t.evaluate registers).writes ∧
      ((∃ value, (t.evaluate registers).outcome = .ok value ∧ stop = none ∧
          machine.stack = [value] ∧
          machine.writes.map (·.1) = t.postorder.filterMap Instruction.target? ∧
          machine.registers = registers.setAll machine.writes) ∨
        ∃ fault done failing, (t.evaluate registers).outcome = .error fault ∧
          stop = some (.fault fault) ∧ t.FailsBehind registers fault done failing machine)) ∧
    ∀ op left right offset x, t = binary op left right offset →
      (left.evaluate registers).outcome = .ok x →
        (t.evaluate registers).registers =
          (right.evaluate (left.evaluate registers).registers).registers ∧
        (t.evaluate registers).writes = (left.evaluate registers).writes
          ++ (right.evaluate (left.evaluate registers).registers).writes := by
  refine ⟨?_, ?_⟩
  · cases outcome : (t.evaluate registers).outcome with
    | ok value =>
      have halted := run_postorder_of_ok outcome
      obtain ⟨writes, same, targets, registersEq⟩ := Machine.writes_run halted
      obtain rfl : _ = writes := same
      exact ⟨_, none, halted, rfl, rfl, .inl ⟨value, rfl, rfl, rfl, targets, registersEq⟩⟩
    | error fault =>
      obtain ⟨done, failing, machine, halted, registersEq, writes, fails⟩ :=
        run_postorder_of_error outcome
      exact ⟨machine, _, halted, registersEq, writes, .inr ⟨fault, done, failing, rfl, rfl, fails⟩⟩
  · rintro op left right offset x rfl outcome
    rw [evaluate, Evaluation.andThen_of_ok outcome]
    dsimp only
    cases outcome' : (right.evaluate (left.evaluate registers).registers).outcome with
    | error fault =>
      rw [Evaluation.andThen_of_error outcome']
      exact ⟨rfl, rfl⟩
    | ok y =>
      rw [Evaluation.andThen_of_ok outcome']
      exact ⟨rfl, congrArg _ (List.append_nil _)⟩

/-- The statement `0&&(#1=5)/#2` assigns its register, although the left operand is zero, and then
fails. -/
theorem evaluate_postorder_and : ∃ (t left right : Expr) (registers : Registers),
    t = binary .and left right 1 ∧ left = number 0 0 ∧
    right = binary .div (assign 1 (number 5 7) 6) (register 2 10) 9 ∧ registers = .empty ∧
    (left.evaluate registers).outcome = .ok 0 ∧
    (∃ machine stop, Machine.run (.start registers) t.postorder = ⟨machine, stop⟩ ∧
      machine.registers = (t.evaluate registers).registers ∧
      machine.writes = (t.evaluate registers).writes ∧
      ((∃ value, (t.evaluate registers).outcome = .ok value ∧ stop = none ∧
          machine.stack = [value] ∧
          machine.writes.map (·.1) = t.postorder.filterMap Instruction.target? ∧
          machine.registers = registers.setAll machine.writes) ∨
        ∃ fault done failing, (t.evaluate registers).outcome = .error fault ∧
          stop = some (.fault fault) ∧ t.FailsBehind registers fault done failing machine)) ∧
    (t.evaluate registers).outcome = .error (.divisionByZero 9) ∧
    (t.evaluate registers).writes = [(1, 5)] ∧
    (t.evaluate registers).registers =
      (right.evaluate (left.evaluate registers).registers).registers ∧
    (t.evaluate registers).writes = (left.evaluate registers).writes
      ++ (right.evaluate (left.evaluate registers).registers).writes := by
  obtain ⟨halted, ofBinary⟩ := evaluate_postorder (binary .and (number 0 0)
    (binary .div (assign 1 (number 5 7) 6) (register 2 10) 9) 1) .empty
  exact ⟨_, _, _, _, rfl, rfl, rfl, rfl, rfl, halted, by decide +kernel, by decide +kernel,
    ofBinary _ _ _ _ 0 rfl rfl⟩

end Expr

end RegisterCalc
