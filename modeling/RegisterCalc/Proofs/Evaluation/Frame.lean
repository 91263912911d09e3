import RegisterCalc.Evaluation.Basic
import RegisterCalc.Proofs.Registers.Entries

/-!
# What an evaluation reads and writes

Both can be read off the tree: an evaluation writes its targets in their order, all of them if it
has a value and those up to the fault if it fails (`Expr.assigns_evaluate`), and it comes to the
same on registers that agree on what the tree reads (`Expr.alike_evaluate`). So the other registers
are as before and have no part in it (`Expr.evaluate_frame`), and trees of which neither writes what
the other reads or writes can be evaluated in either order (`Expr.evaluate_comm`).

What is read after an earlier assignment of the same tree is what that assignment wrote. The
induction over a tree therefore does not follow the registers themselves: they are those before with
the writes made so far, and registers that agree still do so after the same writes
(`Registers.get_setAll_congr`).
-/

namespace RegisterCalc

namespace Expr

/-- The registers that a tree assigns, in the order in which it assigns them. -/
def targets : Expr → List RegisterId
  | number _ _ | register _ _ => []
  | unary _ operand _ => operand.targets
  | binary _ left right _ => left.targets ++ right.targets
  | call _ argument _ => argument.targets
  | assign target value _ => value.targets ++ [target]

/-- The registers that a tree reads, in the order in which it reads them. -/
def reads : Expr → List RegisterId
  | number _ _ => []
  | register id _ => [id]
  | unary _ operand _ => operand.reads
  | binary _ left right _ => left.reads ++ right.reads
  | call _ argument _ => argument.reads
  | assign _ value _ => value.reads

end Expr

variable {registers registers' : Registers}

/-! ## Writes -/

/-- An evaluation on `registers` assigns the registers `targets`, from the first one on: all of them
if it has a value. It leaves the registers with what it writes and as they were otherwise. -/
structure Evaluation.Assigns (registers : Registers) (targets : List RegisterId)
    (evaluation : Evaluation) : Prop where
  registers_eq : evaluation.registers = registers.setAll evaluation.writes
  started : evaluation.writes.map (·.1) <+: targets
  finished : ∀ value, evaluation.outcome = .ok value → evaluation.writes.map (·.1) = targets

namespace Evaluation.Assigns

variable {targets targets' : List RegisterId} {first : Evaluation}
  {next : Float → Registers → Evaluation}

/-- A result that is had without a write assigns nothing. -/
theorem pure (outcome : Except RuntimeFault Float) (registers : Registers) :
    Assigns registers [] (.pure outcome registers) :=
  ⟨rfl, List.prefix_rfl, fun _ _ => rfl⟩

/-- A write assigns its register. -/
theorem write (id : RegisterId) (value : Float) (registers : Registers) :
    Assigns registers [id] (.write id value registers) :=
  ⟨rfl, List.prefix_rfl, fun _ _ => rfl⟩

/-- What follows an evaluation assigns its targets behind those of the first. -/
theorem andThen (h : Assigns registers targets first)
    (further : ∀ x, Assigns first.registers targets' (next x first.registers)) :
    Assigns registers (targets ++ targets') (first.andThen next) := by
  cases outcome : first.outcome with
  | error fault =>
    rw [andThen_of_error outcome]
    refine ⟨h.registers_eq, h.started.trans (List.prefix_append _ _), fun value same => ?_⟩
    rw [outcome] at same
    cases same
  | ok x =>
    have own := h.finished x outcome
    have later := further x
    rw [andThen_of_ok outcome]
    refine ⟨?_, ?_, fun value same => ?_⟩
    · rw [Registers.setAll_append, ← h.registers_eq]
      exact later.registers_eq
    · rw [List.map_append, own]
      exact (List.prefix_append_right_inj _).2 later.started
    · rw [List.map_append, own, later.finished value same]

/-- What follows an evaluation without a write adds no target. -/
theorem andThen_pure (h : Assigns registers targets first)
    (result : Float → Except RuntimeFault Float) :
    Assigns registers targets (first.andThen fun x after => .pure (result x) after) := by
  have further (x : Float) : Assigns first.registers [] (.pure (result x) first.registers) :=
    .pure _ _
  have both : Assigns registers (targets ++ [])
      (first.andThen fun x after => .pure (result x) after) := h.andThen further
  rwa [List.append_nil] at both

end Evaluation.Assigns

/-- An evaluation assigns the targets of its tree. -/
theorem Expr.assigns_evaluate (t : Expr) (registers : Registers) :
    (t.evaluate registers).Assigns registers t.targets := by
  induction t generalizing registers with
  | number value offset | register id offset => exact .pure _ _
  | unary op operand offset ih => exact (ih registers).andThen_pure _
  | binary op left right offset ihl ihr =>
    exact (ihl registers).andThen fun x => (ihr _).andThen_pure _
  | call name argument offset ih => exact (ih registers).andThen_pure _
  | assign target value offset ih => exact (ih registers).andThen fun x => .write _ _ _

/-! ## Reads -/

/-- Two evaluations have the same outcome and make the same writes. -/
def Evaluation.Alike (evaluation evaluation' : Evaluation) : Prop :=
  evaluation.outcome = evaluation'.outcome ∧ evaluation.writes = evaluation'.writes

/-- What follows evaluations that are alike is alike if it is so behind any value. -/
theorem Evaluation.Alike.andThen {first first' : Evaluation}
    {next next' : Float → Registers → Evaluation} (h : first.Alike first')
    (further : ∀ x, (next x first.registers).Alike (next' x first'.registers)) :
    (first.andThen next).Alike (first'.andThen next') := by
  obtain ⟨sameOutcome, sameWrites⟩ := h
  cases outcome : first.outcome with
  | error fault =>
    have outcome' := sameOutcome.symm.trans outcome
    rw [andThen_of_error outcome, andThen_of_error outcome']
    exact ⟨sameOutcome, sameWrites⟩
  | ok x =>
    have outcome' := sameOutcome.symm.trans outcome
    obtain ⟨sameOutcome', sameWrites'⟩ := further x
    rw [andThen_of_ok outcome, andThen_of_ok outcome']
    exact ⟨sameOutcome', congrArg₂ (· ++ ·) sameWrites sameWrites'⟩

namespace Expr

variable {t u : Expr}

/-- Registers that agree do so after evaluations of a tree that are alike. -/
theorem get_evaluate_of_alike (h : (t.evaluate registers).Alike (t.evaluate registers'))
    {id : RegisterId} (agree : registers.get id = registers'.get id) :
    (t.evaluate registers).registers.get id = (t.evaluate registers').registers.get id := by
  rw [(t.assigns_evaluate registers).registers_eq, (t.assigns_evaluate registers').registers_eq,
    ← h.2]
  exact Registers.get_setAll_congr agree _

/-- A tree is evaluated alike on registers that agree on what it reads. -/
theorem alike_evaluate (agree : ∀ id ∈ t.reads, registers.get id = registers'.get id) :
    (t.evaluate registers).Alike (t.evaluate registers') := by
  induction t generalizing registers registers' with
  | number value offset => exact ⟨rfl, rfl⟩
  | register id offset => exact ⟨congrArg Except.ok (agree id (List.mem_singleton_self _)), rfl⟩
  | unary op operand offset ih => exact (ih agree).andThen fun x => ⟨rfl, rfl⟩
  | binary op left right offset ihl ihr =>
    have alike := ihl fun id mem => agree id (List.mem_append_left _ mem)
    refine alike.andThen fun x => (ihr fun id mem => ?_).andThen fun y => ⟨rfl, rfl⟩
    exact get_evaluate_of_alike alike (agree id (List.mem_append_right _ mem))
  | call name argument offset ih => exact (ih agree).andThen fun x => ⟨rfl, rfl⟩
  | assign target value offset ih => exact (ih agree).andThen fun x => ⟨rfl, rfl⟩

/-! ## The frame of an evaluation -/

/-- The registers that an evaluation writes are targets of its tree. -/
theorem mem_targets_of_mem_writes {id : RegisterId}
    (h : id ∈ (t.evaluate registers).writes.map (·.1)) : id ∈ t.targets :=
  (t.assigns_evaluate registers).started.subset h

/-- An evaluation leaves the entries of registers that are no targets as they are. -/
theorem entryAt_evaluate_of_not_mem {id : RegisterId} (h : id ∉ t.targets) (registers : Registers) :
    (t.evaluate registers).registers.entryAt id = registers.entryAt id := by
  rw [(t.assigns_evaluate registers).registers_eq]
  exact Registers.entryAt_setAll_of_not_mem (mt mem_targets_of_mem_writes h)

/-- However an evaluation ends, registers that are no targets of the tree have the entries that they
had, and no entry is lost; if it has a value, the registers with an entry are those before and the
targets. On registers that agree on what the tree reads it has the same outcome and makes the same
writes, and it leaves each written register with the same entry. -/
theorem evaluate_frame (t : Expr) (registers : Registers) :
    (∀ id ∉ t.targets, (t.evaluate registers).registers.entryAt id = registers.entryAt id) ∧
    (∀ id, (registers.entryAt id).isSome → ((t.evaluate registers).registers.entryAt id).isSome) ∧
    (∀ value, (t.evaluate registers).outcome = .ok value → ∀ id,
      ((t.evaluate registers).registers.entryAt id).isSome ↔
        (registers.entryAt id).isSome ∨ id ∈ t.targets) ∧
    ∀ registers' : Registers, (∀ id ∈ t.reads, registers.get id = registers'.get id) →
      (t.evaluate registers).outcome = (t.evaluate registers').outcome ∧
      (t.evaluate registers).writes = (t.evaluate registers').writes ∧
      ∀ write ∈ (t.evaluate registers).writes,
        (t.evaluate registers).registers.entryAt write.1 =
          (t.evaluate registers').registers.entryAt write.1 := by
  have assigns := t.assigns_evaluate registers
  refine ⟨fun id other => entryAt_evaluate_of_not_mem other registers, fun id found => ?_,
    fun value outcome id => ?_, fun registers' agree => ?_⟩
  · rw [assigns.registers_eq]
    exact Registers.isSome_entryAt_setAll.2 (.inl found)
  · rw [assigns.registers_eq, Registers.isSome_entryAt_setAll, assigns.finished value outcome]
  · obtain ⟨outcome, writes⟩ := alike_evaluate agree
    refine ⟨outcome, writes, fun write mem => ?_⟩
    rw [assigns.registers_eq, (t.assigns_evaluate registers').registers_eq, ← writes]
    exact Registers.entryAt_setAll_congr (List.mem_map_of_mem mem) _ _

/-- The statement `(#1=#2)+(#4=#1)`, on no registers and on ones in which `#2` is zero and a
register that it does not name is set. -/
theorem evaluate_frame_zero : ∃ (t : Expr) (registers registers' : Registers) (value : Float),
    t = binary .add (assign 1 (register 2 4) 3) (assign 4 (register 1 11) 10) 7 ∧
    registers = (Registers.empty.set 2 0).set 3 7 ∧ registers' = .empty ∧
    3 ∉ t.targets ∧ (registers.entryAt 3).isSome ∧ (t.evaluate registers).outcome = .ok value ∧
    (∀ id ∈ t.reads, registers.get id = registers'.get id) ∧
    (t.evaluate registers).registers.entryAt 3 = registers.entryAt 3 ∧
    ((t.evaluate registers).registers.entryAt 3).isSome ∧
    (∀ id, ((t.evaluate registers).registers.entryAt id).isSome ↔
      (registers.entryAt id).isSome ∨ id ∈ t.targets) ∧
    (t.evaluate registers).outcome = (t.evaluate registers').outcome ∧
    (t.evaluate registers).writes = (t.evaluate registers').writes ∧
    ∀ write ∈ (t.evaluate registers).writes,
      (t.evaluate registers).registers.entryAt write.1 =
        (t.evaluate registers').registers.entryAt write.1 := by
  obtain ⟨others, kept, whole, alike⟩ := evaluate_frame
    (binary .add (assign 1 (register 2 4) 3) (assign 4 (register 1 11) 10) 7)
    ((Registers.empty.set 2 0).set 3 7)
  have other : (3 : RegisterId) ∉
      (binary .add (assign 1 (register 2 4) 3) (assign 4 (register 1 11) 10) 7).targets := by
    decide
  have found : (((Registers.empty.set 2 0).set 3 7).entryAt 3).isSome := by decide +kernel
  have agree : ∀ id ∈ ([2, 1] : List RegisterId),
      ((Registers.empty.set 2 0).set 3 7).get id = Registers.empty.get id :=
    List.forall_mem_cons.2 ⟨by decide +kernel, List.forall_mem_singleton.2 (by decide +kernel)⟩
  exact ⟨_, _, .empty, 0, rfl, rfl, rfl, other, found, by decide +kernel, agree, others 3 other,
    kept 3 found, whole 0 (by decide +kernel), alike .empty agree⟩

/-! ## Independent trees -/

/-- What an evaluation writes has no part in that of a tree that does not read it. -/
theorem alike_evaluate_after (apart : ∀ id ∈ u.targets, id ∉ t.reads) (registers : Registers) :
    (t.evaluate (u.evaluate registers).registers).Alike (t.evaluate registers) := by
  refine alike_evaluate fun id read => ?_
  have other : id ∉ u.targets := fun written => apart id written read
  rw [Registers.get_eq_getD, entryAt_evaluate_of_not_mem other, Registers.get_eq_getD]

/-- Two trees of which neither assigns what the other reads or assigns come to the same in either
order: each has the same outcome first and second, whether it has a value or fails, and the
registers after both are the same. -/
theorem evaluate_comm {t u : Expr} (apart : ∀ id ∈ t.targets, id ∉ u.reads ∧ id ∉ u.targets)
    (apart' : ∀ id ∈ u.targets, id ∉ t.reads) (registers : Registers) :
    (t.evaluate registers).outcome =
      (t.evaluate (u.evaluate registers).registers).outcome ∧
    (u.evaluate (t.evaluate registers).registers).outcome = (u.evaluate registers).outcome ∧
    (u.evaluate (t.evaluate registers).registers).registers =
      (t.evaluate (u.evaluate registers).registers).registers := by
  obtain ⟨outcome, writes⟩ := alike_evaluate_after apart' registers
  obtain ⟨outcome', writes'⟩ :=
    alike_evaluate_after (fun id target => (apart id target).1) registers
  refine ⟨outcome.symm, outcome', ?_⟩
  calc (u.evaluate (t.evaluate registers).registers).registers
    _ = (registers.setAll (t.evaluate registers).writes).setAll (u.evaluate registers).writes := by
      rw [(u.assigns_evaluate _).registers_eq, writes', (t.assigns_evaluate registers).registers_eq]
    _ = (registers.setAll (u.evaluate registers).writes).setAll (t.evaluate registers).writes :=
      Registers.setAll_comm (fun id written written' =>
        (apart id (mem_targets_of_mem_writes written)).2 (mem_targets_of_mem_writes written')) _
    _ = (t.evaluate (u.evaluate registers).registers).registers := by
      rw [(t.assigns_evaluate _).registers_eq, writes, (u.assigns_evaluate registers).registers_eq]

/-- The statements `(#1=#2)/#3`, which fails behind its assignment, and `#4=#2+#5`. -/
theorem evaluate_comm_division : ∃ (t u : Expr) (registers : Registers),
    t = binary .div (assign 1 (register 2 4) 3) (register 3 8) 7 ∧
    u = assign 4 (binary .add (register 2 3) (register 5 6) 5) 2 ∧
    registers = Registers.empty.set 2 3 ∧
    (t.evaluate registers).outcome = .error (.divisionByZero 7) ∧
    (∀ id ∈ t.targets, id ∉ u.reads ∧ id ∉ u.targets) ∧ (∀ id ∈ u.targets, id ∉ t.reads) ∧
    (t.evaluate registers).outcome =
      (t.evaluate (u.evaluate registers).registers).outcome ∧
    (u.evaluate (t.evaluate registers).registers).outcome = (u.evaluate registers).outcome ∧
    (u.evaluate (t.evaluate registers).registers).registers =
      (t.evaluate (u.evaluate registers).registers).registers := by
  have apart : ∀ id ∈ (binary .div (assign 1 (register 2 4) 3) (register 3 8) 7).targets,
      id ∉ (assign 4 (binary .add (register 2 3) (register 5 6) 5) 2).reads ∧
        id ∉ (assign 4 (binary .add (register 2 3) (register 5 6) 5) 2).targets :=
    List.forall_mem_singleton.2 ⟨by decide, by decide⟩
  have apart' : ∀ id ∈ (assign 4 (binary .add (register 2 3) (register 5 6) 5) 2).targets,
      id ∉ (binary .div (assign 1 (register 2 4) 3) (register 3 8) 7).reads :=
    List.forall_mem_singleton.2 (by decide)
  exact ⟨_, _, _, rfl, rfl, rfl, by decide +kernel, apart, apart', evaluate_comm apart apart' _⟩

end Expr

end RegisterCalc
