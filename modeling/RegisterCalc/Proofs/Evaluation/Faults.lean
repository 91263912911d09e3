import RegisterCalc.Proofs.Session.Transcript
import RegisterCalc.Proofs.Tree.Anchors

/-!
# Why statements fail

An evaluation fails at a node of its tree, and a node fails in one of two ways (`Node.Fails`): with
a division by zero, or as a call of what is no function. The tree of a text has no such call, since
a name that is no function's is refused before there is a tree. So all that can happen to a
statement is a division by zero, at one of the divisions that stand in it
(`Expr.fails_only_by_division`). Folding adds no fault: all it brings in are finite numbers
(`Expr.mem_nodes_fold`).
-/

namespace RegisterCalc

/-! ## Nodes that fail -/

/-- A node fails with a fault. -/
inductive Node.Fails : Node → RuntimeFault → Prop
  | division (offset : Offset) : Fails ⟨.binary .div, offset⟩ (.divisionByZero offset)
  | call {name : String} (unknown : Function.ofName? name = none) (offset : Offset) :
    Fails ⟨.call name, offset⟩ (.unknownFunction name offset)

section
variable {fault : RuntimeFault} {x y : Float} {offset : Offset}

/-- A fault is reported where the node that fails is. -/
theorem Node.Fails.offset_eq {node : Node} (h : node.Fails fault) : node.offset = fault.offset := by
  cases h <;> rfl

/-- Where two evaluations fail, the first one does or the second. -/
theorem Evaluation.andThen_eq_error {first : Evaluation} {next : Float → Registers → Evaluation}
    (h : (first.andThen next).outcome = .error fault) :
    first.outcome = .error fault ∨ ∃ x, (next x first.registers).outcome = .error fault := by
  cases outcome : first.outcome with
  | error fault' =>
    rw [andThen_of_error outcome, outcome] at h
    exact .inl h
  | ok x =>
    rw [andThen_of_ok outcome] at h
    exact .inr ⟨x, h⟩

/-- An operator that fails is a division, and fails at its node. -/
theorem BinaryOp.fails_of_apply {op : BinaryOp} (h : op.apply x y offset = .error fault) :
    Node.Fails ⟨.binary op, offset⟩ fault := by
  cases op with
  | div =>
    simp only [apply] at h
    split at h <;> cases h
    exact .division offset
  | _ => cases h

/-- A call that fails is of what is no function, and fails at its node. -/
theorem fails_of_applyNamed {name : String} (h : applyNamed name x offset = .error fault) :
    Node.Fails ⟨.call name, offset⟩ fault := by
  unfold applyNamed at h
  split at h <;> cases h
  exact .call ‹_› offset

/-- The evaluation of a tree fails at a node of the tree. -/
theorem Expr.exists_fails_of_evaluate {t : Expr} {registers : Registers}
    (h : (t.evaluate registers).outcome = .error fault) : ∃ node ∈ t.nodes, node.Fails fault := by
  induction t generalizing registers with
  | number value offset | register id offset => cases h
  | unary op operand offset ih =>
    rcases Evaluation.andThen_eq_error h with inOperand | ⟨x, here⟩
    · exact List.exists_mem_cons_of_exists (ih inOperand)
    · cases here
  | binary op left right offset ihl ihr =>
    rcases Evaluation.andThen_eq_error h with inLeft | ⟨x, further⟩
    · obtain ⟨node, mem, fails⟩ := ihl inLeft
      exact ⟨node, List.mem_append_left _ mem, fails⟩
    · rcases Evaluation.andThen_eq_error further with inRight | ⟨y, here⟩
      · obtain ⟨node, mem, fails⟩ := ihr inRight
        exact ⟨node, List.mem_append_right _ (List.mem_cons_of_mem _ mem), fails⟩
      · exact ⟨_, List.mem_append_right _ List.mem_cons_self, BinaryOp.fails_of_apply here⟩
  | call name argument offset ih =>
    rcases Evaluation.andThen_eq_error h with inArgument | ⟨x, here⟩
    · exact List.exists_mem_cons_of_exists (ih inArgument)
    · exact ⟨_, List.mem_cons_self, fails_of_applyNamed here⟩
  | assign target value offset ih =>
    rcases Evaluation.andThen_eq_error h with inValue | ⟨x, here⟩
    · exact List.exists_mem_cons_of_exists (ih inValue)
    · cases here

end

/-! ## Nodes of plain trees -/

/-- A node is one of a plain tree: a number is finite and not negative, a call is of a function. -/
def NodeKind.IsPlain : NodeKind → Prop
  | number value => Binary64.isFinite value ∧ Binary64.isNegative value = false
  | call name => ∃ function : Function, name = function.name
  | _ => True

/-- A node is a finite number. -/
def Node.IsFiniteNumber (node : Node) : Prop :=
  ∃ value, Binary64.isFinite value ∧ node.kind = .number value

namespace Expr

section
variable {t : Expr} {node : Node}

/-- The nodes of a plain tree are those of one. -/
theorem isPlain_of_mem_nodes (plain : t.isPlain) (mem : node ∈ t.nodes) : node.kind.IsPlain := by
  induction t with
  | number value offset =>
    rw [List.mem_singleton.1 mem]
    exact (isPlain_number value offset).1 plain
  | register id offset =>
    rw [List.mem_singleton.1 mem]
    trivial
  | unary op operand offset ih =>
    rcases List.mem_cons.1 mem with rfl | mem
    · trivial
    · exact ih plain mem
  | binary op left right offset ihl ihr =>
    obtain ⟨plainLeft, plainRight⟩ := Bool.and_eq_true_iff.1 plain
    rcases List.mem_append.1 mem with mem | mem
    · exact ihl plainLeft mem
    · rcases List.mem_cons.1 mem with rfl | mem
      · trivial
      · exact ihr plainRight mem
  | call name argument offset ih =>
    obtain ⟨isFunction, plainArgument⟩ := (isPlain_call name argument offset).1 plain
    rcases List.mem_cons.1 mem with rfl | mem
    · exact isFunction
    · exact ih plainArgument mem
  | assign target value offset ih =>
    rcases List.mem_cons.1 mem with rfl | mem
    · trivial
    · exact ih plain mem

/-! ## Nodes of folded trees -/

/-- What a result leaves has the nodes of the tree that it came from, or is a finite number. -/
theorem mem_nodes_foldedOr {kept : Expr} {offset : Offset} {result : Except RuntimeFault Float}
    (mem : node ∈ (foldedOr kept offset result).nodes) :
    node ∈ kept.nodes ∨ node.IsFiniteNumber := by
  unfold foldedOr at mem
  split at mem
  case h_1 value =>
    split at mem
    case isTrue finite =>
      rw [List.mem_singleton.1 mem]
      exact .inr ⟨value, finite, rfl⟩
    case isFalse => exact .inl mem
  case h_2 => exact .inl mem

/-- A node of a folded tree is one of the tree that it comes from, or a finite number. -/
theorem mem_nodes_fold (mem : node ∈ t.fold.nodes) :
    node ∈ t.nodes ∨ node.IsFiniteNumber := by
  induction t with
  | number value offset | register id offset => exact .inl mem
  | unary op operand offset ih =>
    have kept (mem : node ∈ (unary op operand.fold offset).nodes) :
        node ∈ (unary op operand offset).nodes ∨ node.IsFiniteNumber := by
      rcases List.mem_cons.1 mem with rfl | mem
      · exact .inl List.mem_cons_self
      · exact (ih mem).imp_left (List.mem_cons_of_mem _)
    simp only [fold] at mem
    split at mem
    · exact (mem_nodes_foldedOr mem).elim kept .inr
    · exact kept mem
  | binary op left right offset ihl ihr =>
    have kept (mem : node ∈ (binary op left.fold right.fold offset).nodes) :
        node ∈ (binary op left right offset).nodes ∨ node.IsFiniteNumber := by
      rcases List.mem_append.1 mem with mem | mem
      · exact (ihl mem).imp_left (List.mem_append_left _)
      · rcases List.mem_cons.1 mem with rfl | mem
        · exact .inl (List.mem_append_right _ List.mem_cons_self)
        · exact (ihr mem).imp_left fun mem =>
            List.mem_append_right _ (List.mem_cons_of_mem _ mem)
    simp only [fold] at mem
    split at mem
    · exact (mem_nodes_foldedOr mem).elim kept .inr
    · exact kept mem
  | call name argument offset ih =>
    have kept (mem : node ∈ (call name argument.fold offset).nodes) :
        node ∈ (call name argument offset).nodes ∨ node.IsFiniteNumber := by
      rcases List.mem_cons.1 mem with rfl | mem
      · exact .inl List.mem_cons_self
      · exact (ih mem).imp_left (List.mem_cons_of_mem _)
    simp only [fold] at mem
    split at mem
    · exact (mem_nodes_foldedOr mem).elim kept .inr
    · exact kept mem
  | assign target value offset ih =>
    rcases List.mem_cons.1 mem with rfl | mem
    · exact .inl List.mem_cons_self
    · exact (ih mem).imp_left (List.mem_cons_of_mem _)

/-- The numbers of a plain tree stay finite when it is folded. -/
theorem isFinite_of_mem_nodes_fold (plain : t.isPlain) {value : Float} {offset : Offset}
    (mem : ⟨.number value, offset⟩ ∈ t.fold.nodes) : Binary64.isFinite value := by
  rcases mem_nodes_fold mem with mem | ⟨value', finite, same⟩
  · exact (isPlain_of_mem_nodes plain mem).1
  · rwa [NodeKind.number.inj same]

/-! ## Statements -/

/-- The evaluation of a plain tree fails only with a division by zero, at a division. -/
theorem evaluate_of_isPlain (plain : t.isPlain) (registers : Registers) :
    (∃ value, (t.evaluate registers).outcome = .ok value) ∨
      ∃ offset, (t.evaluate registers).outcome = .error (.divisionByZero offset) ∧
        ⟨.binary .div, offset⟩ ∈ t.nodes := by
  cases outcome : (t.evaluate registers).outcome with
  | ok value => exact .inl ⟨value, rfl⟩
  | error fault =>
    obtain ⟨node, mem, fails⟩ := exists_fails_of_evaluate outcome
    cases fails with
    | division offset => exact .inr ⟨offset, rfl, mem⟩
    | call unknown offset =>
      obtain ⟨function, rfl⟩ : ∃ function : Function, _ = function.name :=
        isPlain_of_mem_nodes plain mem
      rw [Function.ofName?_name] at unknown
      cases unknown

end

/-- A text calls no unknown function. -/
theorem evaluateText_ne_unknownFunction (s : String) (registers : Registers) (name : String)
    (offset : Offset) :
    (evaluateText s registers).1 ≠ .error (.runtime (.unknownFunction name offset)) := by
  intro rejected
  rcases evaluateText_eq_error rejected with unread | ⟨t, fault, read, failed, same⟩
  · rcases ofText_eq_error unread with ⟨_, -, ⟨⟩⟩ | ⟨_, _, -, -, ⟨⟩⟩
  · obtain rfl := Rejection.runtime.inj same
    rcases evaluate_of_isPlain (isPlain_of_ofText read) registers with ⟨value, outcome⟩ |
      ⟨offset', outcome, -⟩
    all_goals
      rw [outcome] at failed
      cases failed

/-- The tree of a text has finite numbers that are not negative and calls of functions only, and its
folded tree has finite numbers. On all registers each of the two trees has a value, or fails with a
division by zero at a division of the tree of the text. No text is rejected for an unknown function,
neither by itself nor in a session. -/
theorem fails_only_by_division (s : String) :
    (∀ t, ofText s = .ok t →
      (∀ value offset, ⟨.number value, offset⟩ ∈ t.nodes →
        Binary64.isFinite value ∧ Binary64.isNegative value = false) ∧
      (∀ name offset, ⟨.call name, offset⟩ ∈ t.nodes → ∃ f : Function, name = f.name) ∧
      (∀ value offset, ⟨.number value, offset⟩ ∈ t.fold.nodes → Binary64.isFinite value) ∧
      ∀ registers, ∀ evaluated ∈ [t, t.fold],
        (∃ value, (evaluated.evaluate registers).outcome = .ok value) ∨
        ∃ offset, (evaluated.evaluate registers).outcome = .error (.divisionByZero offset) ∧
          ⟨.binary .div, offset⟩ ∈ t.nodes) ∧
    ∀ name offset,
      (∀ registers,
        (evaluateText s registers).1 ≠ .error (.runtime (.unknownFunction name offset))) ∧
      ∀ session : Session,
        (session.execute s).outcome ≠ .error (.runtime (.unknownFunction name offset)) := by
  refine ⟨fun t read => ?_, fun name offset => ⟨fun registers => ?_, fun session rejected => ?_⟩⟩
  · have plain := isPlain_of_ofText read
    refine ⟨fun value offset mem => isPlain_of_mem_nodes plain mem,
      fun name offset mem => isPlain_of_mem_nodes plain mem,
      fun value offset mem => isFinite_of_mem_nodes_fold plain mem, fun registers => ?_⟩
    have fails := evaluate_of_isPlain plain registers
    refine List.forall_mem_cons.2 ⟨fails, List.forall_mem_singleton.2 ?_⟩
    rw [evaluate_fold]
    exact fails
  · exact evaluateText_ne_unknownFunction s registers name offset
  · exact evaluateText_ne_unknownFunction s session.registers name offset
      ((session.execute_eq_error_iff s _).1 rejected)

/-- The statement `sin(#2)/(#1=2-2)` fails at its division, and so it does folded. -/
theorem fails_only_by_division_assigned : ∃ t, ofText "sin(#2)/(#1=2-2)" = .ok t ∧
    (t.evaluate .empty).outcome = .error (.divisionByZero 7) ∧
    (∀ value offset, ⟨.number value, offset⟩ ∈ t.nodes →
      Binary64.isFinite value ∧ Binary64.isNegative value = false) ∧
    (∀ name offset, ⟨.call name, offset⟩ ∈ t.nodes → ∃ f : Function, name = f.name) ∧
    (∀ value offset, ⟨.number value, offset⟩ ∈ t.fold.nodes → Binary64.isFinite value) ∧
    ∀ registers, ∀ evaluated ∈ [t, t.fold],
      (∃ value, (evaluated.evaluate registers).outcome = .ok value) ∨
      ∃ offset, (evaluated.evaluate registers).outcome = .error (.divisionByZero offset) ∧
        ⟨.binary .div, offset⟩ ∈ t.nodes := by
  have read : ofText "sin(#2)/(#1=2-2)" = .ok (binary .div (call "sin" (register 2 4) 0)
      (assign 1 (binary .sub (number 2 12) (number 2 14) 13) 11) 7) :=
    eq_ok_of_toOption (by decide +kernel)
  exact ⟨_, read, by decide +kernel, (fails_only_by_division _).1 _ read⟩

end Expr

end RegisterCalc
