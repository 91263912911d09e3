import RegisterCalc.Proofs.Evaluation.Folding
import RegisterCalc.Proofs.Tree.Anchors

/-!
# What folding replaces

A subtree is *constant* if it has neither a register nor an assignment and each operator and call in
it has a finite value by itself (`Expr.isConstant`). Read from the root down, folding replaces the
subtrees that are constant, each as a whole, by the numbers that they evaluate to, and keeps every
other node (`Expr.collapsed`, `Expr.fold_eq_collapsed`). It works from the leaves up all the same:
whether a node is constant is known from its operands and its own value (`Expr.constant?_binary`),
so one node that fails or is not finite keeps all nodes above it.

A tree is folded if its numbers are all that is constant in it (`Expr.IsFolded`). Folding makes
every tree folded, and leaves a folded tree alone (`Expr.fold_of_isFolded`).
-/

namespace RegisterCalc

/-- A node reads a register or assigns one. -/
def NodeKind.concernsRegister : NodeKind → Bool
  | register _ | assign _ => true
  | _ => false

/-- The value of a result, if it is one and finite. -/
def finiteValue? (result : Except RuntimeFault Float) : Option Float :=
  result.toOption.filter Binary64.isFinite

namespace Expr

/-! ## Constant subtrees -/

/-- All subtrees of a tree, the tree itself among them. -/
def subtrees : Expr → List Expr
  | number value offset => [number value offset]
  | register id offset => [register id offset]
  | unary op operand offset => unary op operand offset :: operand.subtrees
  | binary op left right offset => binary op left right offset :: (left.subtrees ++ right.subtrees)
  | call name argument offset => call name argument offset :: argument.subtrees
  | assign target value offset => assign target value offset :: value.subtrees

/-- A tree is among its subtrees. -/
theorem mem_subtrees_self (t : Expr) : t ∈ t.subtrees := by
  cases t <;> exact List.mem_cons_self

/-- What comes of a tree that is evaluated by itself. -/
def ownOutcome (t : Expr) : Except RuntimeFault Float := (t.evaluate .empty).outcome

/-- Whether the root is a number, or an operator or a call with a finite value by itself. -/
def hasConstantRoot : Expr → Bool
  | number _ _ => true
  | register _ _ | assign _ _ _ => false
  | t@(unary _ _ _) | t@(binary _ _ _ _) | t@(call _ _ _) => (finiteValue? t.ownOutcome).isSome

/-- Whether a tree has neither a register nor an assignment, and each operator and call in it has a
finite value by itself. -/
def isConstant (t : Expr) : Bool := t.subtrees.all hasConstantRoot

/-- The value of a tree that is constant. -/
def constant? (t : Expr) : Option Float := if t.isConstant then t.ownOutcome.toOption else none

/-- The number that a constant tree `t` is replaced by where it stands, or what is kept of it. -/
def constantOr (t kept : Expr) : Expr :=
  match t.constant? with
  | some value => number value t.offset
  | none => kept

/-- A tree with each constant subtree that is no part of another one replaced by its value. -/
def collapsed : Expr → Expr
  | number value offset => (number value offset).constantOr (number value offset)
  | register id offset => (register id offset).constantOr (register id offset)
  | unary op operand offset =>
    (unary op operand offset).constantOr (unary op operand.collapsed offset)
  | binary op left right offset =>
    (binary op left right offset).constantOr (binary op left.collapsed right.collapsed offset)
  | call name argument offset =>
    (call name argument offset).constantOr (call name argument.collapsed offset)
  | assign target value offset =>
    (assign target value offset).constantOr (assign target value.collapsed offset)

/-- The numbers of a tree are all that is constant in it. -/
def IsFolded (t : Expr) : Prop :=
  ∀ u ∈ t.subtrees, u.isConstant → ∃ value offset, u = number value offset

section
variable {t : Expr} {x : Float}

/-! ## Values of constant trees -/

/-- A result with a finite value is a value. -/
theorem exists_ok_of_finiteValue? {result : Except RuntimeFault Float}
    (h : (finiteValue? result).isSome) : ∃ value, result = .ok value := by
  cases result with
  | error fault => cases h
  | ok value => exact ⟨value, rfl⟩

/-- An operator before its operand is constant if its operand is and it has a finite value. -/
theorem isConstant_unary (op : PrefixOp) (operand : Expr) (offset : Offset) :
    (unary op operand offset).isConstant =
      ((finiteValue? (unary op operand offset).ownOutcome).isSome && operand.isConstant) := rfl

/-- An operator between operands is constant if its operands are and it has a finite value. -/
theorem isConstant_binary (op : BinaryOp) (left right : Expr) (offset : Offset) :
    (binary op left right offset).isConstant =
      ((finiteValue? (binary op left right offset).ownOutcome).isSome &&
        (left.isConstant && right.isConstant)) := by
  rw [isConstant, subtrees, List.all_cons, List.all_append]
  rfl

/-- A call is constant if its argument is and it has a finite value. -/
theorem isConstant_call (name : String) (argument : Expr) (offset : Offset) :
    (call name argument offset).isConstant =
      ((finiteValue? (call name argument offset).ownOutcome).isSome && argument.isConstant) := rfl

/-- A constant tree has a value, the same on all registers, and writes none. -/
theorem evaluate_of_isConstant (h : t.isConstant) :
    ∃ x, ∀ registers, t.evaluate registers = .pure (.ok x) registers := by
  induction t with
  | number value offset => exact ⟨value, fun registers => rfl⟩
  | register id offset | assign target value offset => cases h
  | unary op operand offset ih =>
    rw [isConstant_unary, Bool.and_eq_true_iff] at h
    obtain ⟨x, value⟩ := ih h.2
    exact ⟨op.apply x, fun registers => by rw [evaluate, value, Evaluation.pure_andThen]⟩
  | binary op left right offset ihl ihr =>
    rw [isConstant_binary, Bool.and_eq_true_iff, Bool.and_eq_true_iff] at h
    obtain ⟨finite, constantLeft, constantRight⟩ := h
    obtain ⟨x, valueLeft⟩ := ihl constantLeft
    obtain ⟨y, valueRight⟩ := ihr constantRight
    have value (registers : Registers) : (binary op left right offset).evaluate registers =
        .pure (op.apply x y offset) registers := by
      rw [evaluate, valueLeft, Evaluation.pure_andThen, valueRight, Evaluation.pure_andThen]
    rw [ownOutcome, value] at finite
    obtain ⟨z, result⟩ := exists_ok_of_finiteValue? finite
    exact ⟨z, fun registers => by rw [value, show op.apply x y offset = .ok z from result]⟩
  | call name argument offset ih =>
    rw [isConstant_call, Bool.and_eq_true_iff] at h
    obtain ⟨finite, constant⟩ := h
    obtain ⟨x, valueArgument⟩ := ih constant
    have value (registers : Registers) : (call name argument offset).evaluate registers =
        .pure (applyNamed name x offset) registers := by
      rw [evaluate, valueArgument, Evaluation.pure_andThen]
    rw [ownOutcome, value] at finite
    obtain ⟨y, result⟩ := exists_ok_of_finiteValue? finite
    exact ⟨y, fun registers => by rw [value, show applyNamed name x offset = .ok y from result]⟩

/-- A tree is constant if and only if it has a constant value. -/
theorem isSome_constant? (t : Expr) : t.constant?.isSome = t.isConstant := by
  cases constant : t.isConstant with
  | false => rw [constant?, constant]; rfl
  | true =>
    obtain ⟨x, value⟩ := evaluate_of_isConstant constant
    rw [constant?, constant, ownOutcome, value]
    rfl

/-- A tree with a constant value has it on all registers, and writes none. -/
theorem evaluate_of_constant? (h : t.constant? = some x) (registers : Registers) :
    t.evaluate registers = .pure (.ok x) registers := by
  have constant : t.isConstant := by rw [← isSome_constant?, h]; rfl
  obtain ⟨y, value⟩ := evaluate_of_isConstant constant
  rw [constant?, if_pos constant, ownOutcome, value] at h
  obtain rfl : y = x := Option.some.inj h
  exact value registers

/-! ## One node -/

/-- A node with parts has a constant value if its parts do and its own value is finite. -/
theorem constant?_eq {parts : Bool}
    (h : t.isConstant = ((finiteValue? t.ownOutcome).isSome && parts)) :
    t.constant? = if parts then finiteValue? t.ownOutcome else none := by
  rw [constant?, h]
  cases t.ownOutcome with
  | error fault => cases parts <;> rfl
  | ok value =>
    cases finite : Binary64.isFinite value <;> cases parts <;>
      simp [finiteValue?, Except.toOption, Option.filter, finite]

/-- The constant value of an operator before its operand. -/
theorem constant?_unary (op : PrefixOp) (operand : Expr) (offset : Offset) :
    (unary op operand offset).constant? =
      operand.constant?.bind fun x => finiteValue? (.ok (op.apply x)) := by
  rw [constant?_eq (isConstant_unary op operand offset), ← isSome_constant?]
  cases constant : operand.constant? with
  | none => rfl
  | some x =>
    rw [ownOutcome, evaluate, evaluate_of_constant? constant]
    rfl

/-- The constant value of an operator between operands. -/
theorem constant?_binary (op : BinaryOp) (left right : Expr) (offset : Offset) :
    (binary op left right offset).constant? =
      left.constant?.bind fun x => right.constant?.bind fun y =>
        finiteValue? (op.apply x y offset) := by
  rw [constant?_eq (isConstant_binary op left right offset), ← isSome_constant?,
    ← isSome_constant?]
  cases constantLeft : left.constant? with
  | none => rfl
  | some x =>
    cases constantRight : right.constant? with
    | none => rfl
    | some y =>
      rw [ownOutcome, evaluate, evaluate_of_constant? constantLeft, Evaluation.pure_andThen,
        evaluate_of_constant? constantRight]
      rfl

/-- The constant value of a call. -/
theorem constant?_call (name : String) (argument : Expr) (offset : Offset) :
    (call name argument offset).constant? =
      argument.constant?.bind fun x => finiteValue? (applyNamed name x offset) := by
  rw [constant?_eq (isConstant_call name argument offset), ← isSome_constant?]
  cases constant : argument.constant? with
  | none => rfl
  | some x =>
    rw [ownOutcome, evaluate, evaluate_of_constant? constant]
    rfl

end

/-! ## Folding -/

/-- What a result leaves is its finite value, or else what is kept. -/
theorem foldedOr_eq (kept : Expr) (offset : Offset) (result : Except RuntimeFault Float) :
    foldedOr kept offset result =
      match finiteValue? result with
      | some value => number value offset
      | none => kept := by
  cases result with
  | error fault => rfl
  | ok value =>
    cases finite : Binary64.isFinite value <;>
      simp [foldedOr, finiteValue?, Except.toOption, Option.filter, finite]

/-- A tree that is replaced if it is constant is a number if and only if it is. -/
theorem literal?_constantOr (t : Expr) {kept : Expr} (h : kept.literal? = none) :
    (t.constantOr kept).literal? = t.constant? := by
  rw [constantOr]
  cases t.constant? with
  | none => exact h
  | some value => rfl

/-- Folding at an operator before its operand. -/
theorem fold_unary (op : PrefixOp) {operand : Expr} (offset : Offset)
    (h : operand.fold.literal? = operand.constant?) : (unary op operand offset).fold =
      (unary op operand offset).constantOr (unary op operand.fold offset) := by
  rw [constantOr, constant?_unary, ← h]
  simp only [fold]
  cases operand.fold.literal? with
  | none => rfl
  | some x => exact foldedOr_eq _ _ _

/-- Folding at an operator between operands. -/
theorem fold_binary (op : BinaryOp) {left right : Expr} (offset : Offset)
    (hl : left.fold.literal? = left.constant?) (hr : right.fold.literal? = right.constant?) :
    (binary op left right offset).fold =
      (binary op left right offset).constantOr (binary op left.fold right.fold offset) := by
  rw [constantOr, constant?_binary, ← hl, ← hr]
  simp only [fold]
  cases left.fold.literal? with
  | none => rfl
  | some x =>
    cases right.fold.literal? with
    | none => rfl
    | some y => exact foldedOr_eq _ _ _

/-- Folding at a call. -/
theorem fold_call (name : String) {argument : Expr} (offset : Offset)
    (h : argument.fold.literal? = argument.constant?) : (call name argument offset).fold =
      (call name argument offset).constantOr (call name argument.fold offset) := by
  rw [constantOr, constant?_call, ← h]
  simp only [fold]
  cases argument.fold.literal? with
  | none => rfl
  | some x => exact foldedOr_eq _ _ _

/-- A tree is folded to a number if and only if it is constant, and the number is its value. -/
theorem literal?_fold (t : Expr) : t.fold.literal? = t.constant? := by
  induction t with
  | number value offset | register id offset | assign target value offset => rfl
  | unary op operand offset ih => rw [fold_unary op offset ih, literal?_constantOr _ rfl]
  | binary op left right offset ihl ihr =>
    rw [fold_binary op offset ihl ihr, literal?_constantOr _ rfl]
  | call name argument offset ih => rw [fold_call name offset ih, literal?_constantOr _ rfl]

/-- Folding replaces the constant subtrees from the root down. -/
theorem fold_eq_collapsed (t : Expr) : t.fold = t.collapsed := by
  induction t with
  | number value offset | register id offset => rfl
  | assign target value offset ih => exact congrArg (assign target · offset) ih
  | unary op operand offset ih => rw [fold_unary op offset (literal?_fold operand), ih, collapsed]
  | binary op left right offset ihl ihr =>
    rw [fold_binary op offset (literal?_fold left) (literal?_fold right), ihl, ihr, collapsed]
  | call name argument offset ih =>
    rw [fold_call name offset (literal?_fold argument), ih, collapsed]

/-! ## Registers -/

/-- The nodes of a tree that read or assign a register, from left to right. -/
def registerNodes (t : Expr) : List Node := t.nodes.filter (·.kind.concernsRegister)

/-- The nodes on registers of an operator are those of its left operand, then those of the right. -/
theorem registerNodes_binary (op : BinaryOp) (left right : Expr) (offset : Offset) :
    (binary op left right offset).registerNodes = left.registerNodes ++ right.registerNodes := by
  rw [registerNodes, nodes, List.filter_append]
  rfl

/-- A constant tree has no node on registers. -/
theorem registerNodes_of_isConstant {t : Expr} (h : t.isConstant) : t.registerNodes = [] := by
  induction t with
  | number value offset => rfl
  | register id offset | assign target value offset => cases h
  | unary op operand offset ih =>
    rw [isConstant_unary, Bool.and_eq_true_iff] at h
    exact ih h.2
  | binary op left right offset ihl ihr =>
    rw [isConstant_binary, Bool.and_eq_true_iff, Bool.and_eq_true_iff] at h
    rw [registerNodes_binary, ihl h.2.1, ihr h.2.2]
    rfl
  | call name argument offset ih =>
    rw [isConstant_call, Bool.and_eq_true_iff] at h
    exact ih h.2

/-- A constant tree may be replaced by its value, and another one by a tree with the same nodes on
registers. -/
theorem registerNodes_constantOr {t kept : Expr} (h : kept.registerNodes = t.registerNodes) :
    (t.constantOr kept).registerNodes = t.registerNodes := by
  rw [constantOr]
  cases constant : t.constant? with
  | none => exact h
  | some value =>
    have isConstant : t.isConstant := by rw [← isSome_constant?, constant]; rfl
    rw [registerNodes_of_isConstant isConstant]
    rfl

/-- Folding keeps the nodes on registers, each where it is. -/
theorem registerNodes_fold (t : Expr) : t.fold.registerNodes = t.registerNodes := by
  induction t with
  | number value offset | register id offset => rfl
  | assign target value offset ih => exact congrArg (⟨.assign target, offset⟩ :: ·) ih
  | unary op operand offset ih =>
    rw [fold_unary op offset (literal?_fold operand)]
    exact registerNodes_constantOr ih
  | binary op left right offset ihl ihr =>
    rw [fold_binary op offset (literal?_fold left) (literal?_fold right)]
    refine registerNodes_constantOr ?_
    rw [registerNodes_binary, registerNodes_binary, ihl, ihr]
  | call name argument offset ih =>
    rw [fold_call name offset (literal?_fold argument)]
    exact registerNodes_constantOr ih

/-! ## Folded trees -/

/-- Folding keeps the constant value of a tree. -/
theorem constant?_fold (t : Expr) : t.fold.constant? = t.constant? := by
  have replaced (t kept : Expr) (h : kept.constant? = t.constant?) :
      (t.constantOr kept).constant? = t.constant? := by
    rw [constantOr]
    cases constant : t.constant? with
    | none => exact h.trans constant
    | some value => rfl
  induction t with
  | number value offset | register id offset | assign target value offset => rfl
  | unary op operand offset ih =>
    rw [fold_unary op offset (literal?_fold operand)]
    refine replaced _ _ ?_
    rw [constant?_unary, constant?_unary, ih]
  | binary op left right offset ihl ihr =>
    rw [fold_binary op offset (literal?_fold left) (literal?_fold right)]
    refine replaced _ _ ?_
    rw [constant?_binary, constant?_binary, ihl, ihr]
  | call name argument offset ih =>
    rw [fold_call name offset (literal?_fold argument)]
    refine replaced _ _ ?_
    rw [constant?_call, constant?_call, ih]

/-- A folded tree that is constant is a number. -/
theorem eq_number_of_isConstant_fold {t : Expr} (h : t.fold.isConstant) :
    ∃ value offset, t.fold = number value offset := by
  rw [← isSome_constant?, constant?_fold, ← literal?_fold] at h
  cases folded : t.fold with
  | number value offset => exact ⟨value, offset, rfl⟩
  | _ =>
    rw [folded] at h
    cases h

/-- A node over folded parts is folded, if it is a number where it is constant. -/
theorem isFolded_of_parts {t : Expr} {parts : List Expr} (split : t.subtrees = t :: parts)
    (root : t.isConstant → ∃ value offset, t = number value offset)
    (folded : ∀ u ∈ parts, u.isConstant → ∃ value offset, u = number value offset) :
    t.IsFolded := by
  rw [IsFolded, split]
  exact List.forall_mem_cons.2 ⟨root, folded⟩

/-- What may replace a tree is folded over folded parts, if it is a number where it is constant. -/
theorem isFolded_constantOr {t kept : Expr} {parts : List Expr}
    (split : kept.subtrees = kept :: parts)
    (root : (t.constantOr kept).isConstant →
      ∃ value offset, t.constantOr kept = number value offset)
    (folded : ∀ u ∈ parts, u.isConstant → ∃ value offset, u = number value offset) :
    (t.constantOr kept).IsFolded := by
  rw [constantOr] at root ⊢
  cases constant : t.constant? with
  | none =>
    rw [constant] at root
    exact isFolded_of_parts split root folded
  | some value =>
    intro u mem _
    exact ⟨value, t.offset, List.mem_singleton.1 mem⟩

/-- In a folded tree nothing is constant but its numbers. -/
theorem isFolded_fold (t : Expr) : t.fold.IsFolded := by
  induction t with
  | number value offset => exact isFolded_of_parts rfl (fun _ => ⟨value, offset, rfl⟩) nofun
  | register id offset => exact isFolded_of_parts rfl nofun nofun
  | assign target value offset ih => exact isFolded_of_parts rfl nofun ih
  | unary op operand offset ih =>
    have root := @eq_number_of_isConstant_fold (unary op operand offset)
    rw [fold_unary op offset (literal?_fold operand)] at root ⊢
    exact isFolded_constantOr rfl root ih
  | binary op left right offset ihl ihr =>
    have root := @eq_number_of_isConstant_fold (binary op left right offset)
    rw [fold_binary op offset (literal?_fold left) (literal?_fold right)] at root ⊢
    exact isFolded_constantOr rfl root (List.forall_mem_append.2 ⟨ihl, ihr⟩)
  | call name argument offset ih =>
    have root := @eq_number_of_isConstant_fold (call name argument offset)
    rw [fold_call name offset (literal?_fold argument)] at root ⊢
    exact isFolded_constantOr rfl root ih

/-- A folded tree that is kept over what is kept of its parts is kept as a whole. -/
theorem constantOr_of_isFolded {t kept : Expr} (folded : t.IsFolded) (same : kept = t) :
    t.constantOr kept = t := by
  rw [constantOr]
  cases constant : t.constant? with
  | none => exact same
  | some value =>
    have isConstant : t.isConstant := by rw [← isSome_constant?, constant]; rfl
    obtain ⟨x, offset, rfl⟩ := folded t t.mem_subtrees_self isConstant
    obtain rfl : x = value := Option.some.inj constant
    rfl

/-- Folding leaves a folded tree alone. -/
theorem fold_of_isFolded {t : Expr} (h : t.IsFolded) : t.fold = t := by
  rw [fold_eq_collapsed]
  induction t with
  | number value offset | register id offset => rfl
  | assign target value offset ih =>
    exact congrArg (assign target · offset) (ih fun u mem => h u (List.mem_cons_of_mem _ mem))
  | unary op operand offset ih =>
    refine constantOr_of_isFolded h ?_
    rw [ih fun u mem => h u (List.mem_cons_of_mem _ mem)]
  | binary op left right offset ihl ihr =>
    have parts := List.forall_mem_append.1 (List.forall_mem_cons.1 h).2
    refine constantOr_of_isFolded h ?_
    rw [ihl parts.1, ihr parts.2]
  | call name argument offset ih =>
    refine constantOr_of_isFolded h ?_
    rw [ih fun u mem => h u (List.mem_cons_of_mem _ mem)]

/-- Folding a tree twice is folding it once. -/
theorem fold_fold (t : Expr) : t.fold.fold = t.fold := fold_of_isFolded t.isFolded_fold

/-- Folding replaces each constant subtree that is no part of another one by its value, where the
subtree stood, and keeps all other nodes. So it keeps each node that reads or assigns a register
where it is, and no operator or call that is left is constant. -/
theorem fold_replaces_constants (t : Expr) :
    t.fold = t.collapsed ∧ t.fold.registerNodes = t.registerNodes ∧ t.fold.IsFolded :=
  ⟨t.fold_eq_collapsed, t.registerNodes_fold, t.isFolded_fold⟩

/-- A product that is not finite stays, and so does the quotient over it, though that is zero. -/
example :
    let t := binary .div (number 1 0) (binary .mul (number 1e308 2) (number 10 3) 4) 1
    t.ownOutcome = .ok 0 ∧ t.isConstant = false ∧ t.fold = t := by
  decide +kernel

end Expr

end RegisterCalc
