import RegisterCalc.Proofs.Evaluation.Constants
import RegisterCalc.Proofs.Evaluation.Faults
import RegisterCalc.Proofs.Tree.Literals

/-!
# Folding what was folded

A tree that was folded is left alone when it is folded again, also when it is written and read in
between (`Expr.fold_stable`). A number below zero is written as a negation, so the tree that is read
is not the one that was written: it has an operator in the place of the number. Folded by itself
that operator is the number again, with its sign also where it is zero (`Expr.fold_ofLiteral`), and
what folding makes of a node depends on its folded parts only (`Expr.fold_spelledOut`).
-/

namespace RegisterCalc.Expr

/-- All numbers of a tree are finite. -/
def HasFiniteNumbers (t : Expr) : Prop :=
  ∀ value offset, ⟨.number value, offset⟩ ∈ t.nodes → Binary64.isFinite value

section
variable {t : Expr}

/-! ## Numbers spelled out -/

/-- A finite number that is spelled out is folded to the number. -/
theorem fold_ofLiteral {x : Float} (finite : Binary64.isFinite x) (offset : Offset) :
    (ofLiteral x offset).fold = number x offset := by
  have below : Binary64.point x < Binary64.infinity := of_decide_eq_true finite
  rw [ofLiteral, if_neg (by omega), if_neg below.ne]
  split
  case isFalse positive => rfl
  case isTrue negative =>
    have negated := Binary64.neg_ofPoint_point below.le negative
    simp only [fold, literal?, PrefixOp.apply, negated, foldedOr]
    rw [if_pos finite]

/-- A tree whose finite numbers are spelled out is folded as the tree. -/
theorem fold_spelledOut (finite : t.HasFiniteNumbers) : t.spelledOut.fold = t.fold := by
  induction t with
  | number value offset => exact fold_ofLiteral (finite value offset List.mem_cons_self) offset
  | register id offset => rfl
  | unary op operand offset ih =>
    have inOperand : operand.HasFiniteNumbers := fun value offset mem =>
      finite value offset (List.mem_cons_of_mem _ mem)
    simp only [spelledOut, fold, ih inOperand]
  | binary op left right offset ihl ihr =>
    have inLeft : left.HasFiniteNumbers := fun value offset mem =>
      finite value offset (List.mem_append_left _ mem)
    have inRight : right.HasFiniteNumbers := fun value offset mem =>
      finite value offset (List.mem_append_right _ (List.mem_cons_of_mem _ mem))
    simp only [spelledOut, fold, ihl inLeft, ihr inRight]
  | call name argument offset ih =>
    have inArgument : argument.HasFiniteNumbers := fun value offset mem =>
      finite value offset (List.mem_cons_of_mem _ mem)
    simp only [spelledOut, fold, ih inArgument]
  | assign target value offset ih =>
    have inValue : value.HasFiniteNumbers := fun value offset mem =>
      finite value offset (List.mem_cons_of_mem _ mem)
    simp only [spelledOut, fold, ih inValue]

/-! ## Folded trees -/

/-- A tree with finite numbers has finite numbers when it is folded. -/
theorem HasFiniteNumbers.fold (finite : t.HasFiniteNumbers) : t.fold.HasFiniteNumbers := by
  intro value offset mem
  rcases mem_nodes_fold mem with mem | ⟨value', finite', same⟩
  · exact finite value offset mem
  · rwa [NodeKind.number.inj same]

/-- What may replace a tree whose calls are of functions calls functions only. -/
theorem callsFunctions_constantOr {kept : Expr} (known : kept.callsFunctions) :
    (t.constantOr kept).callsFunctions := by
  rw [constantOr]
  split
  · rfl
  · exact known

/-- Folding brings in no call. -/
theorem callsFunctions_fold (known : t.callsFunctions) : t.fold.callsFunctions := by
  induction t with
  | number value offset | register id offset => rfl
  | unary op operand offset ih =>
    rw [fold_unary op offset (literal?_fold operand)]
    exact callsFunctions_constantOr (ih known)
  | binary op left right offset ihl ihr =>
    obtain ⟨knownLeft, knownRight⟩ := Bool.and_eq_true_iff.1 known
    rw [fold_binary op offset (literal?_fold left) (literal?_fold right)]
    exact callsFunctions_constantOr (Bool.and_eq_true_iff.2 ⟨ihl knownLeft, ihr knownRight⟩)
  | call name argument offset ih =>
    obtain ⟨isFunction, knownArgument⟩ := Bool.and_eq_true_iff.1 known
    rw [fold_call name offset (literal?_fold argument)]
    exact callsFunctions_constantOr (Bool.and_eq_true_iff.2 ⟨isFunction, ih knownArgument⟩)
  | assign target value offset ih => exact ih known

/-- The text of a folded tree with finite numbers, whose calls are of functions, is read as a tree
that is folded to it again, up to positions, if the text nests at most as deep as allowed. -/
theorem exists_fold_of_text_fold (finite : t.HasFiniteNumbers) (known : t.callsFunctions)
    (covered : t.fold.textNesting ≤ maxNesting) :
    ∃ u, ofText t.fold.text = .ok u ∧ u.fold.bare = t.fold.bare := by
  rw [← renderedNesting_spelledOut] at covered
  obtain ⟨u, read, same⟩ :=
    ofText_text_covered (isPlain_spelledOut (callsFunctions_fold known)) covered
  rw [text_spelledOut] at read
  refine ⟨u, read, ?_⟩
  calc u.fold.bare = t.fold.spelledOut.fold.bare := bare_fold_congr same
    _ = t.fold.fold.bare := by rw [fold_spelledOut finite.fold]
    _ = t.fold.bare := by rw [fold_fold]

end

/-- A folded tree stays the same when it is folded again. Where its text nests at most as deep as
allowed and the tree that was folded has finite numbers and calls functions only, the text is a
statement whose tree is folded to the same tree, up to positions. Numbers are the same bit by bit,
so that a zero keeps its sign. -/
theorem fold_stable :
    (∀ t : Expr, t.fold.fold = t.fold) ∧
    ∀ t : Expr, t.HasFiniteNumbers → t.callsFunctions → t.fold.textNesting ≤ maxNesting →
      ∃ u, ofText t.fold.text = .ok u ∧ u.fold.bare = t.fold.bare :=
  ⟨fold_fold, fun _ finite known covered => exists_fold_of_text_fold finite known covered⟩

/-- The quotient of 5 and the product of 0 and -2 is folded over a negative zero, and is so again
when its text has been read. -/
theorem fold_stable_negative_zero : ∃ t : Expr,
    t = binary .div (number 5 0) (binary .mul (number 0 2) (unary .negate (number 2 5) 4) 3) 1 ∧
    t.HasFiniteNumbers ∧ t.callsFunctions ∧ t.fold.textNesting = 3 ∧
    t.fold = binary .div (number 5 0) (number (-0) 3) 1 ∧ t.fold.text = "(5 / (-0))" ∧
    t.fold.fold = t.fold ∧ ∃ u, ofText t.fold.text = .ok u ∧ u.fold.bare = t.fold.bare := by
  have finite : (binary .div (number 5 0)
      (binary .mul (number 0 2) (unary .negate (number 2 5) 4) 3) 1).HasFiniteNumbers := by
    intro value offset mem
    simp only [nodes, List.cons_append, List.nil_append, List.mem_cons, Node.mk.injEq,
      NodeKind.number.injEq, reduceCtorEq, false_and, false_or, List.not_mem_nil, or_false] at mem
    rcases mem with ⟨rfl, -⟩ | ⟨rfl, -⟩ | ⟨rfl, -⟩ <;> decide +kernel
  have nesting : (binary .div (number 5 0)
      (binary .mul (number 0 2) (unary .negate (number 2 5) 4) 3) 1).fold.textNesting = 3 := by
    decide +kernel
  exact ⟨_, rfl, finite, by decide +kernel, nesting, by decide +kernel, by decide +kernel,
    fold_stable.1 _, fold_stable.2 _ finite (by decide +kernel) (by rw [nesting]; decide)⟩

end RegisterCalc.Expr
