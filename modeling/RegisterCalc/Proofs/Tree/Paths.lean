import RegisterCalc.Proofs.Tree.Height

/-!
# Ways down a tree

A way from the root of a tree to a leaf (`Expr.Path`) goes through nodes that nest their part, which
are prefix operators, calls and assignments, and takes left and right operands of binary operators.
In the tree of a text the nodes that nest are bounded by the limit on nesting, and so are the right
operands (`Expr.paths_of_ofText`): the right operand of an operator is of a tighter level, and only
a nested place, which brackets make too although they leave no node, starts again with the loosest
level. The left operand is of the same level, so nothing bounds how many of them are taken.
-/

namespace RegisterCalc

/-- A way from the root of a tree to one of its leaves. -/
inductive Expr.Path : Expr → Type where
  | number (value : Float) (offset : Offset) : Path (.number value offset)
  | register (id : RegisterId) (offset : Offset) : Path (.register id offset)
  | operand {inner : Expr} (op : PrefixOp) (offset : Offset) (below : Path inner) :
      Path (.unary op inner offset)
  | left {left : Expr} (op : BinaryOp) (right : Expr) (offset : Offset) (below : Path left) :
      Path (.binary op left right offset)
  | right {right : Expr} (op : BinaryOp) (left : Expr) (offset : Offset) (below : Path right) :
      Path (.binary op left right offset)
  | argument {inner : Expr} (name : String) (offset : Offset) (below : Path inner) :
      Path (.call name inner offset)
  | value {inner : Expr} (target : RegisterId) (offset : Offset) (below : Path inner) :
      Path (.assign target inner offset)

namespace Expr.Path

/-- How many prefix operators, calls and assignments a way goes through. -/
def nested : {t : Expr} → Path t → Nat
  | _, number .. | _, register .. => 0
  | _, operand _ _ below | _, argument _ _ below | _, value _ _ below => below.nested + 1
  | _, left _ _ _ below | _, right _ _ _ below => below.nested

/-- How many left operands of binary operators a way takes. -/
def lefts : {t : Expr} → Path t → Nat
  | _, number .. | _, register .. => 0
  | _, left _ _ _ below => below.lefts + 1
  | _, right _ _ _ below | _, operand _ _ below | _, argument _ _ below
  | _, value _ _ below => below.lefts

/-- How many right operands of binary operators a way takes. -/
def rights : {t : Expr} → Path t → Nat
  | _, number .. | _, register .. => 0
  | _, right _ _ _ below => below.rights + 1
  | _, left _ _ _ below | _, operand _ _ below | _, argument _ _ below
  | _, value _ _ below => below.rights

/-- The longest way down a tree is as long as the tree is high. -/
theorem exists_of_height (t : Expr) :
    ∃ path : t.Path, path.nested + path.lefts + path.rights + 1 = t.height := by
  induction t with
  | number value offset => exact ⟨.number value offset, rfl⟩
  | register id offset => exact ⟨.register id offset, rfl⟩
  | unary op inner offset ih =>
    obtain ⟨below, length⟩ := ih
    refine ⟨.operand op offset below, ?_⟩
    simp only [nested, lefts, rights, height]
    omega
  | binary op left right offset ihl ihr =>
    obtain ⟨inLeft, lengthLeft⟩ := ihl
    obtain ⟨inRight, lengthRight⟩ := ihr
    rcases Nat.le_total left.height right.height with higher | higher
    · refine ⟨.right op left offset inRight, ?_⟩
      simp only [nested, lefts, rights, height, Nat.max_eq_right higher]
      omega
    · refine ⟨.left op right offset inLeft, ?_⟩
      simp only [nested, lefts, rights, height, Nat.max_eq_left higher]
      omega
  | call name inner offset ih =>
    obtain ⟨below, length⟩ := ih
    refine ⟨.argument name offset below, ?_⟩
    simp only [nested, lefts, rights, height]
    omega
  | assign target inner offset ih =>
    obtain ⟨below, length⟩ := ih
    refine ⟨.value target offset below, ?_⟩
    simp only [nested, lefts, rights, height]
    omega

end Expr.Path

/-! ## The bounds -/

/-- How many levels of binary operators an expression of a category may use at its own level of
nesting. -/
def Category.levelCount : Category → Nat
  | assignment => BinaryOp.levels.length
  | ladder levels => levels.length
  | _ => 0

namespace Derivation

variable {c : Category}

/-- A way down the tree of a derivation goes through no more nodes that nest than the derivation is
deep. -/
theorem nested_le_depth (d : Derivation c) (path : d.tree.Path) : path.nested ≤ d.depth := by
  induction d with
  | assign digits target named targetOffset signOffset value ih =>
    cases path with
    | value _ _ below => exact Nat.succ_le_succ (ih below)
  | operation left op ofLevel offset right ihl ihr =>
    cases path with
    | left _ _ _ below => exact (ihl below).trans (Nat.le_max_left _ _)
    | right _ _ _ below => exact (ihr below).trans (Nat.le_max_right _ _)
  | prefixed op offset inner ih =>
    cases path with
    | operand _ _ below => exact Nat.succ_le_succ (ih below)
  | call function nameOffset openOffset argument closeOffset ih =>
    cases path with
    | argument _ _ below => exact Nat.succ_le_succ (ih below)
  | group openOffset inner closeOffset ih => exact (ih path).trans (Nat.le_succ _)
  | number | register => cases path; exact Nat.zero_le _
  | loosest inner ih | tighter inner ih | operand inner ih | unprefixed inner ih
  | uncalled inner ih => exact ih path

/-- The right operands that a nested place of category `c` has are paid for by its level of nesting,
whatever the category around it. -/
theorem rights_nested_le {rights depth : Nat} (around : Category)
    (all : c.levelCount ≤ BinaryOp.levels.length)
    (h : rights ≤ c.levelCount + BinaryOp.levels.length * depth) :
    rights ≤ around.levelCount + BinaryOp.levels.length * (depth + 1) := by
  rw [Nat.mul_succ]
  omega

/-- A right operand is of a tighter level, and each level of nesting has all levels anew. -/
theorem rights_le_levels (d : Derivation c) (path : d.tree.Path) :
    path.rights ≤ c.levelCount + BinaryOp.levels.length * d.depth := by
  induction d with
  | assign digits target named targetOffset signOffset value ih =>
    cases path with
    | value _ _ below => exact rights_nested_le .assignment le_rfl (ih below)
  | @operation level levels left op ofLevel offset right ihl ihr =>
    have atLeft := Nat.mul_le_mul_left BinaryOp.levels.length
      (Nat.le_max_left left.depth right.depth)
    have atRight := Nat.mul_le_mul_left BinaryOp.levels.length
      (Nat.le_max_right left.depth right.depth)
    cases path with
    | left _ _ _ below => exact (ihl below).trans (Nat.add_le_add_left atLeft _)
    | right _ _ _ below =>
      have inside : below.rights ≤ levels.length + _ := ihr below
      show below.rights + 1 ≤ levels.length + 1 + _ * max left.depth right.depth
      omega
  | prefixed op offset inner ih =>
    cases path with
    | operand _ _ below => exact rights_nested_le .unary (Nat.zero_le _) (ih below)
  | call function nameOffset openOffset argument closeOffset ih =>
    cases path with
    | argument _ _ below => exact rights_nested_le .call le_rfl (ih below)
  | group openOffset inner closeOffset ih => exact rights_nested_le .primary le_rfl (ih path)
  | number | register => cases path; exact Nat.zero_le _
  | @tighter level levels inner ih =>
    have inside : path.rights ≤ levels.length + _ := ih path
    exact inside.trans (Nat.add_le_add_right (Nat.le_succ _) _)
  | loosest inner ih | operand inner ih | unprefixed inner ih | uncalled inner ih => exact ih path

end Derivation

namespace Expr

/-- A text may have a tree with a way down that takes as many left operands as one likes. -/
theorem exists_lefts_ge (n : Nat) : ∃ s t, ofText s = .ok t ∧ ∃ path : t.Path, n ≤ path.lefts := by
  -- A chain of so many operators that they cannot all be above right operands.
  obtain ⟨d, last, cut, flat, high⟩ := @lexes_alternatives (n + BinaryOp.levels.length) 0 [] nofun
  rw [List.append_nil] at cut
  obtain ⟨path, length⟩ := Path.exists_of_height d.tree
  have noNested : path.nested ≤ 0 := (d.nested_le_depth path).trans flat.le
  have fewRights := d.rights_le_levels path
  rw [flat, Category.levelCount] at fewRights
  have tokens : tokenize (String.ofList (alternatives (n + BinaryOp.levels.length))) =
      .ok ((Derivation.loosest d).tokens ++ [⟨.endOfInput, last⟩]) := by
    rw [tokenize, String.toList_ofList]
    exact cut.tokenizeFrom_eq
  exact ⟨_, d.tree, ofText_of_derivation tokens (flat.le.trans (Nat.zero_le _)), path, by omega⟩

/-- In the tree of a text, each way from the root to a leaf goes through at most as many prefix
operators, calls and assignments as nesting is allowed, and takes at most one right operand for each
level of operators at each level of nesting. Only the left operands it takes are not bounded. -/
theorem paths_of_ofText :
    (∀ s t, ofText s = .ok t → ∀ path : t.Path, path.nested ≤ maxNesting ∧
      path.rights ≤ BinaryOp.levels.length * (maxNesting + 1)) ∧
    ∀ n, ∃ s t, ofText s = .ok t ∧ ∃ path : t.Path, n ≤ path.lefts := by
  refine ⟨fun s t h path => ?_, exists_lefts_ge⟩
  obtain ⟨d, last, cut, rfl, covered⟩ := derived_of_ofText h
  have rights := d.rights_le_levels path
  have levels := Nat.mul_le_mul_left BinaryOp.levels.length covered
  rw [Category.levelCount] at rights
  refine ⟨(d.nested_le_depth path).trans covered, rights.trans ?_⟩
  rw [Nat.mul_succ, Nat.add_comm]
  exact Nat.add_le_add_right levels _

/-- The way to the `3` of `#1=1-(2-3)` goes through the assignment and takes two right operands, the
second of which stands in brackets. -/
theorem paths_of_ofText_brackets : ∃ t, ofText "#1=1-(2-3)" = .ok t ∧ ∃ path : t.Path,
    (path.nested = 1 ∧ path.rights = 2) ∧ path.nested ≤ maxNesting ∧
      path.rights ≤ BinaryOp.levels.length * (maxNesting + 1) := by
  have read : ofText "#1=1-(2-3)" = .ok (assign 1
      (binary .sub (number 1 3) (binary .sub (number 2 6) (number 3 8) 7) 4) 2) :=
    eq_ok_of_toOption (by decide +kernel)
  let way : Path (assign 1
      (binary .sub (number 1 3) (binary .sub (number 2 6) (number 3 8) 7) 4) 2) :=
    .value _ _ (.right _ _ _ (.right _ _ _ (.number _ _)))
  exact ⟨_, read, way, ⟨rfl, rfl⟩, paths_of_ofText.1 _ _ read way⟩

example : maxNesting = 128 ∧ BinaryOp.levels.length * (maxNesting + 1) = 10 * 129 := ⟨rfl, rfl⟩

end Expr

end RegisterCalc
