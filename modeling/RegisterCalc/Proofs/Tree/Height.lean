import RegisterCalc.Proofs.Tree.RoundTrip

/-!
# The height of trees

The passes over a tree call themselves once for each node on the way down, so its height says how
many calls are active at once. Operators of one level that follow each other without brackets make
a tree that leans to the left, one node higher for each operator; they are not nested, and nothing
bounds their number. So the limit on nesting alone does not bound the height
(`Expr.not_exists_height_bound`). It does together with the length of the longest such chain
(`Derivation.longestChain`): each level of nesting adds at most one chain of each level of operators
and one further node (`Expr.height_of_ofText`).
-/

namespace RegisterCalc

/-- How many nodes the longest way down a tree has. -/
def Expr.height : Expr → Nat
  | number _ _ | register _ _ => 1
  | unary _ operand _ => operand.height + 1
  | binary _ left right _ => max left.height right.height + 1
  | call _ argument _ => argument.height + 1
  | assign _ value _ => value.height + 1

/-- The most operators of one level that follow each other at one level of nesting. -/
def Derivation.longestChain : {c : Category} → Derivation c → Nat
  | _, operation left _ _ _ right => max (left.width + 1) (max left.longestChain right.longestChain)
  | _, number .. | _, register .. => 0
  | _, assign _ _ _ _ _ inner | _, prefixed _ _ inner | _, call _ _ _ inner _
  | _, group _ inner _ | _, loosest inner | _, tighter inner | _, operand inner
  | _, unprefixed inner | _, uncalled inner => inner.longestChain

/-! ## The bound -/

/-- How many nodes a level of nesting puts on one way down, where no chain is longer than `k`: a
chain of each level of operators, and what they stand between. -/
def nodesOfNesting (k : Nat) : Nat := BinaryOp.levels.length * k + 1

/-- How many nodes the chains in a category put on one way down, but for a chain of the loosest
level, where none is longer than `k`. -/
def Category.nodesOfChains (k : Nat) : Category → Nat
  | assignment => BinaryOp.levels.length * k
  | ladder (_ :: levels) => levels.length * k
  | _ => 0

namespace Derivation

variable {c : Category} {k : Nat}

/-- The operators that an expression goes on with are a chain. -/
theorem width_le_longestChain (d : Derivation c) : d.width ≤ d.longestChain := by
  cases d with
  | operation => exact Nat.le_max_left _ _
  | _ => exact Nat.zero_le _

/-- An expression that has no operators of its own goes on with none. -/
theorem width_eq_zero (d : Derivation c) (none : c.own = []) : d.width = 0 := by
  cases d with
  | operation left op ofLevel offset right =>
    rw [Category.own] at none
    rw [none] at ofLevel
    cases ofLevel
  | _ => rfl

/-- The chains of all levels together. -/
theorem width_add_nodesOfChains_le {levels : List (List BinaryOp)} (d : Derivation (.ladder levels))
    (short : d.longestChain ≤ k) :
    d.width + (Category.ladder levels).nodesOfChains k ≤ levels.length * k := by
  cases levels with
  | nil => exact (d.width_eq_zero rfl).le.trans (Nat.zero_le _)
  | cons level levels =>
    have width := d.width_le_longestChain.trans short
    rw [List.length_cons, Nat.succ_mul, Nat.add_comm]
    exact Nat.add_le_add_left width _

/-- What a nested place adds to the height of a tree. -/
theorem height_nested_le {d : Derivation c} (own : c.own = [])
    (chains : c.nodesOfChains k < nodesOfNesting k)
    (h : d.tree.height ≤ d.width + c.nodesOfChains k + 1 + d.depth * nodesOfNesting k) :
    d.tree.height ≤ (d.depth + 1) * nodesOfNesting k := by
  rw [d.width_eq_zero own] at h
  rw [Nat.succ_mul]
  omega

/-- The tree of a derivation is as high as its own chains and its nesting allow. -/
theorem height_tree_le (d : Derivation c) (short : d.longestChain ≤ k) :
    d.tree.height ≤ d.width + c.nodesOfChains k + 1 + d.depth * nodesOfNesting k := by
  induction d with
  | assign digits target named targetOffset signOffset value ih =>
    have nested := height_nested_le rfl (Nat.lt_succ_self _) (ih short)
    show value.tree.height + 1 ≤ 0 + _ + 1 + (value.depth + 1) * nodesOfNesting k
    omega
  | loosest inner ih =>
    have chains := inner.width_add_nodesOfChains_le short
    have inside := ih short
    show inner.tree.height ≤ 0 + BinaryOp.levels.length * k + 1 + inner.depth * nodesOfNesting k
    omega
  | @operation level levels left op ofLevel offset right ihl ihr =>
    obtain ⟨width, shorter⟩ := Nat.max_le.1 short
    obtain ⟨shortLeft, shortRight⟩ := Nat.max_le.1 shorter
    have chains := right.width_add_nodesOfChains_le shortRight
    have inLeft := ihl shortLeft
    have inRight := ihr shortRight
    have nestedLeft :=
      Nat.mul_le_mul_right (nodesOfNesting k) (Nat.le_max_left left.depth right.depth)
    have nestedRight :=
      Nat.mul_le_mul_right (nodesOfNesting k) (Nat.le_max_right left.depth right.depth)
    show max left.tree.height right.tree.height + 1 ≤
      left.width + 1 + levels.length * k + 1 + max left.depth right.depth * nodesOfNesting k
    rw [Category.nodesOfChains] at inLeft
    omega
  | @tighter level levels inner ih =>
    have chains := inner.width_add_nodesOfChains_le short
    have inside := ih short
    show inner.tree.height ≤ 0 + levels.length * k + 1 + inner.depth * nodesOfNesting k
    omega
  | prefixed op offset inner ih =>
    have none : Category.unary.nodesOfChains k < nodesOfNesting k := Nat.succ_pos _
    have nested := height_nested_le rfl none (ih short)
    show inner.tree.height + 1 ≤ 0 + 0 + 1 + (inner.depth + 1) * nodesOfNesting k
    omega
  | call function nameOffset openOffset argument closeOffset ih =>
    have nested := height_nested_le rfl (Nat.lt_succ_self _) (ih short)
    show argument.tree.height + 1 ≤ 0 + 0 + 1 + (argument.depth + 1) * nodesOfNesting k
    omega
  | group openOffset inner closeOffset ih =>
    have nested := height_nested_le rfl (Nat.lt_succ_self _) (ih short)
    show inner.tree.height ≤ 0 + 0 + 1 + (inner.depth + 1) * nodesOfNesting k
    omega
  | number text value offset | register digits id named offset => exact Nat.le_add_right 1 _
  | operand inner ih | unprefixed inner ih | uncalled inner ih =>
    have inside := ih short
    rw [inner.width_eq_zero rfl] at inside
    exact inside

end Derivation

namespace Expr

/-- The tree of a text is not higher than the levels of nesting allow, each with a chain of every
level of operators, as long as the longest of the text, and one further node. -/
theorem height_of_ofText {s : String} {t : Expr} (h : ofText s = .ok t) :
    ∃ (d : Derivation .assignment) (last : Offset),
      tokenize s = .ok (d.tokens ++ [⟨.endOfInput, last⟩]) ∧ d.tree = t ∧
        t.height ≤ (BinaryOp.levels.length * d.longestChain + 1) * (maxNesting + 1) := by
  obtain ⟨d, last, cut, rfl, covered⟩ := derived_of_ofText h
  have bound := Derivation.height_nested_le rfl (Nat.lt_succ_self _) (d.height_tree_le le_rfl)
  refine ⟨d, last, cut, rfl, bound.trans ?_⟩
  rw [Nat.mul_comm]
  exact Nat.mul_le_mul_left _ (Nat.succ_le_succ covered)

/-- The tree of `#1=1-2-3` is four nodes high, as its chain of two operators allows. -/
theorem height_of_ofText_differences : ∃ t, ofText "#1=1-2-3" = .ok t ∧ t.height = 4 ∧
    ∃ (d : Derivation .assignment) (last : Offset),
      tokenize "#1=1-2-3" = .ok (d.tokens ++ [⟨.endOfInput, last⟩]) ∧ d.tree = t ∧
        t.height ≤ (BinaryOp.levels.length * d.longestChain + 1) * (maxNesting + 1) := by
  have read : ofText "#1=1-2-3" = .ok (assign 1
      (binary .sub (binary .sub (number 1 3) (number 2 5) 4) (number 3 7) 6) 2) :=
    eq_ok_of_toOption (by decide +kernel)
  exact ⟨_, read, rfl, height_of_ofText read⟩

/-! ## No bound without the chains -/

/-- The text of `n` operators `||` between registers. -/
def alternatives : (n : Nat) → List Char
  | 0 => (RegisterId.text 0).toList
  | n + 1 => alternatives n ++ (Symbol.orOr.spelling.toList ++ (RegisterId.text 0).toList)

/-- A chain of operators is cut into the tokens of a derivation that is not nested at all, and
whose tree has a node for each operator above a register. -/
theorem lexes_alternatives (n : Nat) (offset : Offset) {cs : List Char}
    (ends : ∀ c ∈ cs.head?, c.isDigit = false) :
    ∃ (d : Derivation (.ladder BinaryOp.levels)) (offset' : Offset),
      Lexes offset (alternatives n ++ cs) d.tokens offset' cs ∧ d.depth = 0 ∧
        d.tree.height = n + 1 := by
  let register (offset : Offset) : Derivation .call :=
    .uncalled (.register _ 0 (RegisterId.ofText?_repr 0) offset)
  induction n generalizing cs with
  | zero =>
    obtain ⟨offset', cut⟩ := Lexes.register 0 offset ends
    refine ⟨(register offset).asLadder _, offset', ?_, ?_, ?_⟩
    · rw [Derivation.asLadder, Derivation.tokens_climb]
      exact cut
    · exact Derivation.depth_climb _ _
    · rw [Derivation.asLadder, Derivation.tree_climb]
      rfl
  | succ n ih =>
    obtain ⟨left, offset₁, cutLeft, flat, high⟩ :=
      @ih (Symbol.orOr.spelling.toList ++ ((RegisterId.text 0).toList ++ cs))
        (by intro c mem; cases mem; rfl)
    have sign := @Lexes.symbol .orOr offset₁ ((RegisterId.text 0).toList ++ cs)
      (by intro c mem; cases mem; rfl)
    obtain ⟨offset₂, cutRight⟩ :=
      Lexes.register 0 (offset₁ + Symbol.orOr.spelling.toList.length) ends
    let right := (register (offset₁ + Symbol.orOr.spelling.toList.length)).asLadder
      BinaryOp.levels.tail
    refine ⟨.operation left .or (List.mem_singleton_self _) offset₁ right, offset₂, ?_, ?_, ?_⟩
    · have spelled : right.tokens = _ := Derivation.tokens_climb _ _
      show Lexes _ _ (left.tokens ++ _ :: right.tokens) _ _
      rw [spelled, alternatives, List.append_assoc, List.append_assoc]
      exact cutLeft.trans (sign.trans cutRight)
    · have single : right.depth = 0 := Derivation.depth_climb _ _
      show max left.depth right.depth = 0
      rw [flat, single]
      rfl
    · have leaf : right.tree = .register 0 _ := Derivation.tree_climb _ _
      show max left.tree.height right.tree.height + 1 = n + 1 + 1
      rw [high, leaf, height, Nat.max_eq_left (Nat.succ_pos n)]

/-- For every bound there is a statement, not nested at all, whose tree is higher. -/
theorem not_exists_height_bound :
    ¬∃ bound, ∀ s t, ofText s = .ok t → t.height ≤ bound := by
  rintro ⟨bound, bounded⟩
  obtain ⟨d, last, cut, flat, high⟩ := @lexes_alternatives bound 0 [] nofun
  rw [List.append_nil] at cut
  have read : ofText (String.ofList (alternatives bound)) = .ok d.tree := by
    have tokens : tokenize (String.ofList (alternatives bound)) =
        .ok ((Derivation.loosest d).tokens ++ [⟨.endOfInput, last⟩]) := by
      rw [tokenize, String.toList_ofList]
      exact cut.tokenizeFrom_eq
    have covered : (Derivation.loosest d).depth ≤ maxNesting := flat.le.trans (Nat.zero_le _)
    simp only [ofText, tokens, ofTokens, Derivation.ofTokensWithin_covered _ covered last]
    rfl
  have := bounded _ _ read
  omega

end Expr

end RegisterCalc
