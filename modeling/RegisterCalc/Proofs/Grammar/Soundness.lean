import RegisterCalc.Proofs.Grammar.Reading

/-!
# What is read is derived

Where the reader of a category takes a tree off the front of a list of tokens, the tokens it takes
are those of a derivation of the category, the tree is the tree of the derivation, and the
derivation is not deeper than the levels of nesting that could be spent (`Reader.readsOnly_within`).

Each reader has this property if the readers of nested places have it with one level less, and those
come from it by induction on the budget. For a chain of operators the induction is on the tokens
that are left: what was read so far is the derivation of a left operand.
-/

namespace RegisterCalc.Reader

/-- Whatever a reader reads is spelled by a derivation of the category that is less deep than
`bound`. -/
def ReadsOnly (c : Category) (bound : Nat) (reader : Reader) : Prop :=
  ∀ tokens tree rest, reader.run tokens = .ok (tree, rest) →
    ∃ d : Derivation c, d.tokens ++ rest = tokens ∧ d.tree = tree ∧ d.depth < bound

variable {stop : Offset} {limit bound : Nat} {nested : Scope}

/-! ## Operands -/

/-- Numbers, registers and brackets are primary expressions. -/
theorem readsOnly_primary (expression : ReadsOnly .assignment bound nested.expression) :
    ReadsOnly .primary (bound + 1) (primary stop nested) := by
  intro tokens tree rest h
  rcases primary_eq_ok h with ⟨text, value, offset, rfl, rfl⟩ |
    ⟨digits, id, offset, named, rfl, rfl⟩ | ⟨openOffset, inside, closeOffset, rfl, read⟩
  · exact ⟨.number text value offset, rfl, rfl, Nat.succ_pos bound⟩
  · exact ⟨.register digits id named offset, rfl, rfl, Nat.succ_pos bound⟩
  · obtain ⟨inner, rfl, rfl, depth⟩ := expression _ _ _ read
    refine ⟨.group openOffset inner closeOffset, ?_, rfl, Nat.succ_lt_succ depth⟩
    simp [Derivation.tokens]

/-- A name with an argument is a call. -/
theorem readsOnly_call (expression : ReadsOnly .assignment bound nested.expression) :
    ReadsOnly .call (bound + 1) (call stop nested) := by
  intro tokens tree rest h
  rcases call_eq_ok h with
    ⟨function, nameOffset, openOffset, inside, closeOffset, argument, rfl, read, rfl⟩ | read
  · obtain ⟨inner, rfl, rfl, depth⟩ := expression _ _ _ read
    refine ⟨.call function nameOffset openOffset inner closeOffset, ?_, rfl,
      Nat.succ_lt_succ depth⟩
    simp [Derivation.tokens]
  · obtain ⟨inner, spelled, denoted, depth⟩ := readsOnly_primary expression _ _ _ read
    exact ⟨.uncalled inner, spelled, denoted, depth⟩

/-- A prefix operator with its operand is an operand. -/
theorem readsOnly_unary (expression : ReadsOnly .assignment bound nested.expression)
    (operand : ReadsOnly .unary bound nested.operand) :
    ReadsOnly .unary (bound + 1) (unary stop nested) := by
  intro tokens tree rest h
  rcases unary_eq_ok h with ⟨op, offset, inside, inner, rfl, read, rfl⟩ | read
  · obtain ⟨inner, rfl, rfl, depth⟩ := operand _ _ _ read
    exact ⟨.prefixed op offset inner, rfl, rfl, Nat.succ_lt_succ depth⟩
  · obtain ⟨inner, spelled, denoted, depth⟩ := readsOnly_call expression _ _ _ read
    exact ⟨.unprefixed inner, spelled, denoted, depth⟩

/-! ## Levels of binary operators -/

section
variable {level : List BinaryOp} {levels : List (List BinaryOp)} {operand : Reader}

/-- A chain that goes on from a derivation as its left operand ends with a derivation. -/
theorem goOn_derived (sound : ReadsOnly (.ladder levels) bound operand)
    (left : Derivation (.ladder (level :: levels))) (bounded : left.depth < bound)
    {rest last : List Token} {tree : Expr}
    (h : goOn level operand left.tree rest = .ok (tree, last)) :
    ∃ d : Derivation (.ladder (level :: levels)),
      d.tokens ++ last = left.tokens ++ rest ∧ d.tree = tree ∧ d.depth < bound := by
  -- `left` spells all that was read so far: it grows as the tokens that are left get fewer.
  induction length : rest.length using Nat.strongRecOn generalizing left rest with
  | ind n ih =>
    cases rest with
    | nil =>
      rw [goOn_nil] at h
      cases h
      exact ⟨left, rfl, rfl, bounded⟩
    | cons token rest =>
      cases isOp : token.operator? level with
      | none =>
        rw [goOn_of_none isOp] at h
        cases h
        exact ⟨left, rfl, rfl, bounded⟩
      | some op =>
        rw [goOn_of_some isOp] at h
        obtain ⟨tree', rest', read, further⟩ := bind_eq_ok h
        obtain ⟨right, rfl, rfl, depth⟩ := sound _ _ _ read
        obtain ⟨ofLevel, same⟩ := Token.eq_of_operator? isOp
        have fewer : rest'.length < n := by
          have := length_lt_of_run read
          rw [List.length_cons] at length
          omega
        obtain ⟨d, spelled, denoted, bounded⟩ :=
          ih _ fewer (.operation left op ofLevel token.offset right)
            (Nat.max_lt.2 ⟨bounded, depth⟩) further rfl
        refine ⟨d, ?_, denoted, bounded⟩
        rw [spelled, Derivation.tokens, ← same]
        simp

/-- A level with operands of the next tighter one is an expression of that level. -/
theorem readsOnly_leftAssociative (sound : ReadsOnly (.ladder levels) bound operand) :
    ReadsOnly (.ladder (level :: levels)) bound (leftAssociative level operand) := by
  intro tokens tree rest h
  rw [run_leftAssociative] at h
  obtain ⟨tree', rest', read, further⟩ := bind_eq_ok h
  obtain ⟨left, rfl, rfl, depth⟩ := sound _ _ _ read
  refine goOn_derived sound (.tighter left) ?_ further
  exact depth

/-- A ladder over operands is an expression of its loosest level. -/
theorem readsOnly_ladder (sound : ReadsOnly .unary bound operand)
    (levels : List (List BinaryOp)) : ReadsOnly (.ladder levels) bound (ladder levels operand) := by
  induction levels with
  | nil =>
    intro tokens tree rest h
    obtain ⟨inner, spelled, denoted, depth⟩ := sound _ _ _ h
    exact ⟨.operand inner, spelled, denoted, depth⟩
  | cons level levels ih => exact readsOnly_leftAssociative ih

end

/-! ## Assignments -/

/-- A register with its new value is an assignment. -/
theorem readsOnly_assignment (expression : ReadsOnly .assignment bound nested.expression)
    (operand : ReadsOnly .unary bound nested.operand) :
    ReadsOnly .assignment (bound + 1) (assignment stop nested) := by
  intro tokens tree rest h
  rcases assignment_eq_ok h with
    ⟨digits, target, targetOffset, signOffset, inside, value, named, rfl, read, rfl⟩ | read
  · obtain ⟨value, rfl, rfl, depth⟩ := expression _ _ _ read
    exact ⟨.assign digits target named targetOffset signOffset value, rfl, rfl,
      Nat.succ_lt_succ depth⟩
  · obtain ⟨inner, spelled, denoted, depth⟩ :=
      readsOnly_ladder (readsOnly_unary expression operand) BinaryOp.levels _ _ _ read
    exact ⟨.loosest inner, spelled, denoted, depth⟩

/-! ## Nested places -/

/-- Nested places hold derivations that are less deep than the budget around them. -/
theorem readsOnly_nested (stop : Offset) (limit budget : Nat) :
    ReadsOnly .assignment budget (Scope.nested stop limit budget).expression ∧
      ReadsOnly .unary budget (Scope.nested stop limit budget).operand := by
  induction budget with
  | zero => exact ⟨nofun, nofun⟩
  | succ budget ih =>
    obtain ⟨expression, operand⟩ := ih
    rw [Scope.nested, Scope.within_eq_around]
    exact ⟨readsOnly_assignment expression operand, readsOnly_unary expression operand⟩

/-- Whatever is read with a budget is spelled by a derivation that is not deeper than it. -/
theorem readsOnly_within (stop : Offset) (limit budget : Nat) :
    ReadsOnly .assignment (budget + 1) (Scope.within stop limit budget).expression := by
  obtain ⟨expression, operand⟩ := readsOnly_nested stop limit budget
  rw [Scope.within_eq_around]
  exact readsOnly_assignment expression operand

end RegisterCalc.Reader
