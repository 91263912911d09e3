import RegisterCalc.Proofs.Grammar.Reading

/-!
# Derivations are read

The reader of a category reads the tokens of a derivation as the tree of the derivation and leaves
what follows, if the derivation is not deeper than the levels of nesting that may be spent; if it is
deeper, the reader fails for the nesting and for nothing else (`Derivation.run_tokens`).

What follows may be an operator of the category's own level. The reader goes on then, from the tree
of the derivation as its left operand (`Category.resume`). In this form the statement holds of the
left operand of an operation, which is of the same category as the operation.
-/

namespace RegisterCalc

open Reader

section
variable {limit depth budget : Nat} {outcome expected : Outcome}

/-! ## Outcomes within a budget -/

/-- An outcome is the expected one as far as the budget covers the depth, and a fault of nesting
where it does not. -/
def Outcome.Within (limit depth budget : Nat) (outcome expected : Outcome) : Prop :=
  (depth ≤ budget → outcome = expected) ∧
    (budget < depth → ∃ offset, outcome = .error (.nestingTooDeep limit offset))

namespace Outcome.Within

/-- What needs no nesting is within any budget. -/
theorem refl (outcome : Outcome) : Within limit 0 budget outcome outcome :=
  ⟨fun _ => rfl, fun h => absurd h (Nat.not_lt_zero _)⟩

/-- A step after which there is a further step is as deep as the deeper of the two. -/
theorem trans {depth' : Nat} {middle : Outcome} (first : Within limit depth budget outcome middle)
    (second : Within limit depth' budget middle expected) :
    Within limit (max depth depth') budget outcome expected := by
  refine ⟨fun h => ?_, fun h => ?_⟩
  · obtain ⟨covered, covered'⟩ := Nat.max_le.1 h
    exact (first.1 covered).trans (second.1 covered')
  · rcases Nat.lt_or_ge budget depth with deeper | covered
    · exact first.2 deeper
    · rw [first.1 covered]
      exact second.2 (by omega)

/-- A fault of nesting in the first of two steps is one of both. -/
theorem bind {reading : Expr × List Token} (next : Expr × List Token → Outcome)
    (h : Within limit depth budget outcome (.ok reading)) :
    Within limit depth budget (outcome.bind next) (next reading) := by
  refine ⟨fun covered => ?_, fun deeper => ?_⟩
  · rw [h.1 covered]
    rfl
  · obtain ⟨offset, fault⟩ := h.2 deeper
    exact ⟨offset, by rw [fault]; rfl⟩

/-- A node over a tree is as deep as the tree. -/
theorem under {tree : Expr} {rest : List Token} (node : Expr → Expr)
    (h : Within limit depth budget outcome (.ok (tree, rest))) :
    Within limit depth budget (Reader.under node outcome) (.ok (node tree, rest)) :=
  h.bind _

/-- A nested place, which is refused without a budget, costs one more level than what is read
there. -/
theorem nested {stop : Offset} {reader : Nat → Reader} {tokens : List Token}
    (spent : reader 0 = tooDeep stop limit)
    (left : ∀ budget, Within limit depth budget ((reader (budget + 1)).run tokens) expected) :
    Within limit (depth + 1) budget ((reader budget).run tokens) expected := by
  cases budget with
  | zero =>
    rw [spent]
    exact ⟨fun h => absurd h (Nat.not_succ_le_zero _), fun _ => ⟨_, rfl⟩⟩
  | succ budget =>
    obtain ⟨covered, deeper⟩ := left budget
    exact ⟨fun h => covered (Nat.le_of_succ_le_succ h), fun h => deeper (Nat.lt_of_succ_lt_succ h)⟩

end Outcome.Within

end

/-! ## Going on -/

section
variable {stop : Offset} {nested : Scope} {rest : List Token}

/-- What the reader of a category makes of a tree that it has read and of the tokens after it: a
level of binary operators goes on from the tree as its left operand. -/
def Category.resume (stop : Offset) (nested : Scope) :
    Category → (tree : Expr) → (rest : List Token) → Outcome
  | ladder (level :: levels), tree, rest =>
    goOn level (Reader.ladder levels (Reader.unary stop nested)) tree rest
  | _, tree, rest => .ok (tree, rest)

/-- A reader is done where none of the category's own operators follows. -/
theorem Category.resume_of_stops {c : Category} (stops : Stops c.own rest) (tree : Expr) :
    c.resume stop nested tree rest = .ok (tree, rest) := by
  match c, rest with
  | .ladder (level :: levels), [] => exact goOn_nil tree
  | .ladder (level :: levels), token :: rest => exact goOn_of_none stops.operator?_eq_none tree
  | .ladder [], _ | .assignment, _ | .unary, _ | .call, _ | .primary, _ => rfl

end

/-! ## One step of a derivation -/

/-- The readers with any budget read the tokens of a derivation, before what may follow it. -/
def Derivation.IsRead (stop : Offset) (limit : Nat) {c : Category} (d : Derivation c) : Prop :=
  ∀ budget rest, Stops c.tighter rest →
    Outcome.Within limit d.depth budget
      ((c.reader stop (.nested stop limit budget)).run (d.tokens ++ rest))
      (c.resume stop (.nested stop limit budget) d.tree rest)

namespace Derivation.IsRead

variable {stop : Offset} {limit budget : Nat} {level : List BinaryOp}
  {levels : List (List BinaryOp)}

/-- In a nested place an assignment costs one more level. -/
theorem nested_expression {value : Derivation .assignment} (ih : value.IsRead stop limit)
    {rest : List Token} (stops : Stops BinaryOp.levels.flatten rest) :
    Outcome.Within limit (value.depth + 1) budget
      ((Scope.nested stop limit budget).expression.run (value.tokens ++ rest))
      (.ok (value.tree, rest)) := by
  let reader := fun budget => (Scope.nested stop limit budget).expression
  refine @Outcome.Within.nested _ _ _ _ stop reader _ rfl fun budget => ?_
  show Outcome.Within _ _ _ ((Scope.nested stop limit (budget + 1)).expression.run _) _
  rw [Scope.nested, Scope.within_eq_around]
  exact ih budget rest stops

/-- In a nested place an operand costs one more level. -/
theorem nested_operand {inner : Derivation .unary} (ih : inner.IsRead stop limit)
    (rest : List Token) (stops : Stops [] rest) :
    Outcome.Within limit (inner.depth + 1) budget
      ((Scope.nested stop limit budget).operand.run (inner.tokens ++ rest))
      (.ok (inner.tree, rest)) := by
  let reader := fun budget => (Scope.nested stop limit budget).operand
  refine @Outcome.Within.nested _ _ _ _ stop reader _ rfl fun budget => ?_
  show Outcome.Within _ _ _ ((Scope.nested stop limit (budget + 1)).operand.run _) _
  rw [Scope.nested, Scope.within_eq_around]
  exact ih budget rest stops

/-- In brackets an assignment costs one more level. -/
theorem enclosed {value : Derivation .assignment} (ih : value.IsRead stop limit)
    (opened closeOffset : Offset) (rest : List Token) :
    Outcome.Within limit (value.depth + 1) budget
      ((Reader.enclosed stop opened (Scope.nested stop limit budget).expression).run
        (value.tokens ++ [⟨.symbol .rightParen, closeOffset⟩] ++ rest))
      (.ok (value.tree, rest)) := by
  rw [run_enclosed, List.append_assoc]
  exact (ih.nested_expression (.rightParen closeOffset)).bind (closing stop opened)

/-- A ladder reads an operand of its next tighter level where it stops. -/
theorem ladder {inner : Derivation (.ladder levels)} (ih : inner.IsRead stop limit)
    {rest : List Token} (stops : Stops levels.flatten rest) :
    Outcome.Within limit inner.depth budget
      ((Reader.ladder levels (Reader.unary stop (.nested stop limit budget))).run
        (inner.tokens ++ rest))
      (.ok (inner.tree, rest)) := by
  rw [← Category.resume_of_stops stops.own]
  exact ih budget rest stops.tighter

/-- An assignment is read. -/
theorem assign {value : Derivation .assignment} (ih : value.IsRead stop limit) {digits : String}
    {target : RegisterId} (named : RegisterId.ofText? digits = some target)
    (targetOffset signOffset : Offset) :
    (assign digits target named targetOffset signOffset value).IsRead stop limit := by
  intro budget rest stops
  show Outcome.Within _ _ _ ((Reader.assignment _ _).run _) _
  rw [tokens, List.cons_append, List.cons_append, run_assignment_assign named]
  exact (ih.nested_expression stops).under _

/-- An expression that is no assignment is read where an assignment may stand. -/
theorem loosest {inner : Derivation (.ladder BinaryOp.levels)} (ih : inner.IsRead stop limit) :
    (loosest inner).IsRead stop limit := by
  intro budget rest stops
  have noAssignment : startsAssignment (inner.tokens ++ rest) = false :=
    inner.startsAssignment_tokens nofun (stops.mono nofun)
  show Outcome.Within _ _ _ ((Reader.assignment _ _).run (inner.tokens ++ rest)) _
  rw [run_assignment_of_not noAssignment]
  exact ih.ladder stops

/-- An operation is read: its left operand is, then the operator makes the reader go on with its
right operand. -/
theorem operation {left : Derivation (.ladder (level :: levels))}
    {right : Derivation (.ladder levels)} {op : BinaryOp}
    (distinct : (Category.ladder (level :: levels)).Distinct) (ihl : left.IsRead stop limit)
    (ihr : right.IsRead stop limit) (ofLevel : op ∈ level) (offset : Offset) :
    (operation left op ofLevel offset right).IsRead stop limit := by
  intro budget rest stops
  have first := ihl budget (⟨.symbol op.symbol, offset⟩ :: (right.tokens ++ rest))
    (.operator (distinct.not_mem ofLevel) offset)
  rw [tokens, List.append_assoc, List.cons_append]
  refine first.trans ?_
  rw [Category.resume, goOn_of_some (Token.operator?_of_mem ofLevel offset)]
  exact (ihr.ladder stops).bind _

/-- An operand of a level is read as an expression of the level. -/
theorem tighter {inner : Derivation (.ladder levels)} (ih : inner.IsRead stop limit) :
    (@Derivation.tighter level levels inner).IsRead stop limit := by
  intro budget rest stops
  show Outcome.Within _ _ _ ((leftAssociative _ _).run (inner.tokens ++ rest)) _
  rw [run_leftAssociative]
  exact (ih.ladder stops).bind _

/-- A prefix operator before an operand is read. -/
theorem prefixed {inner : Derivation .unary} (ih : inner.IsRead stop limit) (op : PrefixOp)
    (offset : Offset) : (prefixed op offset inner).IsRead stop limit := by
  intro budget rest stops
  show Outcome.Within _ _ _ ((Reader.unary _ _).run _) _
  rw [tokens, List.cons_append, run_unary_prefixed]
  exact (ih.nested_operand rest stops).under _

/-- A call is read where a prefix operator may stand. -/
theorem unprefixed {inner : Derivation .call} (ih : inner.IsRead stop limit) :
    (unprefixed inner).IsRead stop limit := by
  intro budget rest stops
  obtain ⟨token, more, first, notPrefix⟩ := inner.tokens_call
  have read := ih budget rest stops
  show Outcome.Within _ _ _ ((Reader.unary _ _).run (inner.tokens ++ rest)) _
  rw [first, List.cons_append] at read ⊢
  rw [run_unary_of_unprefixed notPrefix]
  exact read

/-- A call is read. -/
theorem call {argument : Derivation .assignment} (ih : argument.IsRead stop limit)
    (function : Function) (nameOffset openOffset closeOffset : Offset) :
    (call function nameOffset openOffset argument closeOffset).IsRead stop limit := by
  intro budget rest _
  show Outcome.Within _ _ _ ((Reader.call _ _).run _) _
  rw [tokens, List.cons_append, List.cons_append, run_call_name]
  exact (ih.enclosed openOffset closeOffset rest).under _

/-- A primary expression is read where a call may stand. -/
theorem uncalled {inner : Derivation .primary} (ih : inner.IsRead stop limit) :
    (uncalled inner).IsRead stop limit := by
  intro budget rest stops
  obtain ⟨token, more, first, notName, -⟩ := inner.tokens_primary
  have read := ih budget rest stops
  show Outcome.Within _ _ _ ((Reader.call _ _).run (inner.tokens ++ rest)) _
  rw [first, List.cons_append] at read ⊢
  rw [run_call_of_not_name notName]
  exact read

/-- An expression in brackets is read. -/
theorem group {inner : Derivation .assignment} (ih : inner.IsRead stop limit)
    (openOffset closeOffset : Offset) : (group openOffset inner closeOffset).IsRead stop limit := by
  intro budget rest _
  show Outcome.Within _ _ _ ((Reader.primary _ _).run _) _
  rw [tokens, List.cons_append, run_primary_group]
  exact ih.enclosed openOffset closeOffset rest

end Derivation.IsRead

/-! ## Whole derivations -/

/-- The tokens of a derivation are read as its tree, if it is not deeper than allowed; if it is
deeper, that is the fault. -/
theorem Derivation.run_tokens (stop : Offset) (limit : Nat) {c : Category} (d : Derivation c)
    (distinct : c.Distinct) : d.IsRead stop limit := by
  induction d with
  | assign digits target named targetOffset signOffset value ih =>
    exact (ih distinct).assign named targetOffset signOffset
  | loosest inner ih => exact (ih Category.distinct_loosest).loosest
  | operation left op ofLevel offset right ihl ihr =>
    exact (ihl distinct).operation distinct (ihr distinct.tail) ofLevel offset
  | tighter inner ih => exact (ih distinct.tail).tighter
  | operand inner ih => exact ih .nil
  | prefixed op offset inner ih => exact (ih .nil).prefixed op offset
  | unprefixed inner ih => exact (ih .nil).unprefixed
  | call function nameOffset openOffset argument closeOffset ih =>
    exact (ih Category.distinct_assignment).call function nameOffset openOffset closeOffset
  | uncalled inner ih => exact (ih .nil).uncalled
  | number text value offset =>
    intro budget rest _
    show Outcome.Within _ _ _ ((Reader.primary _ _).run (_ :: rest)) _
    rw [run_primary_number]
    exact .refl _
  | register digits id named offset =>
    intro budget rest _
    show Outcome.Within _ _ _ ((Reader.primary _ _).run (_ :: rest)) _
    rw [run_primary_register named]
    exact .refl _
  | group openOffset inner closeOffset ih =>
    exact (ih Category.distinct_assignment).group openOffset closeOffset

end RegisterCalc
