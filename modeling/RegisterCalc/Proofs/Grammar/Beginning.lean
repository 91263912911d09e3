import RegisterCalc.Proofs.Grammar.Derivation

/-!
# Beginnings of expressions

Tokens begin an expression of a category if a derivation of the category spells them, and further
tokens behind them or none (`Category.Begins`). For each place that a part has in the grammar there
is a lemma: where tokens begin the part, they begin the whole behind the tokens before that place.
Nothing is said about the depth of the derivation.
-/

namespace RegisterCalc

namespace Category

/-- Some expression of the category starts with these tokens. -/
def Begins (c : Category) (before : List Token) : Prop :=
  ∃ (d : Derivation c) (more : List Token), d.tokens = before ++ more

namespace Begins

variable {c : Category} {before more : List Token}

/-- A whole expression begins with itself. -/
theorem whole (d : Derivation c) : c.Begins d.tokens := ⟨d, [], (List.append_nil _).symm⟩

/-- What begins an expression begins with whatever it starts with. -/
theorem of_append (h : c.Begins (before ++ more)) : c.Begins before := by
  obtain ⟨d, more', spelled⟩ := h
  exact ⟨d, more ++ more', by rw [spelled, List.append_assoc]⟩

/-! ## Parts at the start of the whole -/

/-- A primary expression may stand where a call may. -/
theorem uncalled (h : primary.Begins before) : call.Begins before := by
  obtain ⟨d, more, spelled⟩ := h
  exact ⟨.uncalled d, more, spelled⟩

/-- A call may stand where an operand may. -/
theorem unprefixed (h : call.Begins before) : unary.Begins before := by
  obtain ⟨d, more, spelled⟩ := h
  exact ⟨.unprefixed d, more, spelled⟩

/-- An expression of a tighter level may stand where one of a looser level may. -/
theorem tighter {level : List BinaryOp} {levels : List (List BinaryOp)}
    (h : (ladder levels).Begins before) : (ladder (level :: levels)).Begins before := by
  obtain ⟨d, more, spelled⟩ := h
  exact ⟨.tighter d, more, spelled⟩

/-- An operand may stand where an expression of any level may. -/
theorem operand (h : unary.Begins before) (levels : List (List BinaryOp)) :
    (ladder levels).Begins before := by
  induction levels with
  | nil =>
    obtain ⟨d, more, spelled⟩ := h
    exact ⟨.operand d, more, spelled⟩
  | cons level levels ih => exact ih.tighter

/-- An expression of the loosest level may stand where an assignment may. -/
theorem loosest (h : (ladder BinaryOp.levels).Begins before) : assignment.Begins before := by
  obtain ⟨d, more, spelled⟩ := h
  exact ⟨.loosest d, more, spelled⟩

/-- No tokens begin an expression of any category: a number is of all of them. -/
theorem nil (c : Category) : c.Begins [] := by
  have number : primary.Begins [] := ⟨.number none 0 0, _, rfl⟩
  cases c with
  | primary => exact number
  | call => exact number.uncalled
  | unary => exact number.uncalled.unprefixed
  | ladder levels => exact number.uncalled.unprefixed.operand levels
  | assignment => exact (number.uncalled.unprefixed.operand BinaryOp.levels).loosest

/-! ## Parts behind other tokens -/

/-- A group goes on behind its bracket. -/
theorem group (h : assignment.Begins before) (openOffset : Offset) :
    primary.Begins (⟨.symbol .leftParen, openOffset⟩ :: before) := by
  obtain ⟨d, more, spelled⟩ := h
  refine ⟨.group openOffset d 0, more ++ [⟨.symbol .rightParen, 0⟩], ?_⟩
  simp [Derivation.tokens, spelled]

/-- A call goes on behind the name and the bracket. -/
theorem argument (h : assignment.Begins before) (function : Function)
    (nameOffset openOffset : Offset) :
    call.Begins (⟨.name (some function.name), nameOffset⟩ ::
      ⟨.symbol .leftParen, openOffset⟩ :: before) := by
  obtain ⟨d, more, spelled⟩ := h
  refine ⟨.call function nameOffset openOffset d 0, more ++ [⟨.symbol .rightParen, 0⟩], ?_⟩
  simp [Derivation.tokens, spelled]

/-- A call begins with its name. -/
theorem name (function : Function) (nameOffset : Offset) :
    call.Begins [⟨.name (some function.name), nameOffset⟩] :=
  @of_append _ [_] _ ((nil assignment).argument function nameOffset 0)

/-- An operand goes on behind a prefix operator. -/
theorem prefixed (h : unary.Begins before) (op : PrefixOp) (offset : Offset) :
    unary.Begins (⟨.symbol op.symbol, offset⟩ :: before) := by
  obtain ⟨d, more, spelled⟩ := h
  exact ⟨.prefixed op offset d, more, congrArg (List.cons _) spelled⟩

/-- An operation goes on behind its left operand and the operator. -/
theorem right {level : List BinaryOp} {levels : List (List BinaryOp)}
    (h : (ladder levels).Begins before) (left : Derivation (ladder (level :: levels)))
    {op : BinaryOp} (ofLevel : op ∈ level) (offset : Offset) :
    (ladder (level :: levels)).Begins
      (left.tokens ++ ⟨.symbol op.symbol, offset⟩ :: before) := by
  obtain ⟨d, more, spelled⟩ := h
  refine ⟨.operation left op ofLevel offset d, more, ?_⟩
  rw [List.append_assoc]
  exact congrArg (left.tokens ++ ⟨.symbol op.symbol, offset⟩ :: ·) spelled

/-- An assignment goes on behind the register and the sign. -/
theorem value (h : assignment.Begins before) {digits : String} {target : RegisterId}
    (named : RegisterId.ofText? digits = some target) (targetOffset signOffset : Offset) :
    assignment.Begins (⟨.register (some digits), targetOffset⟩ ::
      ⟨.symbol .assign, signOffset⟩ :: before) := by
  obtain ⟨d, more, spelled⟩ := h
  exact ⟨.assign digits target named targetOffset signOffset d, more,
    congrArg (List.cons _) (congrArg (List.cons _) spelled)⟩

end Begins

end Category

end RegisterCalc
