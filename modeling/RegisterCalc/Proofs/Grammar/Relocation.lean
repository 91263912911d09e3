import RegisterCalc.Proofs.Grammar.Exactness
import RegisterCalc.Proofs.Grammar.Refusing
import RegisterCalc.Proofs.Token.Separation
import RegisterCalc.Proofs.Tree.Positions

/-!
# Readers do not look at positions

Tokens with their positions moved are read as the same tree with its positions moved, and are
refused for the same fault with its positions moved (`Expr.ofTokens_relocate`), whatever is made of
the positions. A position is handed on and never compared, so two positions may become one. The end
of the input has to be among the tokens: where it is missing it is put behind the last token, which
is a sum of its position.

Each reader moves positions along if the readers of nested places do (`Reader.Relocates`). A token
that was moved is told apart as the token itself, so the cases of a reader are the same on both
sides. Together with folding and evaluation, which move positions along too, this says that texts of
the same lexemes are the same statement, however they are spaced.
-/

namespace RegisterCalc

open Reader

/-! ## Moving positions -/

/-- A fault of tokens with its positions moved: that of what was found and that of a bracket left
open. -/
def SyntaxFault.relocate (f : Offset → Offset) : SyntaxFault → SyntaxFault
  | unexpectedToken found => unexpectedToken (found.relocate f)
  | unexpectedIdentifier name offset => unexpectedIdentifier name (f offset)
  | expectedOpening name found => expectedOpening name (found.relocate f)
  | unbalancedParens opened found => unbalancedParens (f opened) (found.relocate f)
  | nestingTooDeep limit offset => nestingTooDeep limit (f offset)

/-- What a reader makes of tokens, with all positions moved. -/
def Outcome.relocate (f : Offset → Offset) : Outcome → Outcome
  | .ok (tree, rest) => .ok (tree.relocate f, rest.map (Token.relocate f))
  | .error fault => .error (fault.relocate f)

section
variable {f : Offset → Offset}

namespace Outcome

/-- Two steps move positions if each of them does. -/
theorem relocate_bind {outcome outcome' : Outcome} {next next' : Expr × List Token → Outcome}
    (first : outcome' = outcome.relocate f)
    (second : ∀ tree rest, next' (tree.relocate f, rest.map (Token.relocate f)) =
      (next (tree, rest)).relocate f) :
    outcome'.bind next' = Outcome.relocate f (outcome.bind next) := by
  subst first
  cases outcome with
  | error fault => rfl
  | ok reading => exact second reading.1 reading.2

/-- A node over a tree moves its position along with those of the tree. -/
theorem relocate_under {outcome outcome' : Outcome} {node node' : Expr → Expr}
    (inner : outcome' = outcome.relocate f)
    (same : ∀ tree, node' (tree.relocate f) = (node tree).relocate f) :
    Reader.under node' outcome' = Outcome.relocate f (Reader.under node outcome) :=
  relocate_bind inner fun tree rest =>
    congrArg (fun tree => Except.ok (tree, rest.map (Token.relocate f))) (same tree)

end Outcome

/-! ## Readers -/

namespace Reader

/-- The current token is moved with the tokens and the end of the input. -/
theorem current_relocate (f : Offset → Offset) (stop : Offset) (tokens : List Token) :
    current (f stop) (tokens.map (Token.relocate f)) = (current stop tokens).relocate f := by
  cases tokens <;> rfl

/-- One reader makes of tokens that are moved what another makes of the tokens, moved. -/
def Relocates (f : Offset → Offset) (reader reader' : Reader) : Prop :=
  ∀ tokens, reader'.run (tokens.map (Token.relocate f)) = (reader.run tokens).relocate f

section
variable {stop : Offset} {nested nested' : Scope}

/-! ### Operands -/

/-- A bracket is closed or left open wherever it stands. -/
theorem closing_relocate (stop opened : Offset) (tree : Expr) (rest : List Token) :
    closing (f stop) (f opened) (tree.relocate f, rest.map (Token.relocate f)) =
      (closing stop opened (tree, rest)).relocate f := by
  rcases closing_cases stop rest with unclosed | ⟨closeOffset, more, rfl⟩
  · have unclosed' : (current (f stop) (rest.map (Token.relocate f))).symbol? ≠
        some .rightParen := by
      rw [current_relocate]
      exact unclosed
    rw [closing_of_current unclosed, closing_of_current unclosed', current_relocate]
    rfl
  · rfl

/-- What stands in brackets is moved with the brackets. -/
theorem enclosed_relocate (ih : Relocates f nested.expression nested'.expression)
    (opened : Offset) (rest : List Token) :
    (enclosed (f stop) (f opened) nested'.expression).run (rest.map (Token.relocate f)) =
      ((enclosed stop opened nested.expression).run rest).relocate f := by
  rw [run_enclosed, run_enclosed]
  exact Outcome.relocate_bind (ih rest) (closing_relocate stop opened)

/-- Primary expressions are moved. -/
theorem relocates_primary (ih : Relocates f nested.expression nested'.expression) :
    Relocates f (primary stop nested) (primary (f stop) nested') := by
  intro tokens
  rcases primary_cases stop tokens with refused | ⟨text, value, offset, rest, rfl⟩ |
    ⟨digits, id, offset, rest, named, rfl⟩ | ⟨openOffset, rest, rfl⟩
  · have refused' : (current (f stop) (tokens.map (Token.relocate f))).startsPrimary = false := by
      rw [current_relocate]
      exact refused
    rw [run_primary_of_current refused, run_primary_of_current refused', current_relocate]
    rfl
  · rfl
  · rw [run_primary_register named]
    exact run_primary_register named (f offset)
  · rw [run_primary_group]
    exact (run_primary_group (f openOffset)).trans (enclosed_relocate ih openOffset rest)

/-- Calls are moved. -/
theorem relocates_call (ih : Relocates f nested.expression nested'.expression) :
    Relocates f (call stop nested) (call (f stop) nested') := by
  intro tokens
  rcases call_cases stop tokens with notName | ⟨letters, nameOffset, rest, unknown, rfl⟩ |
    ⟨function, nameOffset, rest, rfl, unopened | ⟨openOffset, inside, rfl⟩⟩
  · have notName' : ∀ letters,
        (current (f stop) (tokens.map (Token.relocate f))).lexeme ≠ .name letters := by
      rw [current_relocate]
      exact notName
    rw [run_call_of_current notName, run_call_of_current notName']
    exact relocates_primary ih tokens
  · rw [run_call_unknown unknown]
    exact run_call_unknown unknown
  · have unopened' : (current (f stop) (rest.map (Token.relocate f))).symbol? ≠
        some .leftParen := by
      rw [current_relocate]
      exact unopened
    rw [run_call_unopened unopened]
    refine (run_call_unopened unopened' function (f nameOffset)).trans ?_
    rw [current_relocate]
    rfl
  · rw [run_call_name]
    refine (run_call_name function (f nameOffset) (f openOffset)).trans ?_
    exact Outcome.relocate_under (enclosed_relocate ih openOffset inside) fun _ => rfl

/-- Operands are moved. -/
theorem relocates_unary (ih : Relocates f nested.expression nested'.expression)
    (ihOperand : Relocates f nested.operand nested'.operand) :
    Relocates f (unary stop nested) (unary (f stop) nested') := by
  intro tokens
  rcases unary_cases stop tokens with notPrefix | ⟨op, offset, inside, rfl⟩
  · have notPrefix' : (current (f stop) (tokens.map (Token.relocate f))).symbol?.bind
        PrefixOp.ofSymbol? = none := by
      rw [current_relocate]
      exact notPrefix
    rw [run_unary_of_current notPrefix, run_unary_of_current notPrefix']
    exact relocates_call ih tokens
  · rw [run_unary_prefixed]
    refine (run_unary_prefixed op (f offset)).trans ?_
    exact Outcome.relocate_under (ihOperand inside) fun _ => rfl

/-! ### Levels of binary operators -/

section
variable {operand operand' : Reader}

/-- A chain of operators is moved with its left operand. -/
theorem goOn_relocate (ih : Relocates f operand operand') (level : List BinaryOp) (left : Expr)
    (rest : List Token) :
    goOn level operand' (left.relocate f) (rest.map (Token.relocate f)) =
      (goOn level operand left rest).relocate f := by
  -- The left operand grows while the tokens that are left get fewer: the induction is on those.
  induction length : rest.length using Nat.strongRecOn generalizing left rest with
  | ind n further =>
    rcases goOn_cases 0 level rest with ends | ⟨op, ofLevel, offset, after, rfl⟩
    · have ends' : (current (f 0) (rest.map (Token.relocate f))).operator? level = none := by
        rw [current_relocate]
        exact ends
      rw [goOn_of_current ends, goOn_of_current ends']
      rfl
    · rw [goOn_of_some (Token.operator?_of_mem ofLevel offset)]
      refine (goOn_of_some (Token.operator?_of_mem ofLevel (f offset)) _).trans ?_
      cases read : operand.run after with
      | error fault =>
        rw [ih after, read]
        rfl
      | ok reading =>
        obtain ⟨right, rest'⟩ := reading
        have fewer : rest'.length < n := by
          have := length_lt_of_run read
          rw [List.length_cons] at length
          omega
        rw [ih after, read]
        exact further _ fewer (.binary op left right offset) rest' rfl

/-- A ladder of levels is moved if its operands are. -/
theorem relocates_ladder (ih : Relocates f operand operand') (levels : List (List BinaryOp)) :
    Relocates f (ladder levels operand) (ladder levels operand') := by
  induction levels with
  | nil => exact ih
  | cons level levels ihLevels =>
    intro tokens
    rw [ladder, ladder, run_leftAssociative, run_leftAssociative]
    exact Outcome.relocate_bind (ihLevels tokens) (goOn_relocate ihLevels level)

end

/-! ### Assignments and nested places -/

/-- Tokens that are moved start an assignment where the tokens do. -/
theorem startsAssignment_relocate (f : Offset → Offset) (tokens : List Token) :
    startsAssignment (tokens.map (Token.relocate f)) = startsAssignment tokens := by
  match tokens with
  | [] | [_] | _ :: _ :: _ => rfl

/-- Assignments are moved. -/
theorem relocates_assignment (ih : Relocates f nested.expression nested'.expression)
    (ihOperand : Relocates f nested.operand nested'.operand) :
    Relocates f (assignment stop nested) (assignment (f stop) nested') := by
  intro tokens
  rcases assignment_cases stop tokens with ⟨register, unreadable⟩ |
    ⟨digits, id, targetOffset, signOffset, rest, named, rfl⟩ | ⟨starts, -⟩
  · have register' : (current (f stop) (tokens.map (Token.relocate f))).isRegister := by
      rw [current_relocate]
      exact register
    have unreadable' : (current (f stop) (tokens.map (Token.relocate f))).startsPrimary =
        false := by
      rw [current_relocate]
      exact unreadable
    rw [run_assignment_of_current register unreadable,
      run_assignment_of_current register' unreadable', current_relocate]
    rfl
  · rw [run_assignment_assign named]
    refine (run_assignment_assign named (f targetOffset) (f signOffset)).trans ?_
    exact Outcome.relocate_under (ih rest) fun _ => rfl
  · rw [run_assignment_of_not starts,
      run_assignment_of_not ((startsAssignment_relocate f tokens).trans starts)]
    exact relocates_ladder (relocates_unary ih ihOperand) BinaryOp.levels tokens

/-- Nested places are moved, and refused for their nesting where they are without. -/
theorem relocates_nested (f : Offset → Offset) (stop : Offset) (limit budget : Nat) :
    Relocates f (Scope.nested stop limit budget).expression
        (Scope.nested (f stop) limit budget).expression ∧
      Relocates f (Scope.nested stop limit budget).operand
        (Scope.nested (f stop) limit budget).operand := by
  induction budget with
  | zero =>
    have tooDeep : Relocates f (Reader.tooDeep stop limit) (Reader.tooDeep (f stop) limit) := by
      intro tokens
      show Except.error (SyntaxFault.nestingTooDeep limit (current (f stop) _).offset) = _
      rw [current_relocate]
      rfl
    exact ⟨tooDeep, tooDeep⟩
  | succ budget ih =>
    rw [Scope.nested, Scope.nested, Scope.within_eq_around, Scope.within_eq_around]
    exact ⟨relocates_assignment ih.1 ih.2, relocates_unary ih.1 ih.2⟩

end

end Reader

/-! ## Statements -/

/-- The end of the input is moved with the tokens if it is among them. -/
theorem endOffset_relocate (f : Offset → Offset) {tokens : List Token}
    (ended : ∃ token ∈ tokens, token.isEnd) :
    endOffset (tokens.map (Token.relocate f)) = f (endOffset tokens) := by
  have same : Token.isEnd ∘ Token.relocate f = Token.isEnd := rfl
  obtain ⟨token, found⟩ := Option.isSome_iff_exists.1 (List.find?_isSome.2 ended)
  rw [endOffset, endOffset, List.find?_map, same, found]
  rfl

namespace Expr

/-- A statement that was read with nothing behind it is complete wherever it stands. -/
theorem complete_relocate (f : Offset → Offset) (reading : Outcome) :
    (Outcome.relocate f reading).bind complete =
      ((reading.bind complete).map (relocate f)).mapError (SyntaxFault.relocate f) := by
  match reading with
  | .error fault | .ok (tree, []) | .ok (tree, token :: rest) => rfl

/-- Tokens with their positions moved make the same statement with its positions moved, or are
refused for the same fault with its positions moved. -/
theorem ofTokens_relocate (f : Offset → Offset) {tokens : List Token}
    (ended : ∃ token ∈ tokens, token.isEnd) :
    ofTokens (tokens.map (Token.relocate f)) =
      ((ofTokens tokens).map (relocate f)).mapError (SyntaxFault.relocate f) := by
  have same : (fun token => !Token.isEnd token) ∘ Token.relocate f = (!Token.isEnd ·) := rfl
  obtain ⟨ih, ihOperand⟩ := relocates_nested f (endOffset tokens) maxNesting maxNesting
  rw [ofTokens, ofTokens, ofTokensWithin_eq, ofTokensWithin_eq, endOffset_relocate f ended,
    List.takeWhile_map, same]
  show ((Reader.assignment _ _).run _).bind _ = (((Reader.assignment _ _).run _).bind _ |>.map _
    |>.mapError _)
  rw [relocates_assignment ih ihOperand]
  exact complete_relocate f _

end Expr

end

end RegisterCalc
