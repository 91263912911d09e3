import RegisterCalc.Proofs.Grammar.Exactness
import RegisterCalc.Proofs.Grammar.Refusing

/-!
# What faults tell of their tokens

A fault for which tokens are no statement is the fault of one of them or of the end of the input
(`SyntaxFault.IsAt`): the position, the name and the token that it tells of are those of this token.
An opening bracket that it says is left open is one of the tokens, too, and what it says lacks one
is a function. So nothing in a fault is made up, also where the tokens are nested too deep
(`Expr.concerns_of_ofTokens`).

A reader has this property if the readers of nested places have it (`Reader.Traces`). What is said
of the tokens behind some others holds of all of them (`SyntaxFault.Concerns.mono`); only for the
expression in brackets the opening one has to be counted in.
-/

namespace RegisterCalc

open Reader

/-! ## Faults and their tokens -/

/-- A fault is the one of a token: what it tells of what was found is told of this token. -/
inductive SyntaxFault.IsAt : SyntaxFault → Token → Prop
  | unexpectedToken (found : Token) : IsAt (.unexpectedToken found) found
  | unexpectedIdentifier (letters : Option String) (offset : Offset) :
    IsAt (.unexpectedIdentifier (letters.getD "") offset) ⟨.name letters, offset⟩
  | expectedOpening (name : String) (found : Token) : IsAt (.expectedOpening name found) found
  | unbalancedParens (opened : Offset) (found : Token) : IsAt (.unbalancedParens opened found) found
  | nestingTooDeep (limit : Nat) (found : Token) : IsAt (.nestingTooDeep limit found.offset) found

/-- A fault is at the offset of its token. -/
theorem SyntaxFault.IsAt.offset_eq {fault : SyntaxFault} {token : Token} (h : fault.IsAt token) :
    fault.offset = token.offset := by
  cases h <;> rfl

/-- A fault is one of the tokens or of the end of the input at `stop`, a bracket that it says is
left open is one of the tokens, and what it says lacks a bracket is a function. -/
structure SyntaxFault.Concerns (stop : Offset) (tokens : List Token) (fault : SyntaxFault) :
    Prop where
  found : (∃ token ∈ tokens, fault.IsAt token) ∨ fault.IsAt ⟨.endOfInput, stop⟩
  opening : ∀ opened token, fault = .unbalancedParens opened token →
    (⟨.symbol .leftParen, opened⟩ : Token) ∈ tokens
  function : ∀ name token, fault = .expectedOpening name token →
    ∃ function : Function, name = function.name

/-- What was read is the front of the tokens, and a fault is one of them. -/
def Outcome.Traced (stop : Offset) (tokens : List Token) : Outcome → Prop
  | .ok (_, rest) => rest <:+ tokens
  | .error fault => fault.Concerns stop tokens

section
variable {stop : Offset} {tokens tokens' : List Token}

/-- A fault of some tokens is one of more tokens. -/
theorem SyntaxFault.Concerns.mono {fault : SyntaxFault} (h : fault.Concerns stop tokens)
    (more : tokens ⊆ tokens') : fault.Concerns stop tokens' where
  found := h.found.imp_left fun ⟨token, mem, found⟩ => ⟨token, more mem, found⟩
  opening opened token same := more (h.opening opened token same)
  function := h.function

/-- A fault of the current token behind some others is a fault of all of them. -/
theorem SyntaxFault.IsAt.concerns {fault : SyntaxFault} (h : fault.IsAt (current stop tokens))
    (behind : tokens <:+ tokens')
    (opening : ∀ opened token, fault = .unbalancedParens opened token →
      (⟨.symbol .leftParen, opened⟩ : Token) ∈ tokens')
    (function : ∀ name token, fault = .expectedOpening name token →
      ∃ function : Function, name = function.name) : fault.Concerns stop tokens' where
  found := by
    cases tokens with
    | nil => exact .inr h
    | cons token rest => exact .inl ⟨token, behind.subset List.mem_cons_self, h⟩
  opening := opening
  function := function

namespace Outcome.Traced

variable {outcome : Outcome}

/-- What is made of the tokens behind some others is made of all of them. -/
theorem mono (h : Traced stop tokens outcome) (behind : tokens <:+ tokens') :
    Traced stop tokens' outcome := by
  cases outcome with
  | ok reading => exact List.IsSuffix.trans h behind
  | error fault => exact SyntaxFault.Concerns.mono h behind.subset

/-- A second step is made behind the tokens that the first one took. -/
theorem bind {next : Expr × List Token → Outcome} (first : Traced stop tokens outcome)
    (second : ∀ tree rest, rest <:+ tokens → Traced stop tokens (next (tree, rest))) :
    Traced stop tokens (outcome.bind next) := by
  cases outcome with
  | ok reading => exact second reading.1 reading.2 first
  | error fault => exact first

/-- A node over the tree takes no tokens. -/
theorem under (h : Traced stop tokens outcome) (node : Expr → Expr) :
    Traced stop tokens (Reader.under node outcome) :=
  h.bind fun _ _ behind => behind

end Outcome.Traced

end

/-! ## Readers -/

namespace Reader

open Outcome (Traced)

/-- Whatever a reader takes is the front of the tokens, and its faults are of them. -/
def Traces (stop : Offset) (reader : Reader) : Prop :=
  ∀ tokens, Traced stop tokens (reader.run tokens)

section
variable {stop : Offset} {nested : Scope}

/-! ### Operands -/

/-- Behind an opening bracket faults are of the tokens that start with it. -/
theorem traced_enclosed {inside : Reader} (ih : Traces stop inside) (opened : Offset)
    (rest : List Token) : Traced stop (⟨.symbol .leftParen, opened⟩ :: rest)
      ((enclosed stop opened inside).run rest) := by
  rw [run_enclosed]
  refine ((ih rest).mono (List.suffix_cons _ rest)).bind fun tree left behind => ?_
  rcases closing_cases stop left with unclosed | ⟨closeOffset, more, rfl⟩
  · rw [closing_of_current unclosed]
    refine SyntaxFault.IsAt.concerns (.unbalancedParens opened _) behind ?_ nofun
    rintro _ _ ⟨⟩
    exact List.mem_cons_self
  · exact (List.suffix_cons _ more).trans behind

/-- Faults of primary expressions are of the first token or of the brackets. -/
theorem traces_primary (ih : Traces stop nested.expression) :
    Traces stop (primary stop nested) := by
  intro tokens
  rcases primary_cases stop tokens with refused | ⟨text, value, offset, rest, rfl⟩ |
    ⟨digits, id, offset, rest, named, rfl⟩ | ⟨openOffset, rest, rfl⟩
  · rw [run_primary_of_current refused]
    exact SyntaxFault.IsAt.concerns (.unexpectedToken _) (List.suffix_refl tokens) nofun nofun
  · exact List.suffix_cons _ rest
  · rw [run_primary_register named]
    exact List.suffix_cons _ rest
  · rw [run_primary_group]
    exact traced_enclosed ih openOffset rest

/-- Faults of calls are of the name, of what should be the opening bracket, or of the argument. -/
theorem traces_call (ih : Traces stop nested.expression) : Traces stop (call stop nested) := by
  intro tokens
  rcases call_cases stop tokens with notName | ⟨letters, nameOffset, rest, unknown, rfl⟩ |
    ⟨function, nameOffset, rest, rfl, unopened | ⟨openOffset, inside, rfl⟩⟩
  · rw [run_call_of_current notName]
    exact traces_primary ih tokens
  · rw [run_call_unknown unknown]
    exact ⟨.inl ⟨_, List.mem_cons_self, .unexpectedIdentifier letters nameOffset⟩, nofun, nofun⟩
  · rw [run_call_unopened unopened]
    refine SyntaxFault.IsAt.concerns (.expectedOpening _ _) (List.suffix_cons _ rest) nofun ?_
    rintro _ _ ⟨⟩
    exact ⟨function, rfl⟩
  · rw [run_call_name]
    exact ((traced_enclosed ih openOffset inside).mono (List.suffix_cons _ _)).under _

/-- Faults of operands are of the first token or of what stands behind a prefix operator. -/
theorem traces_unary (ih : Traces stop nested.expression) (ihOperand : Traces stop nested.operand) :
    Traces stop (unary stop nested) := by
  intro tokens
  rcases unary_cases stop tokens with notPrefix | ⟨op, offset, inside, rfl⟩
  · rw [run_unary_of_current notPrefix]
    exact traces_call ih tokens
  · rw [run_unary_prefixed]
    exact ((ihOperand inside).mono (List.suffix_cons _ inside)).under _

/-! ### Levels of binary operators -/

section
variable {level : List BinaryOp} {operand : Reader}

/-- Faults of a chain are of the operands that it goes on with. -/
theorem traced_goOn (ih : Traces stop operand) (left : Expr) (rest : List Token) :
    Traced stop rest (goOn level operand left rest) := by
  -- The tree that was read so far plays no part: the induction is on the tokens that are left.
  induction length : rest.length using Nat.strongRecOn generalizing left rest with
  | ind n further =>
    rcases goOn_cases stop level rest with ends | ⟨op, ofLevel, offset, after, rfl⟩
    · rw [goOn_of_current ends]
      exact List.suffix_refl rest
    · rw [goOn_of_some (Token.operator?_of_mem ofLevel offset)]
      refine ((ih after).bind fun right rest' behind => ?_).mono (List.suffix_cons _ after)
      have fewer : rest'.length < n := by
        have := behind.length_le
        rw [List.length_cons] at length
        omega
      exact (further _ fewer _ rest' rfl).mono behind

/-- Faults of a ladder are of its operands. -/
theorem traces_ladder (ih : Traces stop operand) (levels : List (List BinaryOp)) :
    Traces stop (ladder levels operand) := by
  induction levels with
  | nil => exact ih
  | cons level levels ihLevels =>
    intro tokens
    rw [ladder, run_leftAssociative]
    exact (ihLevels tokens).bind fun left rest behind =>
      (traced_goOn ihLevels left rest).mono behind

end

/-! ### Assignments and nested places -/

/-- Faults of assignments are of the register or of the assigned value. -/
theorem traces_assignment (ih : Traces stop nested.expression)
    (ihOperand : Traces stop nested.operand) : Traces stop (assignment stop nested) := by
  intro tokens
  rcases assignment_cases stop tokens with ⟨register, unreadable⟩ |
    ⟨digits, id, targetOffset, signOffset, rest, named, rfl⟩ | ⟨starts, -⟩
  · rw [run_assignment_of_current register unreadable]
    exact SyntaxFault.IsAt.concerns (.unexpectedToken _) (List.suffix_refl tokens) nofun nofun
  · rw [run_assignment_assign named]
    refine ((ih rest).mono ?_).under _
    exact (List.suffix_cons _ rest).trans (List.suffix_cons _ _)
  · rw [run_assignment_of_not starts]
    exact traces_ladder (traces_unary ih ihOperand) BinaryOp.levels tokens

/-- Faults of nested places are of their tokens, those of nesting of the first one. -/
theorem traces_nested (stop : Offset) (limit budget : Nat) :
    Traces stop (Scope.nested stop limit budget).expression ∧
      Traces stop (Scope.nested stop limit budget).operand := by
  induction budget with
  | zero =>
    have tooDeep : Traces stop (Reader.tooDeep stop limit) := fun tokens =>
      SyntaxFault.IsAt.concerns (.nestingTooDeep limit _) (List.suffix_refl tokens) nofun nofun
    exact ⟨tooDeep, tooDeep⟩
  | succ budget ih =>
    rw [Scope.nested, Scope.within_eq_around]
    exact ⟨traces_assignment ih.1 ih.2, traces_unary ih.1 ih.2⟩

end

end Reader

/-! ## Statements -/

/-- The fault for which the tokens of a text are no statement is one of them or of the end of the
input. -/
theorem Expr.concerns_of_ofTokens {body : List Token} {last : Offset} {fault : SyntaxFault}
    (noEnd : ∀ token ∈ body, token.isEnd = false)
    (refused : Expr.ofTokens (body ++ [⟨.endOfInput, last⟩]) = .error fault) :
    fault.Concerns last body := by
  rw [Expr.ofTokens, Expr.ofTokensWithin_append_end noEnd] at refused
  obtain ⟨ih, ihOperand⟩ := traces_nested last maxNesting maxNesting
  have traced : Outcome.Traced last body
      ((Category.reader last (.nested last maxNesting maxNesting) .assignment).run body) :=
    traces_assignment ih ihOperand body
  cases read : (Category.reader last (.nested last maxNesting maxNesting) .assignment).run body with
  | error fault' =>
    rw [read] at refused traced
    obtain rfl : fault' = fault := Except.error.inj refused
    exact traced
  | ok reading =>
    obtain ⟨tree, rest⟩ := reading
    rw [read] at refused traced
    cases rest with
    | nil => cases refused
    | cons token more =>
      obtain rfl : .unexpectedToken token = fault := Except.error.inj refused
      exact ⟨.inl ⟨token, traced.subset List.mem_cons_self, .unexpectedToken token⟩, nofun, nofun⟩

end RegisterCalc
