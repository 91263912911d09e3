import RegisterCalc.Tree.Reader

/-!
# Statements from tokens

A nested place is read as the place around it is, with one level of nesting less to spend
(`Scope.within`); where none is left every list is refused. `Expr.ofTokens` reads the tokens before
the first end of the input, all of them, as one expression.
-/

namespace RegisterCalc

/-- Refuses every list, since what it starts would be nested more than `limit` levels deep. -/
def Reader.tooDeep (stop : Offset) (limit : Nat) : Reader := fun tokens =>
  .error (.nestingTooDeep limit (Reader.current stop tokens).offset)

namespace Scope

/-- The readers of a place around nested places with the given readers. -/
def around (stop : Offset) (nested : Scope) : Scope :=
  ⟨Reader.assignment stop nested, Reader.unary stop nested⟩

/-- The readers where `budget` further levels of nesting are allowed. -/
def within (stop : Offset) (limit : Nat) : (budget : Nat) → Scope
  | 0 => around stop ⟨Reader.tooDeep stop limit, Reader.tooDeep stop limit⟩
  | budget + 1 => around stop (within stop limit budget)

end Scope

/-- How many levels deep prefix operands, brackets, arguments and assigned values may be nested. -/
def maxNesting : Nat := 128

/-- Where the first end of the input stands; a list without one ends after its last token. -/
def endOffset (tokens : List Token) : Offset :=
  match tokens.find? Token.isEnd with
  | some token => token.offset
  | none =>
    match tokens.getLast? with
    | some token => token.offset + 1
    | none => 0

/-- The tree of the tokens before the first end of the input, nested at most `limit` levels deep. -/
def Expr.ofTokensWithin (limit : Nat) (tokens : List Token) : Except SyntaxFault Expr :=
  let reader := (Scope.within (endOffset tokens) limit limit).expression
  match reader (tokens.takeWhile (!·.isEnd)) with
  | .error fault => .error fault
  | .ok ⟨tree, [], _⟩ => .ok tree
  | .ok ⟨_, token :: _, _⟩ => .error (.unexpectedToken token)

/-- The tree of a statement. -/
def Expr.ofTokens (tokens : List Token) : Except SyntaxFault Expr :=
  Expr.ofTokensWithin maxNesting tokens

end RegisterCalc
