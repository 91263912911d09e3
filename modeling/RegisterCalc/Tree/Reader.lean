import RegisterCalc.Tree.Basic
import RegisterCalc.Tree.Fault
import RegisterCalc.Tree.Function

/-!
# Readers

A reader takes a tree off the front of a list of tokens and leaves a shorter list. The levels of the
language are readers, each built from the next tighter one: assignments, the ten levels of binary
operators (`Reader.ladder`), prefix operators, calls, and single operands. What prefix operators,
brackets, calls and assignments hold is *nested*; its readers are given as a `Scope`, so no level
refers to a looser one, and a chain of operators ends because its tokens get fewer.
-/

namespace RegisterCalc

/-- What a reader took off the front of `tokens`. -/
structure Reading (tokens : List Token) where
  tree : Expr
  rest : List Token
  shorter : rest.length < tokens.length

/-- Puts a node over the tree that was read. -/
def Reading.under {tokens : List Token} (node : Expr → Expr) (inner : Reading tokens) :
    Reading tokens :=
  ⟨node inner.tree, inner.rest, inner.shorter⟩

/-- What was read after a first token, as read from that token on. -/
def Reading.behind (token : Token) {tokens : List Token} (inner : Reading tokens) :
    Reading (token :: tokens) :=
  ⟨inner.tree, inner.rest, by have := inner.shorter; simp; omega⟩

/-- Takes a tree off the front of a list of tokens. -/
abbrev Reader := (tokens : List Token) → Except SyntaxFault (Reading tokens)

/-- The operator of a level that a token stands for. -/
def Token.operator? (token : Token) (level : List BinaryOp) : Option BinaryOp :=
  level.find? fun op => token.symbol? = some op.symbol

/-- The readers of nested places: what may stand in brackets, and what a prefix operator takes. -/
structure Scope where
  expression : Reader
  operand : Reader

namespace Reader

/-- The first of the tokens that are left, the end of the input at `stop` if none are. -/
def current (stop : Offset) : List Token → Token
  | [] => ⟨.endOfInput, stop⟩
  | token :: _ => token

/-! ## Binary operators -/

/-- Goes on from a left operand as long as an operator of the level follows. -/
def chain (level : List BinaryOp) (operand : Reader) {tokens : List Token}
    (left : Reading tokens) : Except SyntaxFault (Reading tokens) :=
  match h : left.rest with
  | [] => .ok left
  | token :: after =>
    match token.operator? level with
    | none => .ok left
    | some op =>
      match operand after with
      | .error fault => .error fault
      | .ok right =>
        chain level operand
          { tree := .binary op left.tree right.tree token.offset
            rest := right.rest
            shorter := by
              have := left.shorter; have := right.shorter; rw [h] at *; simp at *; omega }
termination_by left.rest.length
decreasing_by
  have := right.shorter
  rw [h]
  simp
  omega

/-- A level of operators that group to the left. -/
def leftAssociative (level : List BinaryOp) (operand : Reader) : Reader := fun tokens =>
  match operand tokens with
  | .error fault => .error fault
  | .ok left => chain level operand left

/-- The reader of the loosest of the given levels, over the reader of operands. -/
def ladder : (levels : List (List BinaryOp)) → (operand : Reader) → Reader
  | [], operand => operand
  | level :: tighter, operand => leftAssociative level (ladder tighter operand)

/-! ## Operands -/

/-- Reads what stands inside the bracket opened at `opened`, and the closing bracket. -/
def enclosed (stop opened : Offset) (inside : Reader) : Reader := fun tokens =>
  match inside tokens with
  | .error fault => .error fault
  | .ok inner =>
    match h : inner.rest with
    | [] => .error (.unbalancedParens opened (current stop []))
    | token :: after =>
      if token.symbol? = some .rightParen then
        .ok ⟨inner.tree, after, by have := inner.shorter; rw [h] at this; simp at this; omega⟩
      else
        .error (.unbalancedParens opened token)

/-- A number, a register or an expression in brackets. -/
def primary (stop : Offset) (nested : Scope) : Reader
  | [] => .error (.unexpectedToken (current stop []))
  | token :: rest =>
    match token.lexeme with
    | .number _ (some value) => .ok ⟨.number value token.offset, rest, by simp⟩
    | .register _ =>
      match token.lexeme.registerId? with
      | some id => .ok ⟨.register id token.offset, rest, by simp⟩
      | none => .error (.unexpectedToken token)
    | .symbol .leftParen => (enclosed stop token.offset nested.expression rest).map (.behind token)
    | _ => .error (.unexpectedToken token)

/-- A call, or a primary expression. -/
def call (stop : Offset) (nested : Scope) : Reader
  | [] => primary stop nested []
  | token :: rest =>
    match token.lexeme with
    | .name letters =>
      let name := letters.getD ""
      if !Function.isCallable name then .error (.unexpectedIdentifier name token.offset)
      else
        match rest with
        | [] => .error (.expectedOpening name (current stop []))
        | opening :: inside =>
          if opening.symbol? = some .leftParen then
            (enclosed stop opening.offset nested.expression inside).map fun argument =>
              ((argument.under (.call name · token.offset)).behind opening).behind token
          else
            .error (.expectedOpening name opening)
    | _ => primary stop nested (token :: rest)

/-- Prefix operators before an operand. -/
def unary (stop : Offset) (nested : Scope) : Reader
  | [] => call stop nested []
  | token :: rest =>
    match token.symbol?.bind PrefixOp.ofSymbol? with
    | some op => (nested.operand rest).map fun operand =>
        (operand.under (.unary op · token.offset)).behind token
    | none => call stop nested (token :: rest)

/-- An assignment, which a register directly before an assignment sign starts, or an expression of
the loosest level. -/
def assignment (stop : Offset) (nested : Scope) : Reader
  | target :: sign :: rest =>
    if target.isRegister ∧ sign.symbol? = some .assign then
      match target.lexeme.registerId? with
      | some id => (nested.expression rest).map fun value =>
          ((value.under (.assign id · sign.offset)).behind sign).behind target
      | none => .error (.unexpectedToken target)
    else
      ladder BinaryOp.levels (unary stop nested) (target :: sign :: rest)
  | tokens => ladder BinaryOp.levels (unary stop nested) tokens

end Reader

end RegisterCalc
