import Mathlib.Logic.Relation
import RegisterCalc.Tree.Nesting

/-!
# The descent through the rules

Reading a statement as a machine does it that has a place in a list of tokens, a count of the levels
of nesting that it is in, and a stack of calls. Each of the fifteen rules of the grammar
(`Rule`) is called for an expression of its kind; a call looks at the current token, steps behind
tokens, and has its parts read by calls of other rules, for which it waits on the stack (`Frame`).

The list is any list. It is given an end if its last token is none (`withEnd`), and nothing else is
known of it, so the machine can fail in two ways that no reader can: it can look at a place that the
list does not have, and it can leave a level of nesting that it is not in. Either is a crash
(`Progress.crashed`). What is proved of its runs is in the modules beside this one.
-/

namespace RegisterCalc.Descent

/-- What is made of an expression. -/
abbrev Result := Except SyntaxFault Expr

/-! ## Calls -/

/-- The rules that read an expression, from the loosest to the tightest. -/
inductive Rule where
  | expression
  | assignment
  | level (index : Fin BinaryOp.levels.length)
  | unary
  | call
  | primary
  deriving DecidableEq

namespace Rule

/-- The rule for the binary operators from a level on: prefix operators behind the last level. -/
def fromLevel (index : Nat) : Rule :=
  if h : index < BinaryOp.levels.length then .level ⟨index, h⟩ else .unary

/-- How many rules are looser. -/
def rank : Rule → Nat
  | expression => 0
  | assignment => 1
  | level index => index + 2
  | unary => 12
  | call => 13
  | primary => 14

end Rule

/-- A call that waits for a part of its expression. The first six wait for a tighter rule at the
same level of nesting, the others for a nested place. -/
inductive Frame where
  | expression
  | loosest
  | left (index : Fin BinaryOp.levels.length)
  | right (index : Fin BinaryOp.levels.length) (op : BinaryOp) (left : Expr) (offset : Offset)
  | unprefixed
  | uncalled
  | assigned (target : RegisterId) (offset : Offset)
  | prefixed (op : PrefixOp) (offset : Offset)
  | argument (name : String) (offset opened : Offset)
  | group (opened : Offset)
  deriving DecidableEq

namespace Frame

/-- The rule whose call waits. -/
def rule : Frame → Rule
  | expression => .expression
  | loosest | assigned _ _ => .assignment
  | left index | right index _ _ _ => .level index
  | unprefixed | prefixed _ _ => .unary
  | uncalled | argument _ _ _ => .call
  | group _ => .primary

/-- The rule that is waited for. -/
def callee : Frame → Rule
  | expression | assigned _ _ => .assignment
  | loosest => .fromLevel 0
  | left index | right index _ _ _ => .fromLevel (index + 1)
  | unprefixed => .call
  | uncalled => .primary
  | prefixed _ _ => .unary
  | argument _ _ _ | group _ => .expression

/-- Whether the part stands in a nested place. -/
def isNested : Frame → Bool
  | assigned _ _ | prefixed _ _ | argument _ _ _ | group _ => true
  | _ => false

end Frame

/-! ## Looking at tokens -/

/-- A place in the tokens and the levels of nesting that it is in. -/
structure Cursor where
  position : Nat
  depth : Nat
  deriving DecidableEq

/-- Looks at tokens from a cursor, which it may move, or crashes. -/
abbrev Scan := StateT Cursor Option

section
variable (tokens : List Token)

/-- The current token, the last one behind the end of the list. -/
def peek : Scan Token := fun cursor =>
  tokens[min cursor.position (tokens.length - 1)]?.map (·, cursor)

/-- The token behind the current one, if there is one. -/
def peekAhead : Scan (Option Token) := fun cursor => some (tokens[cursor.position + 1]?, cursor)

/-- The token before the current one, the first one at the start of the list. -/
def previous : Scan Token := fun cursor => tokens[cursor.position - 1]?.map (·, cursor)

/-- Steps behind the current token, if it is not the end of the input. -/
def advance : Scan Token := do
  let token ← peek tokens
  if token.isEnd then
    previous tokens
  else
    modify fun cursor => { cursor with position := cursor.position + 1 }
    previous tokens

/-- Steps behind the current token if it is wanted. -/
def accept {α : Type} (wanted : Token → Option α) : Scan (Option (α × Offset)) := do
  let token ← peek tokens
  match wanted token with
  | none => return none
  | some what =>
    let taken ← advance tokens
    return some (what, taken.offset)

/-- Steps behind a symbol if it is current. -/
def acceptSymbol (symbol : Symbol) : Scan (Option Offset) := do
  let accepted ← accept tokens fun token => token.symbol?.filter (· = symbol)
  return accepted.map (·.2)

/-! ## Rules -/

/-- What a call does next: it waits for a part, or returns. -/
inductive Next where
  | waits (frame : Frame)
  | returns (result : Result)

/-- Waits for a nested place, if one more level of nesting is allowed. -/
def nested (frame : Frame) : Scan Next := do
  let cursor ← get
  if maxNesting ≤ cursor.depth then
    let token ← peek tokens
    return .returns (.error (.nestingTooDeep maxNesting token.offset))
  else
    set { cursor with depth := cursor.depth + 1 }
    return .waits frame

/-- Leaves a nested place. -/
def leave : Scan Unit := fun cursor =>
  match cursor.depth with
  | 0 => none
  | depth + 1 => some ((), { cursor with depth })

/-- An assignment, which a register directly before an assignment sign starts, or an expression of
the loosest level. -/
def assignment : Scan Next := do
  let token ← peek tokens
  let following ← peekAhead tokens
  if token.isRegister ∧ following.bind Token.symbol? = some .assign then
    let target ← advance tokens
    match target.lexeme.registerId? with
    | none => return .returns (.error (.unexpectedToken target))
    | some id =>
      let sign ← peek tokens
      let _ ← advance tokens
      nested tokens (.assigned id sign.offset)
  else
    return .waits .loosest

/-- Goes on from a left operand if an operator of the level follows. -/
def chain (index : Fin BinaryOp.levels.length) (left : Expr) : Scan Next := do
  match ← accept tokens (·.operator? (BinaryOp.levels.get index)) with
  | none => return .returns (.ok left)
  | some (op, offset) => return .waits (.right index op left offset)

/-- Prefix operators before an operand. -/
def unary : Scan Next := do
  match ← accept tokens fun token => token.symbol?.bind PrefixOp.ofSymbol? with
  | none => return .waits .unprefixed
  | some (op, offset) => nested tokens (.prefixed op offset)

/-- A call, or a primary expression. -/
def call : Scan Next := do
  let token ← peek tokens
  match token.lexeme with
  | .name letters =>
    let _ ← advance tokens
    let name := letters.getD ""
    if !Function.isCallable name then
      return .returns (.error (.unexpectedIdentifier name token.offset))
    else
      match ← acceptSymbol tokens .leftParen with
      | none => return .returns (.error (.expectedOpening name (← peek tokens)))
      | some opened => nested tokens (.argument name token.offset opened)
  | _ => return .waits .uncalled

/-- A number, a register or an expression in brackets. -/
def primary : Scan Next := do
  let token ← peek tokens
  match token.lexeme with
  | .number _ value =>
    let _ ← advance tokens
    match value with
    | none => return .returns (.error (.unexpectedToken token))
    | some value => return .returns (.ok (.number value token.offset))
  | .register _ =>
    let _ ← advance tokens
    match token.lexeme.registerId? with
    | none => return .returns (.error (.unexpectedToken token))
    | some id => return .returns (.ok (.register id token.offset))
  | .symbol .leftParen =>
    let _ ← advance tokens
    nested tokens (.group token.offset)
  | _ => return .returns (.error (.unexpectedToken token))

/-- Steps behind the bracket that closes the one at `opened`. -/
def closing (opened : Offset) (node : Expr) : Scan Next := do
  match ← acceptSymbol tokens .rightParen with
  | none => return .returns (.error (.unbalancedParens opened (← peek tokens)))
  | some _ => return .returns (.ok node)

/-- What a call does first. -/
def begin : Rule → Scan Next
  | .expression => return .waits .expression
  | .assignment => assignment tokens
  | .level index => return .waits (.left index)
  | .unary => unary tokens
  | .call => call tokens
  | .primary => primary tokens

/-- What a call does with the part that it waited for. -/
def proceed : Frame → Result → Scan Next
  | _, .error fault => return .returns (.error fault)
  | .expression, .ok tree | .loosest, .ok tree | .unprefixed, .ok tree | .uncalled, .ok tree =>
    return .returns (.ok tree)
  | .left index, .ok left => chain tokens index left
  | .right index op left offset, .ok right => chain tokens index (.binary op left right offset)
  | .assigned target offset, .ok value => return .returns (.ok (.assign target value offset))
  | .prefixed op offset, .ok operand => return .returns (.ok (.unary op operand offset))
  | .argument name offset opened, .ok argument =>
    closing tokens opened (.call name argument offset)
  | .group opened, .ok tree => closing tokens opened tree

/-- What a call does when the part that it waited for is there: a nested place is left first. -/
def resume (frame : Frame) (result : Result) : Scan Next := do
  if frame.isNested then
    leave
    proceed tokens frame result
  else
    proceed tokens frame result

/-- What is made of a whole statement: no token may follow. -/
def conclude : Result → Scan Result
  | .error fault => return .error fault
  | .ok tree => do
    let token ← peek tokens
    if token.isEnd then
      return .ok tree
    else
      return .error (.unexpectedToken token)

end

/-! ## Runs -/

/-- Whether the call on top is about to begin or to return. -/
inductive Control where
  | entering (rule : Rule)
  | returning (rule : Rule) (result : Result)

/-- The rule of the call on top. -/
def Control.rule : Control → Rule
  | entering rule | returning rule _ => rule

/-- A machine: its cursor, the call on top, and the calls that wait, the last one first. -/
structure Machine where
  cursor : Cursor
  control : Control
  frames : List Frame

/-- What becomes of a machine in one step. -/
inductive Progress where
  | running (machine : Machine)
  | finished (result : Result)
  /-- There is no such token, or no level of nesting to leave. -/
  | crashed

namespace Machine

/-- A machine before its first step. -/
def start : Machine := ⟨⟨0, 0⟩, .entering .expression, []⟩

/-- How many calls are active: those that wait and the one on top. -/
def active (machine : Machine) : Nat := machine.frames.length + 1

/-- A call of a rule above others, after what it did next. -/
def after (rule : Rule) (frames : List Frame) : Option (Next × Cursor) → Progress
  | none => .crashed
  | some (.waits frame, cursor) => .running ⟨cursor, .entering frame.callee, frame :: frames⟩
  | some (.returns result, cursor) => .running ⟨cursor, .returning rule result, frames⟩

/-- One step: the call on top begins, or the one below it goes on with what it returns. -/
def step (tokens : List Token) : Machine → Progress
  | ⟨cursor, .entering rule, frames⟩ => after rule frames (begin tokens rule cursor)
  | ⟨cursor, .returning _ result, frame :: frames⟩ =>
    after frame.rule frames (resume tokens frame result cursor)
  | ⟨cursor, .returning _ result, []⟩ =>
    match conclude tokens result cursor with
    | none => .crashed
    | some (result, _) => .finished result

/-- One step leads from a machine to another. -/
def Steps (tokens : List Token) (machine machine' : Machine) : Prop :=
  machine.step tokens = .running machine'

/-- Some steps lead from a machine to another. -/
def Reaches (tokens : List Token) : Machine → Machine → Prop :=
  Relation.ReflTransGen (Steps tokens)

/-- The call above some others has not returned. -/
def IsAbove (frames : List Frame) (machine : Machine) : Prop :=
  frames <:+ machine.frames ∧
    (machine.frames = frames → ∃ rule, machine.control = .entering rule)

/-- Some steps of the call above others, before it returns, lead from a machine to another. -/
def Carries (tokens : List Token) (frames : List Frame) : Machine → Machine → Prop :=
  Relation.ReflTransGen fun machine machine' =>
    Steps tokens machine machine' ∧ machine.IsAbove frames

end Machine

/-! ## The end of the tokens -/

/-- Tokens with an end of the input behind them, unless the last one is an end. -/
def withEnd (tokens : List Token) : List Token :=
  if tokens.getLast?.any Token.isEnd then tokens
  else tokens ++ [⟨.endOfInput, (tokens.getLast?.map (·.offset + 1)).getD 0⟩]

/-- The place of the first end of the input. -/
def firstEnd (tokens : List Token) : Nat := (withEnd tokens).findIdx Token.isEnd

end RegisterCalc.Descent
