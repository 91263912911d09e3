import RegisterCalc.Token.Symbol

/-!
# Operators

The operators of an expression, each with the symbol that it is written as. Reading a symbol back
gives the operator (`PrefixOp.ofSymbol?_symbol`); a minus sign is an operator of either kind.
-/

namespace RegisterCalc

/-- An operator before its operand. -/
inductive PrefixOp where
  | negate | not | complement
  deriving DecidableEq, Repr

/-- An operator between its operands. -/
inductive BinaryOp where
  | add | sub | mul | div
  | equal | notEqual | less | lessEqual | greater | greaterEqual
  | and | or
  | bitAnd | bitOr | bitXor | shiftLeft | shiftRight
  deriving DecidableEq, Repr

namespace PrefixOp

/-- The symbol of a prefix operator. -/
def symbol : PrefixOp → Symbol
  | negate => .minus
  | not => .bang
  | complement => .tilde

/-- The prefix operator that a symbol stands for, if any. -/
def ofSymbol? (symbol : Symbol) : Option PrefixOp :=
  [negate, not, complement].find? (·.symbol = symbol)

/-- A prefix operator is read back from its symbol. -/
theorem ofSymbol?_symbol (op : PrefixOp) : ofSymbol? op.symbol = some op := by
  cases op <;> rfl

/-- A prefix operator as it is written. -/
def text (op : PrefixOp) : String := op.symbol.spelling

end PrefixOp

namespace BinaryOp

/-- The symbol of a binary operator. -/
def symbol : BinaryOp → Symbol
  | add => .plus
  | sub => .minus
  | mul => .star
  | div => .slash
  | equal => .equal
  | notEqual => .notEqual
  | less => .less
  | lessEqual => .lessEqual
  | greater => .greater
  | greaterEqual => .greaterEqual
  | and => .andAnd
  | or => .orOr
  | bitAnd => .ampersand
  | bitOr => .bar
  | bitXor => .caret
  | shiftLeft => .shiftLeft
  | shiftRight => .shiftRight

/-- The levels of the binary operators, from the loosest to the tightest. -/
def levels : List (List BinaryOp) :=
  [[.or], [.and], [.bitOr], [.bitXor], [.bitAnd], [.equal, .notEqual],
    [.less, .lessEqual, .greater, .greaterEqual], [.shiftLeft, .shiftRight], [.add, .sub],
    [.mul, .div]]

/-- A binary operator as it is written. -/
def text (op : BinaryOp) : String := op.symbol.spelling

end BinaryOp

end RegisterCalc
