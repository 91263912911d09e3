import RegisterCalc.Token.Basic

/-!
# Why tokens make no statement

The causes for which a list of tokens is refused, each with what is needed to report it.
-/

namespace RegisterCalc

/-- Why a list of tokens is no statement. -/
inductive SyntaxFault where
  /-- A token that cannot stand where it does. -/
  | unexpectedToken (found : Token)
  /-- A name that is not a function's. -/
  | unexpectedIdentifier (name : String) (offset : Offset)
  /-- A function without an opening bracket. -/
  | expectedOpening (name : String) (found : Token)
  /-- An opening bracket without its closing one. -/
  | unbalancedParens (opened : Offset) (found : Token)
  /-- An operand that would be nested more than `limit` levels deep. -/
  | nestingTooDeep (limit : Nat) (offset : Offset)
  deriving DecidableEq, Repr

namespace SyntaxFault

/-- Where a statement is refused. -/
def offset : SyntaxFault → Offset
  | unexpectedToken found | expectedOpening _ found | unbalancedParens _ found => found.offset
  | unexpectedIdentifier _ offset | nestingTooDeep _ offset => offset

/-- The fault in words. -/
def message : SyntaxFault → String
  | unexpectedToken found =>
    "unexpected " ++ found.describe ++ " at " ++ columnText found.offset
  | unexpectedIdentifier name offset =>
    "unexpected identifier '" ++ name ++ "' at " ++ columnText offset
  | expectedOpening name found =>
    "expected '(' after '" ++ name ++ "', found " ++ found.describe ++ " at "
      ++ columnText found.offset
  | unbalancedParens opened found =>
    "expected ')' to close '(' from " ++ columnText opened ++ ", found " ++ found.describe ++ " at "
      ++ columnText found.offset
  | nestingTooDeep limit offset =>
    "expression nested deeper than " ++ Nat.repr limit ++ " levels at " ++ columnText offset

end SyntaxFault

end RegisterCalc
