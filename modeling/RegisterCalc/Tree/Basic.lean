import RegisterCalc.Token.Basic
import RegisterCalc.Tree.Operator

/-!
# Expressions

The tree of a statement. Every node keeps the position that it is reported at; brackets leave no
node. A tree may be built by hand, so a call may name what is no function and a number may be any.
-/

namespace RegisterCalc

/-- The tree of an expression; a node's last argument is its position. -/
inductive Expr where
  | number (value : Float) (offset : Offset)
  | register (id : RegisterId) (offset : Offset)
  | unary (op : PrefixOp) (operand : Expr) (offset : Offset)
  | binary (op : BinaryOp) (left right : Expr) (offset : Offset)
  | call (name : String) (argument : Expr) (offset : Offset)
  | assign (target : RegisterId) (value : Expr) (offset : Offset)
  deriving DecidableEq, Repr

namespace Expr

/-- The position of the root. -/
def offset : Expr → Offset
  | number _ offset | register _ offset | unary _ _ offset | binary _ _ _ offset
  | call _ _ offset | assign _ _ offset => offset

/-- The value of a tree that is a number and nothing else. -/
def literal? : Expr → Option Float
  | number value _ => some value
  | _ => none

/-- The register that the root assigns. -/
def target? : Expr → Option RegisterId
  | assign target _ _ => some target
  | _ => none

/-- The parts of the root, from left to right. -/
def children : Expr → List Expr
  | number _ _ | register _ _ => []
  | unary _ operand _ => [operand]
  | binary _ left right _ => [left, right]
  | call _ argument _ => [argument]
  | assign _ value _ => [value]

/-- Whether two trees agree node by node, positions included, with numbers compared as numbers:
zero agrees with negative zero, and what is not a number agrees with nothing. -/
def agrees : Expr → Expr → Bool
  | number x p, number y q => x == y && p == q
  | register i p, register j q => i == j && p == q
  | unary o a p, unary o' a' q => o == o' && a.agrees a' && p == q
  | binary o a b p, binary o' a' b' q => o == o' && a.agrees a' && b.agrees b' && p == q
  | call f a p, call g a' q => f == g && a.agrees a' && p == q
  | assign i a p, assign j a' q => i == j && a.agrees a' && p == q
  | _, _ => false

end Expr

end RegisterCalc
