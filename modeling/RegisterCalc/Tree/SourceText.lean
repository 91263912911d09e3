import RegisterCalc.Number.Shortest
import RegisterCalc.Tree.Basic

/-!
# Trees as source text

`Expr.text` writes a tree as a statement. Each compound is in brackets, so the text is read back as
the same tree; a number that no numeral denotes is written as an expression that has its value.
-/

namespace RegisterCalc

/-- A number as a literal, or as an expression of the same value: a negation for one below zero, a
call that exceeds every double for infinity, zero times that for what is not a number. -/
def literalText (x : Float) : String :=
  let n := Binary64.point x
  let beyond := "exp(1000)"
  if Binary64.infinity < n then "(0 * " ++ beyond ++ ")"
  else if n = Binary64.infinity then
    if Binary64.isNegative x then "(-" ++ beyond ++ ")" else beyond
  else if Binary64.isNegative x then "(" ++ numberText x ++ ")"
  else numberText x

/-- A tree as source text. -/
def Expr.text : Expr → String
  | number value _ => literalText value
  | register id _ => id.text
  | unary op operand _ => "(" ++ op.text ++ operand.text ++ ")"
  | binary op left right _ => "(" ++ left.text ++ " " ++ op.text ++ " " ++ right.text ++ ")"
  | call name argument _ => name ++ "(" ++ argument.text ++ ")"
  | assign target value _ => "(" ++ target.text ++ " = " ++ value.text ++ ")"

end RegisterCalc
