import RegisterCalc.Number.Shortest
import RegisterCalc.Terminal.Palette
import RegisterCalc.Tree.Basic

/-!
# Outlines

The outline of a tree has a line for each node, parents first. A line starts with guides, three
characters for each level: a bar below an ancestor that has a later sibling, and at last a branch,
which is a corner if the node is its parent's last.
-/

namespace RegisterCalc

namespace Outline

/-- The guides right before a node. -/
def branch (last : Bool) : String := if last then "└─ " else "├─ "

/-- The guides below a node, for the lines of its parts. -/
def indent (last : Bool) : String := if last then "   " else "│  "

end Outline

/-- What a node is, in colour. -/
def Expr.label (coloured : Bool) : Expr → String
  | number value _ => paint coloured .number (numberText value)
  | register id _ => paint coloured .register id.text
  | unary op _ _ => paint coloured .operator ("Unary(" ++ op.text ++ ")")
  | binary op _ _ _ => paint coloured .operator ("Binary(" ++ op.text ++ ")")
  | call name _ _ => paint coloured .function ("Func(" ++ name ++ ")")
  | assign target _ _ => paint coloured .assign ("Assign(" ++ target.text ++ ")")

/-- The lines of a tree whose ancestors leave `guides`. -/
def Expr.outlineBelow (coloured : Bool) (guides : String) (last : Bool) (tree : Expr) : String :=
  let line := paint coloured .guide (guides ++ Outline.branch last) ++ tree.label coloured ++ "\n"
  let below := guides ++ Outline.indent last
  match tree with
  | number _ _ | register _ _ => line
  | unary _ operand _ => line ++ operand.outlineBelow coloured below true
  | binary _ left right _ =>
    line ++ left.outlineBelow coloured below false ++ right.outlineBelow coloured below true
  | call _ argument _ => line ++ argument.outlineBelow coloured below true
  | assign _ value _ => line ++ value.outlineBelow coloured below true

/-- The outline of a tree; each line is ended. -/
def Expr.outline (coloured : Bool) (tree : Expr) : String := tree.outlineBelow coloured "" true

end RegisterCalc
