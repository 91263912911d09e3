import RegisterCalc.Statement
import RegisterCalc.Terminal.Palette

/-!
# Reports of rejections

A report repeats the rejected line and puts a caret under the position at fault. Tabs before it are
kept, so that the caret stays under its character.
-/

namespace RegisterCalc

/-- A caret under the position `offset` of a line, or after the end of a shorter one. -/
def caretLine (line : String) (offset : Offset) : String :=
  String.ofList ((line.toList.take offset).map fun c => if c = '\t' then '\t' else ' ') ++ "^"

/-- The message, the line and the caret, each ended. -/
def Rejection.report (coloured : Bool) (rejection : Rejection) (line : String) : String :=
  paint coloured .error "Error:" ++ " " ++ rejection.message ++ "\n"
    ++ line ++ "\n"
    ++ paint coloured .error (caretLine line rejection.offset) ++ "\n"

end RegisterCalc
