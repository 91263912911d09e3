import RegisterCalc.Text.Position

/-!
# Why an expression has no value

An expression read from a text can fail only by a division; a call of what is no function can stand
in a tree that was built by hand.
-/

namespace RegisterCalc

/-- Why the evaluation of an expression stops. -/
inductive RuntimeFault where
  | divisionByZero (offset : Offset)
  | unknownFunction (name : String) (offset : Offset)
  deriving DecidableEq, Repr

namespace RuntimeFault

/-- The node that fails. -/
def offset : RuntimeFault → Offset
  | divisionByZero offset | unknownFunction _ offset => offset

/-- The fault in words. -/
def message : RuntimeFault → String
  | divisionByZero offset => "division by zero at " ++ columnText offset
  | unknownFunction name offset => "unknown function '" ++ name ++ "' at " ++ columnText offset

end RuntimeFault

end RegisterCalc
