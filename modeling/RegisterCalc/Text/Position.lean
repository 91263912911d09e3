/-!
# Positions in a line

A position is the number of characters before it. Readers are shown columns, which count from one.
-/

namespace RegisterCalc

/-- The number of characters before a position. -/
abbrev Offset := Nat

/-- A position as a reader is shown it. -/
def columnText (offset : Offset) : String := "column " ++ Nat.repr (offset + 1)

end RegisterCalc
