/-!
# Settings of a session
-/

namespace RegisterCalc

/-- What a session shows. -/
structure Config where
  /-- Show the tree of each accepted statement. -/
  showTree : Bool
  /-- Fold constants before evaluation, and show the folded tree. -/
  showFolded : Bool
  /-- Show everything in colour. -/
  coloured : Bool
  /-- What is shown before a line is read. -/
  prompt : String
  deriving DecidableEq, Repr

/-- Trees are shown as they were read, without colours. -/
def Config.standard : Config := ⟨true, false, false, "expr> "⟩

end RegisterCalc
