/-!
# Colours

What is shown has a role, and each role has a colour. Colours are decoration: without them the text
is the same (`paint_false`).
-/

namespace RegisterCalc

/-- What a piece of shown text is. -/
inductive Role where
  | number | register | operator | function | assign
  | guide | success | error | heading
  deriving DecidableEq, Repr

/-- A colour by its parts of red, green and blue. -/
structure Colour where
  red : Nat
  green : Nat
  blue : Nat
  deriving DecidableEq, Repr

/-- The colour of a role. -/
def Role.colour : Role → Colour
  | number => ⟨250, 179, 135⟩
  | register => ⟨148, 226, 213⟩
  | operator => ⟨137, 180, 250⟩
  | function => ⟨249, 226, 175⟩
  | assign => ⟨245, 194, 231⟩
  | guide => ⟨108, 112, 134⟩
  | success => ⟨166, 227, 161⟩
  | error => ⟨243, 139, 168⟩
  | heading => ⟨205, 214, 244⟩

/-- The control sequence that starts a foreground colour. -/
def Colour.start (colour : Colour) : String :=
  "\x1b[38;2;" ++ Nat.repr colour.red ++ ";" ++ Nat.repr colour.green ++ ";"
    ++ Nat.repr colour.blue ++ "m"

/-- The control sequence that ends a foreground colour. -/
def colourEnd : String := "\x1b[39m"

/-- A text in the colour of its role, if there are colours. -/
def paint (coloured : Bool) (role : Role) (text : String) : String :=
  if coloured then role.colour.start ++ text ++ colourEnd else text

/-- Without colours a text stays as it is. -/
@[simp] theorem paint_false (role : Role) (text : String) : paint false role text = text := rfl

end RegisterCalc
