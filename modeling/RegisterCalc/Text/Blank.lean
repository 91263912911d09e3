/-!
# Blanks

Two sets of blank characters. The five spacing characters separate the lexemes of a statement; a
line is blank if all its characters are blank in the wide sense of the character standard.
-/

namespace RegisterCalc.Text

/-- Space, tab, line feed, form feed and carriage return; the vertical tab is not among them. -/
def isSpacing (c : Char) : Bool :=
  c = ' ' || c = '\t' || c = '\n' || c = '\x0c' || c = '\r'

/-- The white space of the character standard. -/
def isBlank (c : Char) : Bool :=
  let code := c.toNat
  decide (0x09 ≤ code ∧ code ≤ 0x0D) || code = 0x20 || code = 0x85 || code = 0xA0 || code = 0x1680
    || decide (0x2000 ≤ code ∧ code ≤ 0x200A) || code = 0x2028 || code = 0x2029 || code = 0x202F
    || code = 0x205F || code = 0x3000

end RegisterCalc.Text
