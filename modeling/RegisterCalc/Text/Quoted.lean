import RegisterCalc.Text.Printable

/-!
# Quoted text

A text between quotes, in which a reader sees every character: quotes and backslashes are escaped,
and characters that cannot be shown as they stand are written as escapes.
-/

namespace RegisterCalc.Text

/-- The digits of a code point in lowercase base sixteen. -/
def hexDigits (code : Nat) : String := String.ofList (Nat.toDigits 16 code)

/-- One character of a quoted text. -/
def escape (c : Char) : String :=
  if c = '"' then "\\\""
  else if c = '\\' then "\\\\"
  else if c = '\t' then "\\t"
  else if c = '\n' then "\\n"
  else if c = '\r' then "\\r"
  else if c.toNat = 0 then "\\0"
  else if isExtending c || isUnprintable c then "\\u\x7b" ++ hexDigits c.toNat ++ "\x7d"
  else String.singleton c

/-- A text between quotes. -/
def quoted (text : String) : String :=
  "\"" ++ String.join (text.toList.map escape) ++ "\""

end RegisterCalc.Text
