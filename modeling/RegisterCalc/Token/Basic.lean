import RegisterCalc.Text.Position
import RegisterCalc.Token.Symbol

/-!
# Tokens

A token is a lexeme and the position where it starts. A list of tokens may come from elsewhere than
a text, so the text and the value of a lexeme may be missing or odd; what a reader of tokens needs
of them, such as the register that a text names, is asked for and can fail.
-/

namespace RegisterCalc

/-- The number of a register, as it is written after `#`. -/
abbrev RegisterId := UInt32

/-- The register that a text names: an optional plus sign and at least one digit, with a value
that fits. -/
def RegisterId.ofText? (text : String) : Option RegisterId :=
  let digits := match text.toList with
    | '+' :: digits => digits
    | digits => digits
  let value := Nat.ofDigitChars 10 digits 0
  if digits ≠ [] ∧ digits.all Char.isDigit ∧ value < UInt32.size then
    some (UInt32.ofNat value)
  else
    none

/-- A register as it is written. -/
def RegisterId.text (id : RegisterId) : String := "#" ++ Nat.repr id.toNat

/-- What a token stands for. -/
inductive Lexeme where
  | number (text : Option String) (value : Option Float)
  | register (digits : Option String)
  | name (letters : Option String)
  | symbol (symbol : Symbol)
  | endOfInput
  deriving DecidableEq, Repr

/-- A lexeme and where it starts. -/
structure Token where
  lexeme : Lexeme
  offset : Offset
  deriving DecidableEq, Repr

namespace Lexeme

/-- A lexeme as messages name it. -/
def describe : Lexeme → String
  | number none _ => "number"
  | number (some text) _ => "number " ++ text
  | register none => "register"
  | register (some digits) => "register #" ++ digits
  | name none => "identifier"
  | name (some letters) => "identifier '" ++ letters ++ "'"
  | symbol s => "'" ++ s.spelling ++ "'"
  | endOfInput => "end of input"

/-- The register that a lexeme names. -/
def registerId? : Lexeme → Option RegisterId
  | register (some digits) => RegisterId.ofText? digits
  | _ => none

end Lexeme

namespace Token

/-- A token as messages name it. -/
def describe (token : Token) : String := token.lexeme.describe

/-- The symbol of a token that is one. -/
def symbol? (token : Token) : Option Symbol :=
  match token.lexeme with
  | .symbol symbol => some symbol
  | _ => none

/-- Whether a token is a register. -/
def isRegister (token : Token) : Bool :=
  match token.lexeme with
  | .register _ => true
  | _ => false

/-- Whether a token ends the input. -/
def isEnd (token : Token) : Bool :=
  match token.lexeme with
  | .endOfInput => true
  | _ => false

end Token

end RegisterCalc
