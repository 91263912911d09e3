import RegisterCalc.Number.Decimal
import RegisterCalc.Text.Blank
import RegisterCalc.Token.Basic

/-!
# Lexemes of a text

A text is cut from left to right into its longest lexemes, and each is read by itself: `reach` says
how far the lexeme that starts with a character extends, `Lexeme.ofSpelling` what it stands for or
why it stands for nothing. `tokenize` returns the tokens of a text, closed by the end of the input,
or the fault of the first lexeme that has one.
-/

namespace RegisterCalc

/-- Why a text has no tokens. -/
inductive LexicalFault where
  | invalidCharacter (char : Char) (offset : Offset)
  | invalidNumber (text : String) (offset : Offset)
  | invalidRegisterMarker (offset : Offset)
  | registerOutOfRange (digits : String) (offset : Offset)
  deriving DecidableEq, Repr

namespace LexicalFault

/-- Where the faulty lexeme starts. -/
def offset : LexicalFault → Offset
  | invalidCharacter _ offset | invalidNumber _ offset | invalidRegisterMarker offset
  | registerOutOfRange _ offset => offset

/-- The fault in words. -/
def message : LexicalFault → String
  | invalidCharacter char offset =>
    "invalid character '" ++ String.singleton char ++ "' at " ++ columnText offset
  | invalidNumber text offset => "invalid number '" ++ text ++ "' at " ++ columnText offset
  | invalidRegisterMarker offset =>
    "'#' must be followed by a register number at " ++ columnText offset
  | registerOutOfRange digits offset =>
    "register #" ++ digits ++ " is out of range at " ++ columnText offset

end LexicalFault

/-- The characters that numerals are made of. -/
def isNumeric (c : Char) : Bool := c.isDigit || c = '.'

/-- The finite double nearest to a numeral. -/
def readNumeral? (numeral : List Char) : Option Float :=
  match Decimal.ofNumeral? numeral with
  | none => none
  | some d => if Binary64.isFinite d.nearest then some d.nearest else none

/-- How many characters of `rest` belong to the lexeme that `c` starts: as many as the class of `c`
admits, or the second character of an operator. -/
def reach (c : Char) (rest : List Char) : Nat :=
  if isNumeric c then (rest.takeWhile isNumeric).length
  else if c = '#' then (rest.takeWhile Char.isDigit).length
  else if c.isAlpha then (rest.takeWhile Char.isAlpha).length
  else match rest with
    | [] => 0
    | d :: _ => if (Symbol.ofSpelling? [c, d]).isSome then 1 else 0

/-- What the lexeme `c :: more` at `offset` stands for. -/
def Lexeme.ofSpelling (c : Char) (more : List Char) (offset : Offset) :
    Except LexicalFault Lexeme :=
  let text := String.ofList (c :: more)
  if isNumeric c then
    match readNumeral? (c :: more) with
    | some value => .ok (.number (some text) (some value))
    | none => .error (.invalidNumber text offset)
  else if c = '#' then
    let digits := String.ofList more
    if more = [] then .error (.invalidRegisterMarker offset)
    else if (RegisterId.ofText? digits).isNone then .error (.registerOutOfRange digits offset)
    else .ok (.register (some digits))
  else if c.isAlpha then .ok (.name (some text))
  else match Symbol.ofSpelling? (c :: more) with
    | some operator => .ok (.symbol operator)
    | none => .error (.invalidCharacter c offset)

/-- The tokens of the characters from `offset` on. -/
def tokenizeFrom (offset : Offset) (cs : List Char) : Except LexicalFault (List Token) :=
  match cs with
  | [] => .ok [⟨.endOfInput, offset⟩]
  | c :: rest =>
    if Text.isSpacing c then tokenizeFrom (offset + 1) rest
    else
      let n := reach c rest
      match Lexeme.ofSpelling c (rest.take n) offset with
      | .error fault => .error fault
      | .ok lexeme =>
        match tokenizeFrom (offset + 1 + n) (rest.drop n) with
        | .error fault => .error fault
        | .ok tokens => .ok (⟨lexeme, offset⟩ :: tokens)
termination_by cs.length
decreasing_by
  · exact Nat.lt_succ_self _
  · exact Nat.lt_succ_of_le (by rw [List.length_drop]; exact Nat.sub_le _ _)

/-- The tokens of a text. -/
def tokenize (text : String) : Except LexicalFault (List Token) := tokenizeFrom 0 text.toList

end RegisterCalc
