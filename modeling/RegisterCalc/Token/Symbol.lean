/-!
# Symbols

The operators and brackets of the language, each with its spelling. No two symbols are spelled alike
(`Symbol.ofSpelling?_spelling`), and a spelling has one character or two.
-/

namespace RegisterCalc

/-- An operator or a bracket. -/
inductive Symbol where
  | plus | minus | star | slash
  | leftParen | rightParen
  | bang | andAnd | orOr
  | notEqual | greater | greaterEqual | less | lessEqual | equal
  | ampersand | bar | caret | tilde | shiftLeft | shiftRight
  | assign
  deriving DecidableEq, Repr

namespace Symbol

/-- All symbols. -/
def all : List Symbol :=
  [plus, minus, star, slash, leftParen, rightParen, bang, andAnd, orOr, notEqual, greater,
    greaterEqual, less, lessEqual, equal, ampersand, bar, caret, tilde, shiftLeft, shiftRight,
    assign]

/-- A symbol as it is written. -/
def spelling : Symbol → String
  | plus => "+"
  | minus => "-"
  | star => "*"
  | slash => "/"
  | leftParen => "("
  | rightParen => ")"
  | bang => "!"
  | andAnd => "&&"
  | orOr => "||"
  | notEqual => "!="
  | greater => ">"
  | greaterEqual => ">="
  | less => "<"
  | lessEqual => "<="
  | equal => "=="
  | ampersand => "&"
  | bar => "|"
  | caret => "^"
  | tilde => "~"
  | shiftLeft => "<<"
  | shiftRight => ">>"
  | assign => "="

/-- The symbol that is written so, if there is one. -/
def ofSpelling? (spelling : List Char) : Option Symbol :=
  all.find? fun symbol => symbol.spelling.toList = spelling

/-- A spelling is read as the symbol that has it. -/
theorem ofSpelling?_spelling (symbol : Symbol) :
    ofSpelling? symbol.spelling.toList = some symbol := by
  cases symbol <;> decide +kernel

end Symbol

end RegisterCalc
