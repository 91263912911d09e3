/-!
# The log

A session keeps a record of what it does, in levels of detail.
-/

namespace RegisterCalc

/-- How much detail a record belongs to, from the least. -/
inductive LogLevel where
  | error | warn | info | debug | trace
  deriving DecidableEq, Repr

namespace LogLevel

/-- The place of a level; the more severe, the lower. -/
def rank : LogLevel → Nat
  | error => 1
  | warn => 2
  | info => 3
  | debug => 4
  | trace => 5

/-- A level as it is shown. -/
def name : LogLevel → String
  | error => "ERROR"
  | warn => "WARN"
  | info => "INFO"
  | debug => "DEBUG"
  | trace => "TRACE"

end LogLevel

/-- A record of the log. -/
structure LogRecord where
  level : LogLevel
  message : String
  deriving DecidableEq, Repr

namespace LogRecord

/-- A record as it is shown. -/
def text (record : LogRecord) : String := record.level.name ++ " " ++ record.message

/-- Whether a record is at least as severe as the limit; without a limit none is. -/
def isWithin (limit : Option LogLevel) (record : LogRecord) : Bool :=
  match limit with
  | none => false
  | some level => decide (record.level.rank ≤ level.rank)

end LogRecord

end RegisterCalc
