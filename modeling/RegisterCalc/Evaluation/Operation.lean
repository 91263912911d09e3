import RegisterCalc.Evaluation.Fault
import RegisterCalc.Number.Word
import RegisterCalc.Tree.Function
import RegisterCalc.Tree.Operator

/-!
# Operations on numbers

What operators and functions do to values. Comparisons and logic answer one or zero, and every value
but zero counts as true. Operators on bits work on the words of their operands. Only a division can
fail, and a call of what is no function.
-/

namespace RegisterCalc

/-- Every value but zero is true, also what is not a number. -/
def isTrue (x : Float) : Bool := !(x == 0)

/-- The number of a truth value. -/
def truthValue (b : Bool) : Float := if b then 1 else 0

/-- The distance by which a word shifts another: its value modulo the width of a word. -/
def shiftDistance (w : Word) : Nat := w.toNat % 64

/-- An operation on the words of two numbers. -/
def onWords (f : Word → Word → Word) (x y : Float) : Float :=
  Binary64.ofWord (f (Binary64.toWord x) (Binary64.toWord y))

/-- The value of a prefix operator. -/
def PrefixOp.apply (op : PrefixOp) (x : Float) : Float :=
  match op with
  | negate => -x
  | not => truthValue (!isTrue x)
  | complement => Binary64.ofWord (~~~Binary64.toWord x)

/-- The value of a binary operator at `offset`. -/
def BinaryOp.apply (op : BinaryOp) (x y : Float) (offset : Offset) : Except RuntimeFault Float :=
  match op with
  | add => .ok (x + y)
  | sub => .ok (x - y)
  | mul => .ok (x * y)
  | div => if y == 0 then .error (.divisionByZero offset) else .ok (x / y)
  | equal => .ok (truthValue (x == y))
  | notEqual => .ok (truthValue (!(x == y)))
  | less => .ok (truthValue (decide (x < y)))
  | lessEqual => .ok (truthValue (decide (x ≤ y)))
  | greater => .ok (truthValue (decide (y < x)))
  | greaterEqual => .ok (truthValue (decide (y ≤ x)))
  | and => .ok (truthValue (isTrue x && isTrue y))
  | or => .ok (truthValue (isTrue x || isTrue y))
  | bitAnd => .ok (onWords (· &&& ·) x y)
  | bitOr => .ok (onWords (· ||| ·) x y)
  | bitXor => .ok (onWords (· ^^^ ·) x y)
  | shiftLeft => .ok (onWords (fun a b => a <<< shiftDistance b) x y)
  | shiftRight => .ok (onWords (fun a b => a.sshiftRight (shiftDistance b)) x y)

/-- The ratio of a circle's circumference to its diameter. -/
def pi : Float := 3.141592653589793

/-- An angle in radians. -/
def radians (degrees : Float) : Float := degrees * pi / 180

/-- The value of a function; angles are in degrees. -/
def Function.apply (f : Function) (x : Float) : Float :=
  match f with
  | sin => (radians x).sin
  | cos => (radians x).cos
  | exp => x.exp

/-- The value of a call of `name` at `offset`. -/
def applyNamed (name : String) (x : Float) (offset : Offset) : Except RuntimeFault Float :=
  match Function.ofName? name with
  | some f => .ok (f.apply x)
  | none => .error (.unknownFunction name offset)

end RegisterCalc
