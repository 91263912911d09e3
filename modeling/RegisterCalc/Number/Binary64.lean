/-!
# Doubles as numbered points

The doubles that are not negative, numbered in ascending order from zero, have their own bit
patterns as numbers: point `n` lies `significand n * 2 ^ scale n` least steps above zero, a least
step being `2 ^ (-1074)`. A double is then a sign and such a number. The point after the last finite
one is infinity, and the numbers past it are not numbers at all. What is said here of points is
said of natural numbers, so it can be reasoned about without reference to bit fields.
-/

namespace RegisterCalc.Binary64

/-- Powers of natural numbers are the built-in ones, whatever other powers there are. -/
@[default_instance 20000]
instance (priority := high) naturalPow : Pow Nat Nat := instPowNat

/-- The number of the point that stands for infinity. -/
def infinity : Nat := 0x7FF0000000000000

/-- The exponent of two by which the significand of point `n` is scaled, in least steps. -/
def scale (n : Nat) : Nat := n / 2 ^ 52 - 1

/-- The significand of point `n`, below `2 ^ 53`. -/
def significand (n : Nat) : Nat := n - scale n * 2 ^ 52

/-- The distance of point `n` from zero in least steps. -/
def steps (n : Nat) : Nat := significand n * 2 ^ scale n

/-- The number of the point that `x` has but for its sign. -/
def point (x : Float) : Nat := x.toBits.toNat % 2 ^ 63

/-- The sign bit of `x`. -/
def isNegative (x : Float) : Bool := decide (2 ^ 63 ≤ x.toBits.toNat)

/-- A finite double lies below infinity. -/
def isFinite (x : Float) : Bool := decide (point x < infinity)

/-- The double with the given sign and point. -/
def ofPoint (negative : Bool) (n : Nat) : Float :=
  Float.ofBits (UInt64.ofNat (if negative then 2 ^ 63 + n else n))

end RegisterCalc.Binary64
