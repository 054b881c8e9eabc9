/-! Doubles by their bits. Two of them are one if their bits are: the zeros are told apart, and so
are the values that are not numbers, which have a sign like all others. -/
namespace Scratchpad

structure Double where
  bits : UInt64
deriving Repr, DecidableEq

namespace Double

def zero : Double := ⟨0⟩

def infinity : Double := ⟨0x7FF0000000000000⟩

def notANumber : Double := ⟨0x7FF8000000000000⟩

def neg (d : Double) : Double := ⟨d.bits ^^^ 0x8000000000000000⟩

def abs (d : Double) : Double := ⟨d.bits &&& 0x7FFFFFFFFFFFFFFF⟩

/-- The sign bit, which a zero has too. -/
def isNegative (d : Double) : Bool := 0x8000000000000000 ≤ d.bits

def isInfinite (d : Double) : Bool := d.abs = infinity

def isNaN (d : Double) : Bool := infinity.bits < d.abs.bits

def toFloat (d : Double) : Float := .ofBits d.bits

/-- What an operation gives that has no value: not a number, with the sign bit set. -/
def invalid : Double := notANumber.neg

def ofFloat (f : Float) : Double := if f.isNaN then invalid else ⟨f.toBits⟩

def ofInt (n : Int64) : Double := ofFloat n.toFloat

/-- The integer toward zero, held to 64 bits. -/
def toInt64 (d : Double) : Int64 := d.toFloat.toInt64

/-- Too large for 64 bits, either way. -/
def isBeyondInt64 (d : Double) : Bool :=
  d.toFloat < -9223372036854775808.0 || 9223372036854775808.0 ≤ d.toFloat

/-- The result of an operation. One that is not a number is the first operand that is none, if
there is such an operand. -/
def operate (op : Float → Float → Float) (a b : Double) : Double :=
  let result := op a.toFloat b.toFloat
  if result.isNaN then if a.isNaN then a else if b.isNaN then b else invalid
  else ofFloat result

def add : Double → Double → Double := operate (· + ·)

def sub : Double → Double → Double := operate (· - ·)

def mul : Double → Double → Double := operate (· * ·)

def div : Double → Double → Double := operate (· / ·)

def floor (d : Double) : Double := if d.isNaN then d else ofFloat d.toFloat.floor

/-- Equality of value: the zeros are equal, and what is not a number equals nothing. -/
def equals (a b : Double) : Bool := a.toFloat == b.toFloat

def less (a b : Double) : Bool := a.toFloat < b.toFloat

def isZero (d : Double) : Bool := d.equals zero

/-- Below zero, which no zero is, whatever its sign. -/
def isBelowZero (d : Double) : Bool := d.less zero

/-- There is no order between two of which one is not a number. -/
def order? (a b : Double) : Option Ordering :=
  if a.less b then some .lt else if a.equals b then some .eq else if b.less a then some .gt
  else none

/-- Is the double finite and whole? -/
def isWhole (d : Double) : Bool := !d.isInfinite && d.floor.equals d

def two : Double := ⟨0x4000000000000000⟩

def isOdd (d : Double) : Bool := d.isWhole && !(d.div two).isWhole

/-- An odd exponent turns the sign of a negative base, also of one that is not a number. -/
def power (a b : Double) : Double :=
  if a.isNaN && a.isNegative && b.isOdd then a.neg else operate Float.pow a b

end Double

end Scratchpad
