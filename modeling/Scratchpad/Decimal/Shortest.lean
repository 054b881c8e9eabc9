import Scratchpad.Decimal.Binary

/-! The fewest decimal digits that read back as a given double, and of those the nearest.
For each number of digits the two neighbours of the value on that decimal grid are tested
against the interval of reals that round to it. -/
namespace Scratchpad.Decimal

/-- `digits`, without a zero at either end, times a power of ten: the first digit counts
`10 ^ exponent`. -/
structure Digits where
  digits : List Char
  exponent : Int
deriving Repr, DecidableEq

def digitCount (n : Nat) : Nat := (Nat.toDigits 10 n).length

/-- `coefficient * 10 ^ exponent`. -/
def Digits.ofCoefficient (coefficient : Nat) (exponent : Int) : Digits :=
  let all := Nat.toDigits 10 coefficient
  ⟨(all.reverse.dropWhile (· = '0')).reverse, exponent + all.length - 1⟩

/-- The power of ten of the first digit of `num / den`. -/
def leadingPower (num den : Nat) : Int :=
  if den ≤ num then digitCount (num / den) - 1
  else -(digitCount ((den - 1) / num) : Int)

/-- `10 ^ n`. -/
def tenPow (n : Nat) : Nat := Nat.pow 10 n

/-- A fraction in units of `10 ^ power`. -/
def onGrid (num den : Nat) (power : Int) : Nat × Nat :=
  if power ≥ 0 then (num, den * tenPow power.toNat) else (num * tenPow (-power).toNat, den)

/-- The reals that round to a double: `(4 * mantissa - below) / 4` to `(4 * mantissa + 2) / 4`
in units of the last bit. The gap below a power of two is half as wide. -/
structure Interval where
  value : Nat
  low : Nat
  high : Nat
  den : Nat
  closed : Bool

def Interval.ofBinary (x : Binary) : Interval :=
  let below := if x.mantissa = twoPow 52 ∧ x.exponent > -1074 then 1 else 2
  let unit := if x.exponent ≥ 0 then twoPow x.exponent.toNat else 1
  let den := if x.exponent ≥ 0 then 4 else 4 * twoPow (-x.exponent).toNat
  ⟨4 * x.mantissa * unit, (4 * x.mantissa - below) * unit, (4 * x.mantissa + 2) * unit, den,
    x.mantissa % 2 = 0⟩

/-- Does `n * 10 ^ power` round to the double? -/
def Interval.holds (i : Interval) (power : Int) (n : Nat) : Bool :=
  let (lowNum, lowDen) := onGrid i.low i.den power
  let (highNum, highDen) := onGrid i.high i.den power
  if i.closed then lowNum ≤ n * lowDen && n * highDen ≤ highNum
  else lowNum < n * lowDen && n * highDen < highNum

/-- The neighbour with `count` digits that reads back; of two the nearer, and the upper one if
they are equally near. -/
def Interval.withDigits? (i : Interval) (first : Int) (count : Nat) : Option Digits :=
  let power := first - count + 1
  let (num, den) := onGrid i.value i.den power
  let down := num / den
  let chosen :=
    match i.holds power down, i.holds power (down + 1) with
    | true, true => some (if 2 * num < (2 * down + 1) * den then down else down + 1)
    | true, false => some down
    | false, true => some (down + 1)
    | false, false => none
  chosen.map (Digits.ofCoefficient · power)

/-- Shortest digits of a positive magnitude; seventeen always suffice. -/
def shortest (x : Binary) : Digits :=
  let i := Interval.ofBinary x
  let first := leadingPower i.value i.den
  ((List.range 17).findSome? fun n => i.withDigits? first (n + 1)).getD ⟨['0'], 0⟩

end Scratchpad.Decimal
