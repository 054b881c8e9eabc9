import Scratchpad.Double

/-! A double as an integer times a power of two, and the double nearest to a fraction.
Everything is exact integer arithmetic; only the result is rounded, half to even. -/
namespace Scratchpad.Decimal

/-- `2 ^ n`. -/
def twoPow (n : Nat) : Nat := Nat.pow 2 n

/-- The magnitude `mantissa * 2 ^ exponent` of a finite double. -/
structure Binary where
  mantissa : Nat
  exponent : Int
deriving Repr, DecidableEq

/-- Magnitude of a finite double, by its bits. -/
def Binary.ofBits (bits : UInt64) : Binary :=
  let fraction : Nat := bits.toNat % twoPow 52
  let field : Nat := bits.toNat / twoPow 52 % twoPow 11
  if field = 0 then ⟨fraction, -1074⟩ else ⟨twoPow 52 + fraction, (field : Int) - 1075⟩

def Binary.ofDouble (d : Double) : Binary := ofBits d.abs.bits

def withSign (negative : Bool) (d : Double) : Double := if negative then d.neg else d

/-- `num / den` in units of `2 ^ exponent`, as a fraction. -/
def inUnits (num den : Nat) (exponent : Int) : Nat × Nat :=
  if exponent ≥ 0 then (num, den * twoPow exponent.toNat) else (num * twoPow (-exponent).toNat, den)

def roundHalfEven (num den : Nat) : Nat :=
  let quotient := num / den
  let twice := 2 * (num % den)
  if twice < den then quotient
  else if den < twice then quotient + 1
  else quotient + quotient % 2

/-- The exponent of the last bit that a double near `num / den` keeps. -/
def lastBit (num den : Nat) : Int :=
  let low := max ((num.log2 : Int) - den.log2 - 53) (-1074)
  let (n, d) := inUnits num den low
  if n / d ≥ twoPow 53 then low + 1 else low

/-- The double nearest to `num / den`. A mantissa that rounds up to `2 ^ 53` carries into the
exponent field, where it belongs. -/
def nearest (num den : Nat) : Double :=
  if num = 0 then .zero
  else
    let exponent := lastBit num den
    let (n, d) := inUnits num den exponent
    let mantissa := roundHalfEven n d
    let bits :=
      if mantissa < twoPow 52 then mantissa
      else (exponent + 1075).toNat * twoPow 52 + (mantissa - twoPow 52)
    ⟨(min bits (0x7FF * twoPow 52)).toUInt64⟩

/-- The remainder of the quotient rounded toward zero; it has the sign of `a` and is exact. -/
def remainder (a b : Double) : Double :=
  if a.isNaN then a
  else if b.isNaN then b
  else if a.isInfinite then .invalid
  else if b.isInfinite then a
  else
    let x := Binary.ofDouble a
    let y := Binary.ofDouble b
    if y.mantissa = 0 then .invalid
    else
      let unit := min x.exponent y.exponent
      let r := x.mantissa * twoPow (x.exponent - unit).toNat %
        (y.mantissa * twoPow (y.exponent - unit).toNat)
      let (n, d) := if unit ≥ 0 then (r * twoPow unit.toNat, 1) else (r, twoPow (-unit).toNat)
      withSign a.isNegative (nearest n d)

end Scratchpad.Decimal
