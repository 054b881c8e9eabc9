import Scratchpad.Decimal.Shortest

/-! The texts of doubles. A `Layout` holds the decisions of one text form; the digits are the
shortest that read back. -/
namespace Scratchpad.Decimal

structure Layout where
  /-- The powers of ten of the first digit that are written without an exponent. -/
  positional : Int → Bool
  /-- Whole numbers end in `.0`. -/
  pointZero : Bool
  notANumber : String

/-- How the language writes a number: an exponent from `1e+16` up and below `0.0001`, with a
sign and two digits. -/
def valueLayout : Layout := ⟨fun power => -4 ≤ power && power < 16, true, "nan"⟩

/-- How messages name a number token: never an exponent, no needless point. -/
def tokenLayout : Layout := ⟨fun _ => true, false, "NaN"⟩

def Layout.whole (l : Layout) (digits : List Char) : List Char :=
  digits ++ if l.pointZero then ['.', '0'] else []

def Layout.writePositional (l : Layout) (d : Digits) : List Char :=
  if d.exponent < 0 then
    '0' :: '.' :: List.replicate (-d.exponent - 1).toNat '0' ++ d.digits
  else
    let places := d.exponent.toNat + 1
    if d.digits.length ≤ places then
      l.whole (d.digits ++ List.replicate (places - d.digits.length) '0')
    else d.digits.take places ++ '.' :: d.digits.drop places

def writeExponent (d : Digits) : List Char :=
  let mantissa := match d.digits with
    | first :: second :: more => first :: '.' :: second :: more
    | few => few
  let digits := Nat.toDigits 10 d.exponent.natAbs
  mantissa ++ 'e' :: (if d.exponent < 0 then '-' else '+') ::
    (List.replicate (2 - digits.length) '0' ++ digits)

def Layout.writeMagnitude (l : Layout) (x : Binary) : List Char :=
  if x.mantissa = 0 then l.whole ['0']
  else
    let d := shortest x
    if l.positional d.exponent then l.writePositional d else writeExponent d

def Layout.write (l : Layout) (d : Double) : String :=
  if d.isNaN then l.notANumber
  else
    let magnitude := if d.isInfinite then ['i', 'n', 'f'] else l.writeMagnitude (Binary.ofDouble d)
    String.ofList (if d.isNegative then '-' :: magnitude else magnitude)

/-- The language's text of a float. -/
def floatText (d : Double) : String := valueLayout.write d

end Scratchpad.Decimal
