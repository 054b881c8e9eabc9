import Scratchpad.Decimal.Shortest

/-! Reading numbers. A decimal text denotes the double nearest to its value. -/
namespace Scratchpad.Decimal

def digitValue (c : Char) : Nat :=
  if c.isDigit then c.toNat - '0'.toNat
  else if 'a' ≤ c ∧ c ≤ 'z' then c.toNat - 'a'.toNat + 10
  else if 'A' ≤ c ∧ c ≤ 'Z' then c.toNat - 'A'.toNat + 10
  else 36

/-- Positional value of a numeral. -/
def numeral (base : Nat) (digits : List Char) : Nat :=
  digits.foldl (fun n c => n * base + digitValue c) 0

/-- The number itself, if 64 bits hold it. -/
def int64? (n : Int) : Option Int64 :=
  if Int64.minValue.toInt ≤ n ∧ n ≤ Int64.maxValue.toInt then some (.ofInt n) else none

/-- The double nearest to `coefficient * 10 ^ exponent`. Beyond the range of doubles the power
itself is not computed. -/
def ofScientific (coefficient : Nat) (exponent : Int) : Double :=
  let size := digitCount coefficient + exponent
  if coefficient = 0 || size < -400 then .zero
  else if size > 400 then .infinity
  else if exponent ≥ 0 then nearest (coefficient * tenPow exponent.toNat) 1
  else nearest coefficient (tenPow (-exponent).toNat)

/-- Digits before and after the point, and the exponent. -/
structure Literal where
  whole : List Char
  fraction : List Char := []
  exponent : Int := 0

def Literal.value (l : Literal) : Double :=
  ofScientific (numeral 10 (l.whole ++ l.fraction)) (l.exponent - l.fraction.length)

/-- A sign, if there is one, and the rest. -/
def takeSign : List Char → Bool × List Char
  | '-' :: rest => (true, rest)
  | '+' :: rest => (false, rest)
  | s => (false, s)

/-- An integer in base ten: a sign if wanted, then digits. -/
def readInt? (s : List Char) : Option Int :=
  let (negative, digits) := takeSign s
  if digits.isEmpty || !digits.all Char.isDigit then none
  else some (if negative then -(numeral 10 digits : Int) else numeral 10 digits)

def readExponent? : List Char → Option Int
  | [] => some 0
  | c :: rest => if c = 'e' || c = 'E' then readInt? rest else none

def readMagnitude? (s : List Char) : Option Double :=
  let lower := s.map Char.toLower
  if lower = "inf".toList || lower = "infinity".toList then some .infinity
  else if lower = "nan".toList then some .notANumber
  else
    let whole := s.takeWhile Char.isDigit
    let rest := s.dropWhile Char.isDigit
    let (fraction, rest) := match rest with
      | '.' :: rest => (rest.takeWhile Char.isDigit, rest.dropWhile Char.isDigit)
      | rest => ([], rest)
    if whole.isEmpty && fraction.isEmpty then none
    else (readExponent? rest).map fun exponent => Literal.value ⟨whole, fraction, exponent⟩

/-- A float: digits with a point and an exponent as wanted, or the name of an infinity or of the
value that is not a number. -/
def readFloat? (s : List Char) : Option Double :=
  let (negative, magnitude) := takeSign s
  (readMagnitude? magnitude).map (withSign negative)

end Scratchpad.Decimal
