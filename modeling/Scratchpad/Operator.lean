import Scratchpad.Store.Items
import Scratchpad.Store.Order
import Scratchpad.Text.Search
import Scratchpad.Tree
import Scratchpad.World

/-! The operators. Arithmetic on integers is exact or fails; with a float in it, it is that of
doubles. -/
namespace Scratchpad

def BinaryOp.symbol : BinaryOp → String
  | .add => "+"
  | .sub => "-"
  | .mul => "*"
  | .div => "/"
  | .floorDiv => "//"
  | .mod => "%"
  | .pow => "** or pow()"

namespace Operator

/-- A result that is there unless 64 bits do not hold it. -/
def held : Option Int64 → Except Fault Value
  | some n => .ok (.int n)
  | none => .error .overflow

def exact (n : Int) : Except Fault Value := held (Decimal.int64? n)

/-- Can the first be divided by the second? Nothing can by 0, and one quotient is beyond 64 bits. -/
def dividable (a b : Int64) : Bool := b ≠ 0 && !(a = Int64.minValue && b = -1)

/-- The quotient rounded toward zero. -/
def quotient? (a b : Int64) : Option Int64 := if dividable a b then some (a / b) else none

/-- What that quotient leaves over; it has the sign of the dividend. -/
def leftover? (a b : Int64) : Option Int64 := if dividable a b then some (a % b) else none

def signsDiffer (a b : Int64) : Bool := (a < 0) != (b < 0)

/-- The quotient rounded down, from the one rounded toward zero. There is none if a step has none. -/
def floorQuotient? (a b : Int64) : Option Int64 := do
  let q ← quotient? a b
  let r ← leftover? a b
  if r ≠ 0 && signsDiffer a b then Decimal.int64? (q.toInt - 1) else some q

/-- What the quotient rounded down leaves over; it has the sign of the divisor. A division that
cannot be done leaves nothing over. -/
def floorLeftover? (a b : Int64) : Option Int64 :=
  let r := (leftover? a b).getD 0
  if r ≠ 0 && signsDiffer r b then Decimal.int64? (r.toInt + b.toInt) else some r

/-- The power, if 64 bits hold it. No base but 0, 1 and -1 has a 64th power that they hold. -/
def power? (base : Int) (exponent : Nat) : Option Int64 :=
  if base.natAbs ≤ 1 then
    Decimal.int64? (if exponent = 0 then 1 else if exponent % 2 = 0 then base * base else base)
  else if exponent < 64 then Decimal.int64? (base.pow exponent)
  else none

def floatBinary : BinaryOp → Double → Double → Except Fault Value
  | .add, a, b => .ok (.float (a.add b))
  | .sub, a, b => .ok (.float (a.sub b))
  | .mul, a, b => .ok (.float (a.mul b))
  | .div, a, b => if b.isZero then .error (.divisionByZero .plain) else .ok (.float (a.div b))
  | .floorDiv, a, b =>
    if b.isZero then .error (.divisionByZero .floatFloor) else .ok (.float (a.div b).floor)
  | .mod, a, b =>
    if b.isZero then .error (.divisionByZero .floatModulo)
    else
      -- the remainder takes the sign of the divisor
      let r := Decimal.remainder a b
      .ok (.float (if !r.isZero && r.isBelowZero != b.isBelowZero then r.add b else r))
  | .pow, a, b =>
    if a.isZero && b.isBelowZero then .error (.divisionByZero .power)
    else .ok (.float (a.power b))

/-- An exponent of more than 32 bits is refused whatever the base. -/
def intPower (a b : Int64) : Except Fault Value :=
  if 0 ≤ b then
    if b.toInt < 0x100000000 then held (power? a.toInt b.toInt.toNat) else .error .overflow
  else if a = 0 then .error (.divisionByZero .power)
  else .ok (.float ((Double.ofInt a).power (.ofInt b)))

def intBinary : BinaryOp → Int64 → Int64 → Except Fault Value
  | .add, a, b => exact (a.toInt + b.toInt)
  | .sub, a, b => exact (a.toInt - b.toInt)
  | .mul, a, b => exact (a.toInt * b.toInt)
  | .div, a, b => floatBinary .div (.ofInt a) (.ofInt b)
  | .floorDiv, a, b =>
    if b = 0 then .error (.divisionByZero .integer) else held (floorQuotient? a b)
  | .mod, a, b => if b = 0 then .error (.divisionByZero .integer) else held (floorLeftover? a b)
  | .pow, a, b => intPower a b

/-- The longest sequence that repetition builds, in items or, for a text, in bytes. -/
def maxRepeat : Nat := 0x1000000

def checkRepeat (size count : Nat) : Except Fault Unit :=
  if size * count ≤ maxRepeat then .ok () else .error .repeatTooLong

def repeatText (t : String) (count : Nat) : Except Fault String := do
  checkRepeat t.utf8ByteSize count
  return if t = "" then t else String.join (List.replicate count t)

def repeatItems (items : Array Value) (count : Nat) : Except Fault (Array Value) := do
  checkRepeat items.size count
  return if items.isEmpty then items else (Array.replicate count items).flatten

def repeated (count : Int64) : Value → Eval (Option Value)
  | .text t => return some (.text (← repeatText t count.toInt.toNat))
  | .list ref => do
    let items ← Eval.ask fun s => repeatItems (s.list ref) count.toInt.toNat
    return some (← Eval.list items)
  | .tuple ref => do
    let items ← Eval.ask fun s => repeatItems (s.tuple ref) count.toInt.toNat
    return some (← Eval.tuple items)
  | _ => return none

/-- Joining and repeating sequences. -/
def sequenceBinary? (op : BinaryOp) (left right : Value) : Eval (Option Value) := do
  match op, left, right with
  | .add, .text a, .text b => return some (.text (a ++ b))
  | .add, .list a, .list b =>
    let items ← Eval.ask fun s => .ok (s.list a ++ s.list b)
    return some (← Eval.list items)
  | .add, .tuple a, .tuple b =>
    let items ← Eval.ask fun s => .ok (s.tuple a ++ s.tuple b)
    return some (← Eval.tuple items)
  | .mul, left, right =>
    match left.int?, right.int? with
    | _, some count => repeated count left
    | some count, none => repeated count right
    | none, none => return none
  | _, _, _ => return none

def binary (op : BinaryOp) (left right : Value) : Eval Value := do
  match left.int?, right.int? with
  | some a, some b => intBinary op a b
  | _, _ =>
    match left.float?, right.float? with
    | some a, some b => floatBinary op a b
    | _, _ =>
      match ← sequenceBinary? op left right with
      | some v => return v
      | none => Eval.fail (.badOperands op.symbol left.typeName right.typeName)

def unary (s : Store) : UnaryOp → Value → Except Fault Value
  | .not, v => .ok (.bool (!s.truthy v))
  | .neg, .float d => .ok (.float d.neg)
  | .pos, .float d => .ok (.float d)
  | .neg, v =>
    match v.int? with
    | some n => exact (-n.toInt)
    | none => .error (.badUnary "-" v.typeName)
  | .pos, v =>
    match v.int? with
    | some n => .ok (.int n)
    | none => .error (.badUnary "+" v.typeName)

/-- The integer that a value is among the numbers of a range; a whole float counts, held to
64 bits. -/
def rangeItem? : Value → Option Int64
  | .float d => if d.isWhole then some d.toInt64 else none
  | v => v.int?

/-- Is the item in the container? -/
def contains (s : Store) (container item : Value) : Except Fault Bool :=
  match container with
  | .text t =>
    match item with
    | .text part => .ok (Text.contains t.toList part.toList)
    | v => .error (.textNeedle v.typeName)
  | .list ref => return (← s.position? item (s.list ref).toList).isSome
  | .tuple ref => return (← s.position? item (s.tuple ref).toList).isSome
  | .dict ref => return (← s.lookup (s.dict ref) item).isSome
  | .range r =>
    match rangeItem? item with
    | some n => .ok (r.contains n)
    | none => .ok false
  | v => .error (.notContainer v.typeName)

/-- Without an order between the two, no ordered comparison holds. -/
def compare (s : Store) (op : CompareOp) (left right : Value) : Except Fault Bool :=
  let ordered (test : Ordering → Bool) : Except Fault Bool :=
    return ((← s.order op.symbol left right).map test).getD false
  match op with
  | .eq => s.equal left right
  | .notEq => return !(← s.equal left right)
  | .same => .ok (left.isSame right)
  | .notSame => .ok (!left.isSame right)
  | .isIn => contains s right left
  | .notIn => return !(← contains s right left)
  | .lt => ordered (·.isLT)
  | .ltE => ordered (·.isLE)
  | .gt => ordered (·.isGT)
  | .gtE => ordered (·.isGE)

end Operator

end Scratchpad
