import Scratchpad.Store

/-! Going through the items of a value. A list is read as it stands at each step, so that what
is added on the way is met; texts, tuples and dicts are read as they stood at the start. -/
namespace Scratchpad

inductive Iter where
  | list (ref index : Nat)
  | items (rest : List Value)
  | range (r : Range)
deriving DecidableEq

def Range.isDone (r : Range) : Bool :=
  if 0 < r.step.toInt then r.stop ≤ r.start else r.start ≤ r.stop

/-- The range without its first number. -/
def Range.advance (r : Range) : Range :=
  { r with start := (Decimal.int64? (r.start.toInt + r.step.toInt)).getD r.stop }

namespace Store

def iterate (s : Store) : Value → Except Fault Iter
  | .list ref => .ok (.list ref 0)
  | .tuple ref => .ok (.items (s.tuple ref).toList)
  | .text t => .ok (.items (t.toList.map fun c => .text (String.singleton c)))
  | .dict ref => .ok (.items (s.dict ref).keys)
  | .range r => .ok (.range r)
  | v => .error (.notIterable v.typeName)

/-- The next item and what remains. -/
def next? (s : Store) : Iter → Option (Value × Iter)
  | .list ref index => (s.list ref)[index]?.map fun item => (item, .list ref (index + 1))
  | .items [] => none
  | .items (item :: rest) => some (item, .items rest)
  | .range r => if r.isDone then none else some (.int r.start, .range r.advance)

/-- A bound for what goes on until it fails: adding a number other than zero over and over leaves
the integers of 64 bits before that. -/
def endless : Nat := 0x10000000000000000

/-- How many items there are still to come. A range that does not move never ends. -/
def remaining (s : Store) : Iter → Nat
  | .list ref index => (s.list ref).size - index
  | .items rest => rest.length
  | .range r => if r.step = 0 && !r.isDone then endless else r.count

/-- The first items, at most `limit` of them. -/
def take (s : Store) : Nat → Iter → List Value
  | 0, _ => []
  | limit + 1, it =>
    match s.next? it with
    | some (item, rest) => item :: take s limit rest
    | none => []

/-- All the items. -/
def items (s : Store) (v : Value) : Except Fault (Array Value) := do
  match ← s.iterate v with
  | .list ref _ => return s.list ref
  | .items rest => return rest.toArray
  | .range r => return Array.ofFn fun k : Fin r.count => .int (r.item k)

end Store

end Scratchpad
