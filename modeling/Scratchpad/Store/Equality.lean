import Scratchpad.Store

/-! Equality of values and the keys of dicts. Both follow containers to a bounded depth and fail
beyond it. -/
namespace Scratchpad.Store

/-- How deeply values are followed into containers. -/
def maxDepth : Nat := 200

/-- Are the items equal one by one? Stops at the first pair that is not. -/
def allEqual (equal : Value → Value → Except Fault Bool) :
    List Value → List Value → Except Fault Bool
  | [], [] => .ok true
  | x :: xs, y :: ys => do
    if ← equal x y then allEqual equal xs ys else return false
  | _, _ => .ok false

def sequencesEqual (equal : Value → Value → Except Fault Bool) (xs ys : Array Value) :
    Except Fault Bool :=
  if xs.size = ys.size then allEqual equal xs.toList ys.toList else .ok false

/-- Does the other dict hold an equal value under each key? -/
def allFound (equal : Value → Value → Except Fault Bool) (other : Dict) :
    List Entry → Except Fault Bool
  | [] => .ok true
  | e :: rest =>
    match other.find? e.hash with
    | some theirs => do
      if ← equal theirs e.value then allFound equal other rest else return false
    | none => .ok false

def dictsEqual (equal : Value → Value → Except Fault Bool) (a b : Dict) : Except Fault Bool :=
  if a.size = b.size then allFound equal b a.entries else .ok false

/-- Numbers are equal by value, a float to any of them as a double. -/
def scalarsEqual (a b : Value) : Bool :=
  match a, b with
  | .float _, _ | _, .float _ =>
    match a.float?, b.float? with
    | some x, some y => x.equals y
    | _, _ => false
  | _, _ =>
    match a.int?, b.int? with
    | some m, some n => m = n
    | none, none => a = b
    | _, _ => false

/-- Two lookups of one method on one object are equal. -/
def methodsEqual (s : Store) (a b : Nat) : Bool :=
  match s.methods[a]?, s.methods[b]? with
  | some m, some n => m.method = n.method && m.receiver.isSame n.receiver
  | _, _ => false

def equalAt (s : Store) : Nat → Value → Value → Except Fault Bool
  | room, .list a, .list b =>
    if a = b then .ok true
    else match room with
      | 0 => .error (.tooDeep "comparison")
      | room + 1 => sequencesEqual (s.equalAt room) (s.list a) (s.list b)
  | room, .tuple a, .tuple b =>
    if a = b then .ok true
    else match room with
      | 0 => .error (.tooDeep "comparison")
      | room + 1 => sequencesEqual (s.equalAt room) (s.tuple a) (s.tuple b)
  | room, .dict a, .dict b =>
    if a = b then .ok true
    else match room with
      | 0 => .error (.tooDeep "comparison")
      | room + 1 => dictsEqual (s.equalAt room) (s.dict a) (s.dict b)
  | _, .method a, .method b => .ok (s.methodsEqual a b)
  | _, a, b => .ok (scalarsEqual a b)

def equal (s : Store) (a b : Value) : Except Fault Bool := s.equalAt maxDepth a b

/-- The place of the first item equal to a value. -/
def position? (s : Store) (item : Value) : List Value → Except Fault (Option Nat)
  | [] => .ok none
  | x :: xs => do
    if ← s.equal x item then return some 0
    return (← position? s item xs).map (· + 1)

/-- A whole float that 64 bits hold has the key of the integer. -/
def floatKey (d : Double) : Key :=
  if d.isWhole && !d.isBeyondInt64 then .int d.toInt64 else .float d.bits

/-- Lists and dicts change and bound methods come and go, so none of them has a key. -/
def keyAt (s : Store) : Nat → Value → Except Fault Key
  | _, .none => .ok .none
  | _, .bool b => .ok (.int (if b then 1 else 0))
  | _, .int n => .ok (.int n)
  | _, .float d => .ok (floatKey d)
  | _, .text t => .ok (.text t)
  | _, .range r => .ok (.tuple [.text "range", .int r.start, .int r.stop, .int r.step])
  | _, .builtin b => .ok (.text ("<builtin " ++ b.name ++ ">"))
  | _, .function ref => .ok (.function ref)
  | 0, .tuple _ => .error (.tooDeep "hashing")
  | room + 1, .tuple ref => return .tuple (← (s.tuple ref).toList.mapM (s.keyAt room))
  | _, v@(.list _) | _, v@(.dict _) | _, v@(.method _) => .error (.unhashable v.typeName)

def key (s : Store) (v : Value) : Except Fault Key := s.keyAt maxDepth v

/-- The value under a key. -/
def lookup (s : Store) (d : Dict) (key : Value) : Except Fault (Option Value) :=
  return d.find? (← s.key key)

/-- A dict with one more entry. -/
def inserted (s : Store) (d : Dict) (key value : Value) : Except Fault Dict :=
  return d.insert (← s.key key) key value

end Scratchpad.Store
