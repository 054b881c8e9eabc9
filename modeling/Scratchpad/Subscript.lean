import Scratchpad.Store.Equality
import Scratchpad.Store.Repr
import Scratchpad.World

/-! Items by index or key, and attributes. Indices count from 0, negative ones from the end. -/
namespace Scratchpad.Subscript

/-- The place that an index stands for in a sequence. -/
def place? (index : Int) (size : Int) : Option Nat :=
  let i := if index < 0 then index + size else index
  if 0 ≤ i ∧ i < size then some i.toNat else none

def index (sequence : String) (v : Value) : Except Fault Int :=
  match v.int? with
  | some n => .ok n.toInt
  | none => .error (.badIndexType sequence v.typeName)

def place (sequence : String) (v : Value) (size : Int) : Except Fault Nat := do
  match place? (← index sequence v) size with
  | some i => return i
  | none => .error (.indexOutOfRange sequence)

def load (s : Store) (object key : Value) : Except Fault Value := do
  match object with
  | .list ref =>
    let items := s.list ref
    return items[← place "list" key items.size]?.getD .none
  | .tuple ref =>
    let items := s.tuple ref
    return items[← place "tuple" key items.size]?.getD .none
  | .text t =>
    let chars := t.toList
    return .text (.ofList (chars[← place "string" key chars.length]?.toList))
  | .range r => return .int (r.item (← place "range object" key r.length.toInt))
  | .dict ref =>
    match ← s.lookup (s.dict ref) key with
    | some v => return v
    | none => .error (.missingKey (s.repr key))
  | v => .error (.notSubscriptable v.typeName)

/-- Whatever is wrong with the index of a list, the assignment is out of range. -/
def store (object key v : Value) : Eval Unit := do
  match object with
  | .list ref =>
    let items ← Eval.ask fun s => .ok (s.list ref)
    match place "list" key items.size with
    | .ok i => Eval.setList ref (items.setIfInBounds i v)
    | .error _ => Eval.fail .assignmentOutOfRange
  | .dict ref =>
    let d ← Eval.ask fun s => s.inserted (s.dict ref) key v
    Eval.setDict ref d
  | object => Eval.fail (.noItemAssignment object.typeName)

/-- The only attributes are methods. -/
def loadAttribute (object : Value) (name : String) : Eval Value :=
  match object.method? name with
  | some method => Eval.make (·.newMethod ⟨object, method⟩)
  | none => Eval.fail (.noAttribute object.typeName name)

/-- No attribute can be set; this is why. -/
def storeAttribute (object : Value) (name : String) : Fault :=
  if (object.method? name).isSome then .readOnlyAttribute object.typeName name
  else .noAttribute object.typeName name

end Scratchpad.Subscript
