import Scratchpad.Decimal.Reading
import Scratchpad.Operator
import Scratchpad.Store.Repr
import Scratchpad.Text.Blank

/-! The functions that every program can call by name. -/
namespace Scratchpad.Builtin

def arity : Builtin → Arity
  | .print => ⟨0, none⟩
  | .len | .abs | .repr | .sorted => ⟨1, some 1⟩
  | .range => ⟨1, some 3⟩
  | .min | .max => ⟨1, none⟩
  | .sum => ⟨1, some 2⟩
  | .str | .int | .float | .bool | .list | .tuple => ⟨0, some 1⟩

def length (s : Store) : Value → Except Fault Value
  | .text t => .ok (.int (.ofNat t.length))
  | .list ref => .ok (.int (.ofNat (s.list ref).size))
  | .tuple ref => .ok (.int (.ofNat (s.tuple ref).size))
  | .dict ref => .ok (.int (.ofNat (s.dict ref).size))
  | .range r => .ok (.int r.length)
  | v => .error (.noLength v.typeName)

def indexArg (v : Value) : Except Fault Int64 :=
  match v.int? with
  | some n => .ok n
  | none => .error (.notIndex Builtin.range.name v.typeName)

def rangeOf (args : List Value) : Except Fault Value := do
  match ← args.mapM indexArg with
  | [stop] => return .range ⟨0, stop, 1⟩
  | [start, stop] => return .range ⟨start, stop, 1⟩
  | start :: stop :: step :: _ =>
    if step = 0 then .error .zeroStep else return .range ⟨start, stop, step⟩
  | [] => return .none

def magnitude : Value → Except Fault Value
  | .float d => .ok (.float d.abs)
  | v =>
    match v.int? with
    | some n => Operator.exact n.toInt.natAbs
    | none => .error (.badMagnitude v.typeName)

/-- The first of the items that no later one beats. -/
def best (s : Store) (symbol : String) (wanted : Ordering) (first : Value) :
    List Value → Except Fault Value
  | [] => .ok first
  | item :: rest => do
    if (← s.order symbol item first) = some wanted then best s symbol wanted item rest
    else best s symbol wanted first rest

/-- One argument is gone through for the items, several are the items. -/
def extreme (s : Store) (b : Builtin) (symbol : String) (wanted : Ordering) (args : List Value) :
    Except Fault Value := do
  let items ← match args with
    | [v] => (·.toList) <$> s.items v
    | many => .ok many
  match items with
  | [] => .error (.emptyChoice b.name)
  | first :: rest => best s symbol wanted first rest

/-- Adds up at most `left` items. -/
def total : Nat → Value → Iter → Eval Value
  | 0, soFar, _ => return soFar
  | left + 1, soFar, it => do
    match ← Eval.ask fun s => .ok (s.next? it) with
    | none => return soFar
    | some (item, rest) => total left (← Operator.binary .add soFar item) rest

def sumOf (v start : Value) : Eval Value := do
  match start with
  | .text _ => Eval.fail .sumOfTexts
  | start =>
    let (it, left) ← Eval.ask fun s => (s.iterate v).map fun it => (it, s.remaining it)
    total left start it

/-- Drops the underscores that numerals may hold. -/
def numeralText (t : String) : List Char := (Text.trim t.toList).filter (· ≠ '_')

def intOf (s : Store) : Value → Except Fault Value
  | .float d =>
    if d.isNaN then .error .notANumber
    else if d.isBeyondInt64 then .error (.tooLargeForInt (Decimal.floatText d))
    else .ok (.int d.toInt64)
  | .text t =>
    match (Decimal.readInt? (numeralText t)).bind Decimal.int64? with
    | some n => .ok (.int n)
    | none => .error (.badIntText (s.repr (.text t)))
  | v =>
    match v.int? with
    | some n => .ok (.int n)
    | none => .error (.notNumeric Builtin.int.name v.typeName)

def floatOf (s : Store) : Value → Except Fault Value
  | .text t =>
    match Decimal.readFloat? (numeralText t) with
    | some d => .ok (.float d)
    | none => .error (.badFloatText (s.repr (.text t)))
  | v =>
    match v.float? with
    | some d => .ok (.float d)
    | none => .error (.notNumeric Builtin.float.name v.typeName)

def printed (s : Store) (args : List Value) : String :=
  " ".intercalate (args.map s.display) ++ "\n"

/-- Runs a builtin on as many arguments as it takes; the last case is then not reached. -/
def run (b : Builtin) (args : List Value) : Eval Value := do
  match b, args with
  | .print, args =>
    Eval.print (← Eval.ask fun s => .ok (printed s args))
    return .none
  | .len, v :: _ => Eval.ask (length · v)
  | .range, args => rangeOf args
  | .abs, v :: _ => magnitude v
  | .min, args => Eval.ask (extreme · .min "<" .lt args)
  | .max, args => Eval.ask (extreme · .max ">" .gt args)
  | .sum, [v] => sumOf v (.int 0)
  | .sum, v :: start :: _ => sumOf v start
  | .str, [] => return .text ""
  | .str, v :: _ => Eval.ask fun s => .ok (.text (s.display v))
  | .repr, v :: _ => Eval.ask fun s => .ok (.text (s.repr v))
  | .int, [] => return .int 0
  | .int, v :: _ => Eval.ask (intOf · v)
  | .float, [] => return .float .zero
  | .float, v :: _ => Eval.ask (floatOf · v)
  | .bool, [] => return .bool false
  | .bool, v :: _ => Eval.ask fun s => .ok (.bool (s.truthy v))
  | .list, [] => Eval.list #[]
  | .list, v :: _ => Eval.list (← Eval.ask (·.items v))
  | .tuple, [] => Eval.tuple #[]
  | .tuple, .tuple ref :: _ => return .tuple ref
  | .tuple, v :: _ => Eval.tuple (← Eval.ask (·.items v))
  | .sorted, v :: _ => Eval.list (← Eval.ask fun s => do s.sort (← s.items v))
  | _, _ => return .none

def call (b : Builtin) (args : List Value) : Eval Value :=
  if b.arity.admits args.length then b.run args
  else Eval.fail (.builtinArity b.name b.arity args.length)

end Scratchpad.Builtin
