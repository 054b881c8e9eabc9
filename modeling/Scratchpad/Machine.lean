import Scratchpad.Builtin
import Scratchpad.Method

/-! The machine that runs compiled code. It trusts nothing about the code: whatever breaks its
rules ends the run with a fault. `step` does one instruction, `run` goes on to the end. -/
namespace Scratchpad

/-- One activation of some code. -/
structure Frame where
  code : Code
  pc : Nat := 0
  /-- The top of the stack comes first. -/
  stack : List Value := []
  locals : Array (Option Value) := #[]
  /-- The innermost iterator comes first. -/
  iterators : List Iter := []

namespace Frame

/-- The arguments fill the first slots. -/
def enter (code : Code) (args : List Value) : Frame where
  code
  locals := (List.range code.locals.size).map (args[·]?) |>.toArray

def push (f : Frame) (v : Value) : Frame := { f with stack := v :: f.stack }

def underflow (f : Frame) : Fault := .broken (.stackUnderflow f.code.name)

def pop (f : Frame) : Except Fault (Value × Frame) :=
  match f.stack with
  | v :: stack => .ok (v, { f with stack })
  | [] => .error f.underflow

/-- Takes `n` values off the stack, the lowest first. -/
def popN (f : Frame) (n : Nat) : Except Fault (List Value × Frame) :=
  if n ≤ f.stack.length then
    .ok ((f.stack.take n).reverse, { f with stack := f.stack.drop n })
  else .error f.underflow

def constant (f : Frame) (i : Nat) : Except Fault Constant :=
  match f.code.constants[i]? with
  | some c => .ok c
  | none => .error (.broken (.badIndex .constants i))

def name (f : Frame) (i : Nat) : Except Fault String :=
  match f.code.names[i]? with
  | some n => .ok n
  | none => .error (.broken (.badIndex .names i))

def next (f : Frame) : Frame := { f with pc := f.pc + 1 }

def jump (f : Frame) (target : Nat) : Frame := { f with pc := target }

def branch (f : Frame) (taken : Bool) (target : Nat) : Frame :=
  if taken then f.jump target else f.next

end Frame

def Literal.value : Literal → Value
  | .none => .none
  | .bool b => .bool b
  | .int n => .int n
  | .float d => .float d
  | .text s => .text s

/-- What an instruction leads to. -/
inductive Turn where
  | go (f : Frame)
  /-- The frame waits for the function's value. -/
  | call (function : Function) (args : List Value) (f : Frame)
  | leave (v : Value)

namespace Frame

def loadConst (f : Frame) (i : Nat) : Except Fault Frame := do
  match ← f.constant i with
  | .literal l => return f.push l.value
  | .code c => .error (.broken (.codeAsValue c.name))

/-- A name that is not global may be a builtin. -/
def loadName (f : Frame) (w : World) (i : Nat) : Except Fault Frame := do
  let name ← f.name i
  match w.globals.get? name with
  | some v => return f.push v
  | none =>
    match Builtin.ofName? name with
    | some b => return f.push (.builtin b)
    | none => .error (.undefinedName name)

def loadFast (f : Frame) (i : Nat) : Except Fault Frame :=
  match f.locals[i]? with
  | some (some v) => .ok (f.push v)
  | some none => .error (.unboundLocal (f.code.locals[i]?.getD "?"))
  | none => .error (.broken (.badIndex .locals i))

def storeFast (f : Frame) (i : Nat) : Except Fault Frame := do
  let (v, f) ← f.pop
  if i < f.locals.size then return { f with locals := f.locals.setIfInBounds i (some v) }
  else .error (.broken (.badIndex .locals i))

/-- Puts as many items as expected on the stack, the first on top. -/
def unpack (f : Frame) (s : Store) (expected : Nat) : Except Fault Frame := do
  let (v, f) ← f.pop
  let items ← s.items v
  if items.size < expected then .error (.tooFewToUnpack expected items.size)
  else if expected < items.size then .error (.tooManyToUnpack expected)
  else return { f with stack := items.toList ++ f.stack }

def buildDict (s : Store) : List Value → Dict → Except Fault Dict
  | key :: value :: rest, d => do buildDict s rest (← s.inserted d key value)
  | _, d => .ok d

def shuffle (f : Frame) : Instr → Except Fault Frame
  | .dupTop =>
    match f.stack with
    | a :: rest => .ok { f with stack := a :: a :: rest }
    | _ => .error f.underflow
  | .dupTwo =>
    match f.stack with
    | a :: b :: rest => .ok { f with stack := a :: b :: a :: b :: rest }
    | _ => .error f.underflow
  | .rotTwo =>
    match f.stack with
    | a :: b :: rest => .ok { f with stack := b :: a :: rest }
    | _ => .error f.underflow
  | .rotThree =>
    match f.stack with
    | a :: b :: c :: rest => .ok { f with stack := b :: c :: a :: rest }
    | _ => .error f.underflow
  | _ => .ok f

def forIter (f : Frame) (s : Store) (target : Nat) : Except Fault Frame :=
  match f.iterators with
  | [] => .error (.broken (.noIterator f.code.name))
  | it :: outer =>
    match s.next? it with
    | some (item, it) => .ok ({ f with iterators := it :: outer }.push item).next
    | none => .ok ({ f with iterators := outer }.jump target)

def call (f : Frame) (count : Nat) : Eval Turn := do
  let (args, f) ← f.popN count
  let (callee, f) ← f.pop
  match callee with
  | .function ref =>
    match ← Eval.ask fun s => .ok s.functions[ref]? with
    | some function => return .call function args f
    | none => Eval.fail (.notCallable callee.typeName)
  | .builtin b => return .go (f.push (← b.call args)).next
  | .method ref =>
    match ← Eval.ask fun s => .ok s.methods[ref]? with
    | some m => return .go (f.push (← Method.call m.receiver m.method args)).next
    | none => Eval.fail (.notCallable callee.typeName)
  | v => Eval.fail (.notCallable v.typeName)

/-- Does one instruction. -/
def exec (f : Frame) (i : Instr) : Eval Turn := do
  match i with
  | .loadConst i => return .go (← f.loadConst i).next
  | .loadName i => return .go (← f.loadName (← get) i).next
  | .storeName i =>
    let name ← f.name i
    let (v, f) ← f.pop
    modify fun w => { w with globals := w.globals.insert name v }
    return .go f.next
  | .loadFast i => return .go (← f.loadFast i).next
  | .storeFast i => return .go (← f.storeFast i).next
  | .loadAttr i =>
    let name ← f.name i
    let (object, f) ← f.pop
    return .go (f.push (← Subscript.loadAttribute object name)).next
  | .storeAttr i =>
    let name ← f.name i
    let (object, f) ← f.pop
    let _ ← f.pop
    Eval.fail (Subscript.storeAttribute object name)
  | .loadSubscript =>
    let (key, f) ← f.pop
    let (object, f) ← f.pop
    return .go (f.push (← Eval.ask (Subscript.load · object key))).next
  | .storeSubscript =>
    let (key, f) ← f.pop
    let (object, f) ← f.pop
    let (v, f) ← f.pop
    Subscript.store object key v
    return .go f.next
  | .binary op =>
    let (right, f) ← f.pop
    let (left, f) ← f.pop
    return .go (f.push (← Operator.binary op left right)).next
  | .unary op =>
    let (v, f) ← f.pop
    return .go (f.push (← Eval.ask (Operator.unary · op v))).next
  | .compare op =>
    let (right, f) ← f.pop
    let (left, f) ← f.pop
    return .go (f.push (.bool (← Eval.ask (Operator.compare · op left right)))).next
  | .buildList n =>
    let (items, f) ← f.popN n
    return .go (f.push (← Eval.list items.toArray)).next
  | .buildTuple n =>
    let (items, f) ← f.popN n
    return .go (f.push (← Eval.tuple items.toArray)).next
  | .buildDict n =>
    let (items, f) ← f.popN (2 * n)
    return .go (f.push (← Eval.dict (← Eval.ask (buildDict · items {})))).next
  | .unpack n => return .go (← f.unpack (← get).store n).next
  | .call n => f.call n
  | .makeFunction i =>
    match ← f.constant i with
    | .code c => return .go (f.push (← Eval.make (·.newFunction ⟨c.name, c⟩))).next
    | .literal _ => Eval.fail (.broken (.notCode i))
  | .pop =>
    let (_, f) ← f.pop
    return .go f.next
  | .dupTop | .dupTwo | .rotTwo | .rotThree => return .go (← f.shuffle i).next
  | .jump target => return .go (f.jump target)
  | .popJumpIfFalse target =>
    let (v, f) ← f.pop
    return .go (f.branch (!(← get).store.truthy v) target)
  | .popJumpIfTrue target =>
    let (v, f) ← f.pop
    return .go (f.branch ((← get).store.truthy v) target)
  | .jumpIfFalseOrPop target =>
    let (v, rest) ← f.pop
    return .go (if (← get).store.truthy v then rest.next else f.jump target)
  | .jumpIfTrueOrPop target =>
    let (v, rest) ← f.pop
    return .go (if (← get).store.truthy v then f.jump target else rest.next)
  | .getIter =>
    let (v, f) ← f.pop
    let it ← Eval.ask (·.iterate v)
    return .go { f with iterators := it :: f.iterators }.next
  | .forIter target => return .go (← f.forIter (← get).store target)
  | .popIter =>
    match f.iterators with
    | _ :: outer => return .go { f with iterators := outer }.next
    | [] => Eval.fail (.broken (.noIterator f.code.name))
  | .returnValue =>
    let (v, _) ← f.pop
    return .leave v

end Frame

/-- A fault and the place in the source that it is blamed on. -/
structure Failure where
  fault : Fault
  span : Option Span
deriving DecidableEq

/-- A run in progress. The callers wait at their calls, the latest first. -/
structure Machine where
  frame : Frame
  callers : List Frame := []
  world : World

/-- How a run ended, and the world it left. -/
structure Ending where
  outcome : Except Failure Value
  world : World

namespace Machine

/-- The innermost instruction that has a place is to blame. -/
def blame? (m : Machine) (pc : Nat) : Option Span :=
  ((m.frame.code, pc) :: m.callers.map fun f => (f.code, f.pc)).findSome? fun (code, pc) =>
    code.spanAt? pc

def failing (m : Machine) (fault : Fault) (pc : Nat) : Ending :=
  ⟨.error ⟨fault, m.blame? pc⟩, m.world⟩

/-- Starts a function unless it would be called wrongly or too deeply. -/
def enter (m : Machine) (limit : Nat) (function : Function) (args : List Value) (caller : Frame) :
    Except Fault Machine :=
  if args.length ≠ function.code.argCount then
    .error (.functionArity function.name function.code.argCount args.length)
  else if limit ≤ m.callers.length then .error .tooManyCalls
  else .ok { m with frame := .enter function.code args, callers := caller :: m.callers }

/-- Hands a value to the latest caller. -/
def leave (m : Machine) (v : Value) : Ending ⊕ Machine :=
  match m.callers with
  | [] => .inl ⟨.ok v, m.world⟩
  | caller :: callers => .inr { m with frame := (caller.push v).next, callers }

/-- One instruction: the run ends or goes on. -/
def step (limit : Nat) (m : Machine) : Ending ⊕ Machine :=
  match m.frame.code.instructions[m.frame.pc]? with
  | none =>
    .inl (m.failing (.broken (.strayPointer m.frame.pc m.frame.code.name)) (m.frame.pc - 1))
  | some i =>
    match m.frame.exec i m.world with
    | .error (fault, world) => .inl ({ m with world }.failing fault m.frame.pc)
    | .ok (.go frame, world) => .inr { m with frame, world }
    | .ok (.leave v, world) => { m with world }.leave v
    | .ok (.call function args caller, world) =>
      match { m with world }.enter limit function args caller with
      | .error fault => .inl ({ m with world }.failing fault m.frame.pc)
      | .ok next => .inr next

/-- Goes on for at most `fuel` instructions. -/
def run (limit : Nat) : Nat → Machine → Option Ending
  | 0, _ => none
  | fuel + 1, m =>
    match m.step limit with
    | .inl ending => some ending
    | .inr m => run limit fuel m

end Machine

/-- Runs code from its first instruction. -/
def Code.run (c : Code) (limit fuel : Nat) (w : World) : Option Ending :=
  Machine.run limit fuel { frame := .enter c [], world := w }

/-- Calls a value. -/
def Value.call (v : Value) (args : List Value) (limit fuel : Nat) (w : World) : Option Ending :=
  let code : Code :=
    { name := "", mode := .exec, instructions := #[.call args.length, .returnValue] }
  Machine.run limit fuel
    { frame := { Frame.enter code [] with stack := args.reverse ++ [v] }, world := w }

end Scratchpad
