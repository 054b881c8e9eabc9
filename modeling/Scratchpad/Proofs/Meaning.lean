import Scratchpad.Code.Lower
import Scratchpad.Proofs.Machine.Run

/-!
# The meaning of trees

What expressions and statements do, said on the tree and not on code: operands from left to right,
`and` and `or` as far as they must, a chain of comparisons up to its first false link, loops by
their turns. Only the operators, the builtins and calls are those of the machine.
-/

namespace Scratchpad

/-- The local variables of one activation, and the world. -/
structure Scene (slots : Nat) where
  locals : Vector (Option Value) slots
  world : World

/-- A computation on a scene. `none` is one that never ends; a fault keeps what was done before. -/
abbrev Meaning (slots : Nat) := ExceptT Fault (StateT (Scene slots) Option)

namespace Meaning

def never : Meaning slots α := fun _ => none

def fault (f : Fault) : Meaning slots α := fun s => some (.error f, s)

def ofEval (x : Eval α) : Meaning slots α := fun s =>
  match x s.world with
  | .ok (a, world) => some (.ok a, { s with world })
  | .error (fault, world) => some (.error fault, { s with world })

theorem ofEval_ok {x : Eval α} (h : ∃ s s', (ofEval x : Meaning slots α) s = some (.ok a, s')) :
    ∃ w w', x w = .ok (a, w') := by
  obtain ⟨s, s', h⟩ := h
  unfold ofEval at h
  match done : x s.world with
  | .ok (b, w') =>
    rw [done] at h
    cases h
    exact ⟨s.world, _, done⟩
  | .error fault => rw [done] at h; cases h

theorem bind_apply (x : Meaning slots α) (f : α → Meaning slots β) (s : Scene slots) :
    (x >>= f) s =
      match x s with
      | some (.ok a, s') => f a s'
      | some (.error fault, s') => some (.error fault, s')
      | none => none := by
  change (x s).bind _ = _
  rcases x s with _ | ⟨_ | a, s'⟩
  all_goals rfl

theorem bind_ok {x : Meaning slots α} {f : α → Meaning slots β} {s s' : Scene slots} {b : β}
    (h : (x >>= f) s = some (.ok b, s')) :
    ∃ a s₁, x s = some (.ok a, s₁) ∧ f a s₁ = some (.ok b, s') := by
  rw [bind_apply] at h
  rcases first : x s with _ | ⟨_ | a, s₁⟩
  · rw [first] at h; cases h
  · rw [first] at h; cases h
  · rw [first] at h; exact ⟨a, s₁, rfl, h⟩

/-- A computation that has nothing to do with the local variables. -/
def ofWorld (x : World → Option (Except Fault α × World)) : Meaning slots α := fun s =>
  (x s.world).map fun (result, world) => (result, { s with world })

def truthy (v : Value) : Meaning slots Bool := return (← get).world.store.truthy v

end Meaning

/-- A machine about to call a value. -/
def Machine.calling (callee : Value) (args : List Value) (w : World) : Machine :=
  let code : Code :=
    { name := "", mode := .exec, instructions := #[.call args.length, .returnValue] }
  { frame := { Frame.enter code [] with stack := args.reverse ++ [callee] }, world := w }

theorem Value.call_eq (callee : Value) (args : List Value) (limit fuel : Nat) (w : World) :
    callee.call args limit fuel w = (Machine.calling callee args w).run limit fuel := rfl

/-- What a run comes to, less the place of a fault. -/
noncomputable def Machine.answer (limit : Nat) (m : Machine) : Option (Except Fault Value × World) :=
  (m.outcome limit).map fun e => (e.outcome.mapError (·.fault), e.world)

/-- Calls a value, at most `calls` deep. -/
noncomputable def Meaning.call (calls : Nat) (callee : Value) (args : List Value) : Meaning slots Value :=
  ofWorld fun w => (Machine.calling callee args w).answer calls

namespace Lower

namespace Context

abbrev slots (c : Context) : Nat := c.locals.length

/-- A name that is not local may be global, and one that is not global may be a builtin. -/
def lookup (c : Context) (s : Scene c.slots) (name : String) : Except Fault Value :=
  match c.locals.findIdx? (· = name) with
  | some slot =>
    match s.locals[slot]? with
    | some (some v) => .ok v
    | _ => .error (.unboundLocal name)
  | none =>
    match s.world.globals.get? name with
    | some v => .ok v
    | none =>
      match Builtin.ofName? name with
      | some b => .ok (.builtin b)
      | none => .error (.undefinedName name)

def bind (c : Context) (s : Scene c.slots) (name : String) (v : Value) : Scene c.slots :=
  match c.locals.findIdx? (· = name) with
  | some slot => { s with locals := s.locals.setIfInBounds slot (some v) }
  | none => { s with world.globals := s.world.globals.insert name v }

def load (c : Context) (name : String) : Meaning c.slots Value := fun s =>
  some (c.lookup s name, s)

def assign (c : Context) (name : String) (v : Value) : Meaning c.slots Unit := fun s =>
  some (.ok (), c.bind s name v)

end Context

end Lower

namespace Meaning

open Lower (Context)

/-! ### Expressions -/

/-- The truth of an operand that settles the operation. -/
def settling : BoolOp → Bool
  | .and => false
  | .or => true

/-- The first operand that settles it, or the last one. -/
def choice (op : BoolOp) (value : NodeId → Meaning slots Value) : List NodeId → Meaning slots Value
  | [] => never
  | [last] => value last
  | first :: others => do
    let v ← value first
    if (← truthy v) = settling op then return v else choice op value others

/-- A chain of comparisons from `left` on. Each operand is compared with the one before. -/
def links (value : NodeId → Meaning slots Value) (left : Value) :
    List (CompareOp × NodeId) → Meaning slots Value
  | [] => never
  | [(op, last)] => do
    let right ← value last
    return .bool (← ofEval (Eval.ask (Operator.compare · op left right)))
  | (op, next) :: others => do
    let right ← value next
    if ← ofEval (Eval.ask (Operator.compare · op left right)) then links value right others
    else return .bool false

/-- An expression, its operands being given a meaning by `value`. -/
noncomputable def expression (c : Context) (calls : Nat) (value : NodeId → Meaning c.slots Value) :
    NodeKind → Meaning c.slots Value
  | .literal l => return l.value
  | .name name => c.load name
  | .unary op operand => do
    let v ← value operand
    ofEval (Eval.ask (Operator.unary · op v))
  | .boolean op values => choice op value values
  | .compare left ops comparators => do
    let v ← value left
    links value v (ops.zip comparators)
  | .conditional test body orelse => do
    let v ← value test
    if ← truthy v then value body else value orelse
  | .named target operand => do
    let v ← value operand
    c.assign target v
    return v
  | .list elts => do
    let items ← elts.mapM value
    ofEval (Eval.list items.toArray)
  | .tuple elts => do
    let items ← elts.mapM value
    ofEval (Eval.tuple items.toArray)
  | .dict keys values => do
    let items ← ((keys.zip values).flatMap fun (key, value) => [key, value]).mapM value
    ofEval do Eval.dict (← Eval.ask (Frame.buildDict · items {}))
  | .binary left op right => do
    let a ← value left
    let b ← value right
    ofEval (Operator.binary op a b)
  | .call func args => do
    let callee ← value func
    let args ← args.mapM value
    call calls callee args
  | .attribute object attr => do
    let v ← value object
    ofEval (Subscript.loadAttribute v attr)
  | .subscript object index => do
    let v ← value object
    let key ← value index
    ofEval (Eval.ask (Subscript.load · v key))
  | _ => never

/-- The value of a node that nests at most so deep. -/
noncomputable def value (c : Context) (calls : Nat) : Nat → NodeId → Meaning c.slots Value
  | 0, _ => never
  | depth + 1, id =>
    match c.tree.kind? id with
    | some kind => expression c calls (value c calls depth) kind
    | none => never

/-! ### Targets -/

/-- The items of a value, if there are as many as expected. -/
def unpack (expected : Nat) (v : Value) : Eval (List Value) :=
  Eval.ask fun s => do
    let items ← s.items v
    if items.size < expected then .error (.tooFewToUnpack expected items.size)
    else if expected < items.size then .error (.tooManyToUnpack expected)
    else return items.toList

/-- Stores a value where a target says. -/
def target (c : Context) (value : NodeId → Meaning c.slots Value)
    (store : NodeId → Value → Meaning c.slots Unit) (v : Value) : NodeKind → Meaning c.slots Unit
  | .name name => c.assign name v
  | .subscript object index => do
    let o ← value object
    let key ← value index
    ofEval (Subscript.store o key v)
  | .attribute object attr => do
    let o ← value object
    fault (Subscript.storeAttribute o attr)
  | .tuple elts | .list elts => do
    let items ← ofEval (unpack elts.length v)
    (elts.zip items).forM fun (elt, item) => store elt item
  | _ => never

noncomputable def store (c : Context) (calls : Nat) : Nat → NodeId → Value → Meaning c.slots Unit
  | 0, _, _ => never
  | depth + 1, id, v =>
    match c.tree.kind? id with
    | some kind => target c (value c calls depth) (store c calls depth) v kind
    | none => never

/-- Reads a target, operates on it and writes it back; what it is made of is evaluated once. -/
def augmented (c : Context) (value : NodeId → Meaning c.slots Value) (op : BinaryOp)
    (operand : NodeId) : NodeKind → Meaning c.slots Unit
  | .name name => do
    let old ← c.load name
    let v ← value operand
    let new ← ofEval (Operator.binary op old v)
    c.assign name new
  | .subscript object index => do
    let o ← value object
    let key ← value index
    let old ← ofEval (Eval.ask (Subscript.load · o key))
    let v ← value operand
    let new ← ofEval (Operator.binary op old v)
    ofEval (Subscript.store o key new)
  | .attribute object attr => do
    let o ← value object
    let old ← ofEval (Subscript.loadAttribute o attr)
    let v ← value operand
    let _ ← ofEval (Operator.binary op old v)
    fault (Subscript.storeAttribute o attr)
  | _ => never

/-! ### Statements -/

/-- How a statement is left: to the next one, out of the loop, to the loop's next turn, or out of
the function. -/
inductive Flow where
  | next
  | leave
  | again
  | result (v : Value)

/-- What a loop makes of the way its body was left. -/
def Flow.turn (x : σ) : Flow → σ ⊕ Flow
  | .next | .again => .inl x
  | .leave => .inr .next
  | .result v => .inr (.result v)

/-- Takes turns until one gives a result, but not so many or more. -/
def turns (turn : σ → Meaning slots (σ ⊕ α)) : Nat → σ → Meaning slots α
  | 0, _ => never
  | n + 1, x => do
    match ← turn x with
    | .inl x => turns turn n x
    | .inr a => return a

/-- Takes turns until one gives a result, as many as it needs. -/
noncomputable def loop (turn : σ → Meaning slots (σ ⊕ α)) (x : σ) : Meaning slots α := fun s =>
  eventually fun n => turns turn n x s

theorem turns_succ {turn : σ → Meaning slots (σ ⊕ α)} {s : Scene slots} :
    turns turn (n + 1) x s =
      match turn x s with
      | some (.ok (.inl x), s) => turns turn n x s
      | some (.ok (.inr a), s) => some (.ok a, s)
      | some (.error fault, s) => some (.error fault, s)
      | none => none := by
  rw [turns, bind_apply]
  rcases turn x s with _ | ⟨_ | x | a, s⟩
  all_goals rfl

theorem turns_more {turn : σ → Meaning slots (σ ⊕ α)} {s : Scene slots}
    (h : turns turn n x s = some r) : turns turn (n + 1) x s = some r := by
  induction n generalizing x s with
  | zero => cases h
  | succ n ih =>
    rw [turns_succ] at h ⊢
    generalize turn x s = taken at h ⊢
    rcases taken with _ | ⟨_ | x | a, s⟩
    · exact h
    · exact h
    · exact ih h
    · exact h

theorem loop_eq_some_iff {turn : σ → Meaning slots (σ ⊕ α)} {s : Scene slots} :
    loop turn x s = some r ↔ ∃ n, turns turn n x s = some r :=
  eventually_eq_some_iff fun _ _ => turns_more

theorem loop_eq_none_iff {turn : σ → Meaning slots (σ ⊕ α)} {s : Scene slots} :
    loop turn x s = none ↔ ∀ n, turns turn n x s = none :=
  eventually_eq_none_iff

/-- Statements one after the other, up to one that is left otherwise. -/
def all (perform : NodeId → Meaning slots Flow) : List NodeId → Meaning slots Flow
  | [] => return .next
  | id :: ids => do
    match ← perform id with
    | .next => all perform ids
    | flow => return flow

def whileLoop (value : NodeId → Meaning slots Value) (perform : NodeId → Meaning slots Flow)
    (test : NodeId) (body : List NodeId) (_ : Unit) : Meaning slots (Unit ⊕ Flow) := do
  let v ← value test
  if ← truthy v then return (← all perform body).turn () else return .inr .next

def forLoop (store : NodeId → Value → Meaning slots Unit) (perform : NodeId → Meaning slots Flow)
    (target : NodeId) (body : List NodeId) (it : Iter) : Meaning slots (Iter ⊕ Flow) := do
  match (← get).world.store.next? it with
  | none => return .inr .next
  | some (item, it) =>
    store target item
    return (← all perform body).turn it

theorem forLoop_ended {store : NodeId → Value → Meaning slots Unit} {target : NodeId}
    {s : Scene slots} (h : s.world.store.next? it = none) :
    forLoop store perform target body it s = (pure (.inr .next) : Meaning slots (Iter ⊕ Flow)) s := by
  change (match s.world.store.next? it with | none => _ | some (_, _) => _ :
    Meaning slots (Iter ⊕ Flow)) s = _
  rw [h]

theorem forLoop_next {store : NodeId → Value → Meaning slots Unit} {target : NodeId}
    {s : Scene slots} (h : s.world.store.next? it = some (item, it')) :
    forLoop store perform target body it s =
      (do
        store target item
        return (← all perform body).turn it' : Meaning slots (Iter ⊕ Flow)) s := by
  change (match s.world.store.next? it with | none => _ | some (_, _) => _ :
    Meaning slots (Iter ⊕ Flow)) s = _
  rw [h]

/-- A statement, what it is made of being given a meaning. -/
noncomputable def statement (c : Context) (value : NodeId → Meaning c.slots Value)
    (store : NodeId → Value → Meaning c.slots Unit) (perform : NodeId → Meaning c.slots Flow)
    (span : Span) : NodeKind → Meaning c.slots Flow
  | .exprStmt operand => do
    let _ ← value operand
    return .next
  | .assign targets operand => do
    let v ← value operand
    targets.forM fun target => store target v
    return .next
  | .augAssign target op operand => do
    match c.tree.kind? target with
    | some kind => augmented c value op operand kind
    | none => never
    return .next
  | .functionDef name params body =>
    match Lower.function c (Lower.statement Lower.maxNesting) span name params body with
    | .ok code => do
      let f ← ofEval (Eval.make (·.newFunction ⟨code.name, code⟩))
      c.assign name f
      return .next
    | .error _ => never
  | .returnStmt none => return .result .none
  | .returnStmt (some operand) => do
    let v ← value operand
    return .result v
  | .ifStmt test body orelse => do
    let v ← value test
    if ← truthy v then all perform body else all perform orelse
  | .whileLoop test body => loop (whileLoop value perform test body) ()
  | .forLoop target iter body => do
    let v ← value iter
    let it ← ofEval (Eval.ask (·.iterate v))
    loop (forLoop store perform target body) it
  | .globalStmt _ | .passStmt => return .next
  | .breakStmt => return .leave
  | .continueStmt => return .again
  | _ => never

noncomputable def perform (c : Context) (calls : Nat) : Nat → NodeId → Meaning c.slots Flow
  | 0, _ => never
  | depth + 1, id =>
    match c.tree.get? id with
    | some n =>
      statement c (value c calls depth) (store c calls depth) (perform c calls depth) n.span n.kind
    | none => never

end Meaning

end Scratchpad
