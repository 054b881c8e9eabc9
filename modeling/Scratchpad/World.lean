import Scratchpad.Store

/-! What running code can see and change: the global names, the store, and the text printed. -/
namespace Scratchpad

/-- The global names with their values. -/
structure Globals where
  bindings : List (String × Value) := []

namespace Globals

def get? (g : Globals) (name : String) : Option Value := g.bindings.lookup name

def put (name : String) (v : Value) : List (String × Value) → List (String × Value)
  | [] => [(name, v)]
  | (n, old) :: rest => if n = name then (n, v) :: rest else (n, old) :: put name v rest

def insert (g : Globals) (name : String) (v : Value) : Globals := ⟨put name v g.bindings⟩

def erase (g : Globals) (name : String) : Globals := ⟨g.bindings.filter (·.1 ≠ name)⟩

/-- The bindings in order of their names. -/
def sorted (g : Globals) : List (String × Value) := g.bindings.mergeSort fun a b => !(b.1 < a.1)

end Globals

structure World where
  globals : Globals := {}
  store : Store := {}
  /-- All that was printed. -/
  output : String := ""

/-- A computation that may change the world or fail. A failed one leaves the world as it was when
it failed: what it had changed until then stays changed. -/
abbrev Eval := StateT World (Except (Fault × World))

namespace Eval

def fail (f : Fault) : Eval α := fun w => .error (f, w)

/-- What has nothing to do with the world leaves it alone. -/
def lift (x : Except Fault α) : Eval α := fun w =>
  match x with
  | .ok a => .ok (a, w)
  | .error f => .error (f, w)

instance : MonadLift (Except Fault) Eval := ⟨lift⟩

/-- Asks something of the store. -/
def ask (f : Store → Except Fault α) : Eval α := fun w => lift (f w.store) w

/-- Adds an object to the store. -/
def make (f : Store → α × Store) : Eval α := fun w =>
  let (a, store) := f w.store
  .ok (a, { w with store })

def list (items : Array Value) : Eval Value := make (·.newList items)

def tuple (items : Array Value) : Eval Value := make (·.newTuple items)

def dict (d : Dict) : Eval Value := make (·.newDict d)

def setList (ref : Nat) (items : Array Value) : Eval Unit := make fun s => ((), s.setList ref items)

def setDict (ref : Nat) (d : Dict) : Eval Unit := make fun s => ((), s.setDict ref d)

def print (text : String) : Eval Unit := fun w => .ok ((), { w with output := w.output ++ text })

end Eval

end Scratchpad
