import Scratchpad.Code
import Scratchpad.Value

/-! The store: what the references of values stand for. Objects are only ever added, and only
lists and dicts change. -/
namespace Scratchpad

/-- What a dict compares keys by. Numbers of equal value have one key. -/
inductive Key where
  | none
  | int (n : Int64)
  | float (bits : UInt64)
  | text (s : String)
  | tuple (items : List Key)
  | function (ref : Nat)

namespace Key

mutual

def decEq : (a b : Key) → Decidable (a = b)
  | .none, .none => isTrue rfl
  | .int m, .int n => if h : m = n then isTrue (h ▸ rfl) else isFalse (by simp [h])
  | .float m, .float n => if h : m = n then isTrue (h ▸ rfl) else isFalse (by simp [h])
  | .text s, .text t => if h : s = t then isTrue (h ▸ rfl) else isFalse (by simp [h])
  | .function m, .function n => if h : m = n then isTrue (h ▸ rfl) else isFalse (by simp [h])
  | .tuple xs, .tuple ys =>
    match decEqList xs ys with
    | isTrue h => isTrue (h ▸ rfl)
    | isFalse h => isFalse (by simp [h])
  | .none, .int _ | .none, .float _ | .none, .text _ | .none, .tuple _ | .none, .function _
  | .int _, .none | .int _, .float _ | .int _, .text _ | .int _, .tuple _ | .int _, .function _
  | .float _, .none | .float _, .int _ | .float _, .text _ | .float _, .tuple _
  | .float _, .function _ | .text _, .none | .text _, .int _ | .text _, .float _
  | .text _, .tuple _ | .text _, .function _ | .tuple _, .none | .tuple _, .int _
  | .tuple _, .float _ | .tuple _, .text _ | .tuple _, .function _ | .function _, .none
  | .function _, .int _ | .function _, .float _ | .function _, .text _ | .function _, .tuple _ =>
    isFalse nofun

def decEqList : (xs ys : List Key) → Decidable (xs = ys)
  | [], [] => isTrue rfl
  | [], _ :: _ | _ :: _, [] => isFalse nofun
  | x :: xs, y :: ys =>
    match decEq x y, decEqList xs ys with
    | isTrue h, isTrue hs => isTrue (h ▸ hs ▸ rfl)
    | isFalse h, _ => isFalse (by simp [h])
    | _, isFalse hs => isFalse (by simp [hs])

end

instance : DecidableEq Key := decEq

end Key

structure Entry where
  hash : Key
  key : Value
  value : Value

/-- A mapping in order of insertion; no two entries have one hash. -/
structure Dict where
  entries : List Entry := []

namespace Dict

def size (d : Dict) : Nat := d.entries.length

def find? (d : Dict) (hash : Key) : Option Value :=
  (d.entries.find? (·.hash = hash)).map (·.value)

/-- The entries after an insertion. An entry that is there keeps its place and its key. -/
def put (hash : Key) (key value : Value) : List Entry → List Entry
  | [] => [⟨hash, key, value⟩]
  | e :: rest =>
    if e.hash = hash then { e with value } :: rest else e :: put hash key value rest

def insert (d : Dict) (hash : Key) (key value : Value) : Dict := ⟨put hash key value d.entries⟩

def keys (d : Dict) : List Value := d.entries.map (·.key)

def values (d : Dict) : List Value := d.entries.map (·.value)

end Dict

structure Function where
  name : String
  code : Code

/-- A method looked up on a value, waiting to be called. -/
structure BoundMethod where
  receiver : Value
  method : Method

structure Store where
  lists : Array (Array Value) := #[]
  tuples : Array (Array Value) := #[]
  dicts : Array Dict := #[]
  functions : Array Function := #[]
  methods : Array BoundMethod := #[]

namespace Store

/-- The items of a list; a reference to nothing reads as the empty list. -/
def list (s : Store) (ref : Nat) : Array Value := s.lists[ref]?.getD #[]

def tuple (s : Store) (ref : Nat) : Array Value := s.tuples[ref]?.getD #[]

def dict (s : Store) (ref : Nat) : Dict := s.dicts[ref]?.getD {}

def setList (s : Store) (ref : Nat) (items : Array Value) : Store :=
  { s with lists := s.lists.setIfInBounds ref items }

def setDict (s : Store) (ref : Nat) (d : Dict) : Store :=
  { s with dicts := s.dicts.setIfInBounds ref d }

def newList (s : Store) (items : Array Value) : Value × Store :=
  (.list s.lists.size, { s with lists := s.lists.push items })

def newTuple (s : Store) (items : Array Value) : Value × Store :=
  (.tuple s.tuples.size, { s with tuples := s.tuples.push items })

def newDict (s : Store) (d : Dict) : Value × Store :=
  (.dict s.dicts.size, { s with dicts := s.dicts.push d })

def newFunction (s : Store) (f : Function) : Value × Store :=
  (.function s.functions.size, { s with functions := s.functions.push f })

def newMethod (s : Store) (m : BoundMethod) : Value × Store :=
  (.method s.methods.size, { s with methods := s.methods.push m })

def truthy (s : Store) : Value → Bool
  | .none => false
  | .bool b => b
  | .int n => n ≠ 0
  | .float d => !d.isZero
  | .text t => t ≠ ""
  | .range r => 0 < r.length
  | .list ref => (s.list ref).size ≠ 0
  | .tuple ref => (s.tuple ref).size ≠ 0
  | .dict ref => (s.dict ref).size ≠ 0
  | .builtin _ | .function _ | .method _ => true

end Store

end Scratchpad
