import Scratchpad.Operator
import Scratchpad.Subscript
import Scratchpad.Text.Blank
import Scratchpad.Text.LetterCase

/-! The methods of lists, dicts and texts. -/
namespace Scratchpad.Method

def arity : Method → Arity
  | .list .append | .list .extend | .list .index | .list .count => ⟨1, some 1⟩
  | .list .pop => ⟨0, some 1⟩
  | .list .insert => ⟨2, some 2⟩
  | .list .reverse | .list .sort => ⟨0, some 0⟩
  | .dict .get => ⟨1, some 2⟩
  | .dict .keys | .dict .values | .dict .items => ⟨0, some 0⟩
  | .text .upper | .text .lower => ⟨0, some 0⟩
  | .text .strip | .text .split => ⟨0, some 1⟩
  | .text .join | .text .startswith | .text .endswith => ⟨1, some 1⟩
  | .text .replace => ⟨2, some 2⟩

/-- The place that `insert` puts an item at; beyond the ends it is the end. -/
def insertPlace (index : Int) (size : Nat) : Nat :=
  if index < 0 then (index + size).toNat else min index.toNat size

/-- The place that `pop` takes an item from; the last one, if no index is given. -/
def popPlace (items : Array Value) : List Value → Except Fault Nat
  | [] => .ok (items.size - 1)
  | key :: _ => do
    match Subscript.place? (← Subscript.index "list" key) items.size with
    | some i => return i
    | none => .error .popOutOfRange

/-- The value of a method and, if it changes the list, the list after it. With as many arguments
as the arity admits, the last case is not reached. -/
def runList (s : Store) (items : Array Value) (m : ListMethod) (args : List Value) :
    Except Fault (Value × Option (Array Value)) := do
  match m, args with
  | .append, item :: _ => return (.none, some (items.push item))
  | .pop, args =>
    if items.isEmpty then .error .popEmpty
    else
      let i ← popPlace items args
      return (items[i]?.getD .none, some (items.eraseIdxIfInBounds i))
  | .extend, more :: _ => return (.none, some (items ++ (← s.items more)))
  | .insert, key :: item :: _ =>
    let i := insertPlace (← Subscript.index "list" key) items.size
    return (.none, some (items.insertIdxIfInBounds i item))
  | .index, item :: _ =>
    match ← s.position? item items.toList with
    | some i => return (.int (.ofNat i), none)
    | none => .error (.notInList (s.repr item))
  | .count, item :: _ =>
    let equal ← items.toList.filterM (s.equal · item)
    return (.int (.ofNat equal.length), none)
  | .reverse, _ => return (.none, some items.reverse)
  | .sort, _ => return (.none, some (← s.sort items))
  | _, _ => return (.none, none)

def runDict (d : Dict) (m : DictMethod) (args : List Value) : Eval Value := do
  match m, args with
  | .get, key :: default =>
    return (← Eval.ask (·.lookup d key)).getD (default.head?.getD .none)
  | .get, [] => return .none
  | .keys, _ => Eval.list d.keys.toArray
  | .values, _ => Eval.list d.values.toArray
  | .items, _ => Eval.list (← d.entries.mapM fun e => Eval.tuple #[e.key, e.value]).toArray

def textArg (m : TextMethod) (v : Value) : Except Fault (List Char) :=
  match v with
  | .text t => .ok t.toList
  | v => .error (.notText (Method.text m).name v.typeName)

/-- The texts to join, from the item numbered `index` on; stops at the first that is no text. -/
def joinParts (s : Store) : Nat → Nat → Iter → Except Fault (List (List Char))
  | 0, _, _ => .ok []
  | left + 1, index, it =>
    match s.next? it with
    | none => .ok []
    | some (.text t, rest) => return t.toList :: (← joinParts s left (index + 1) rest)
    | some (v, _) => .error (.joinItem index v.typeName)

inductive TextResult where
  | text (s : List Char)
  | parts (pieces : List (List Char))
  | bool (b : Bool)

/-- With as many arguments as the arity admits, the last case is not reached. -/
def runText (s : Store) (t : List Char) (m : TextMethod) (args : List Value) :
    Except Fault TextResult := do
  match m, args with
  | .upper, _ => return .text (Text.upper t)
  | .lower, _ => return .text (Text.lower t)
  | .strip, [] | .strip, .none :: _ => return .text (Text.trim t)
  | .strip, chars :: _ =>
    let chars ← textArg m chars
    return .text (Text.trimWhile (· ∈ chars) t)
  | .split, [] | .split, .none :: _ => return .parts (Text.words t)
  | .split, sep :: _ =>
    let sep ← textArg m sep
    if sep.isEmpty then .error .emptySeparator else return .parts (Text.split t sep)
  | .join, v :: _ =>
    let it ← s.iterate v
    return .text (Text.join t (← joinParts s (s.remaining it) 0 it))
  | .replace, old :: new :: _ =>
    let old ← textArg m old
    let new ← textArg m new
    return .text (Text.substitute t old new)
  | .startswith, start :: _ => return .bool (Text.startsWith t (← textArg m start))
  | .endswith, tail :: _ => return .bool (Text.endsWith t (← textArg m tail))
  | _, _ => return .text t

def TextResult.value : TextResult → Eval Value
  | .text s => return .text (.ofList s)
  | .parts pieces => Eval.list (pieces.map fun p => .text (.ofList p)).toArray
  | .bool b => return .bool b

/-- Calls a method on its receiver. -/
def call (receiver : Value) (m : Method) (args : List Value) : Eval Value := do
  if !m.arity.admits args.length then
    Eval.fail (.methodArity receiver.typeName m.name m.arity args.length)
  else match receiver, m with
    | .list ref, .list m =>
      let (v, after?) ← Eval.ask fun s => runList s (s.list ref) m args
      if let some after := after? then Eval.setList ref after
      return v
    | .dict ref, .dict m => runDict (← Eval.ask fun s => .ok (s.dict ref)) m args
    | .text t, .text m => (← Eval.ask fun s => runText s t.toList m args).value
    | _, _ => Eval.fail (.noAttribute receiver.typeName m.name)

/-- Calls the method of a name. -/
def callNamed (receiver : Value) (name : String) (args : List Value) : Eval Value :=
  match receiver.method? name with
  | some m => call receiver m args
  | none => Eval.fail (.noAttribute receiver.typeName name)

end Scratchpad.Method
