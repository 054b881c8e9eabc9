import Scratchpad.Decimal.Reading
import Scratchpad.Fault

/-! Values. Scalars hold their content; lists, tuples, dicts, functions and bound methods are
references into a store, so that two values are one object when they are equal here. -/
namespace Scratchpad

/-- The numbers from `start` on, `step` apart, before `stop`. -/
structure Range where
  start : Int64
  stop : Int64
  step : Int64
deriving Repr, DecidableEq

namespace Range

/-- How many numbers the range has; none if the step is 0. -/
def count (r : Range) : Nat :=
  let start := r.start.toInt
  let stop := r.stop.toInt
  let step := r.step.toInt
  if 0 < step ∧ start < stop then ((stop - start - 1) / step + 1).toNat
  else if step < 0 ∧ stop < start then ((start - stop - 1) / (-step) + 1).toNat
  else 0

/-- The length as the language sees it: the count in 64 bits, which wraps around. -/
def length (r : Range) : Int64 := .ofNat r.count

/-- The number at a position. -/
def item (r : Range) (k : Int) : Int64 := .ofInt (r.start.toInt + r.step.toInt * k)

def contains (r : Range) (n : Int64) : Bool :=
  let inside := if 0 < r.step.toInt then r.start ≤ n && n < r.stop else r.stop < n && n ≤ r.start
  inside && (n.toInt - r.start.toInt) % r.step.toInt == 0

end Range

inductive Builtin where
  | print | len | range | abs | min | max | sum | str | repr | int | float | bool | list | tuple
  | sorted
deriving Repr, DecidableEq

namespace Builtin

def all : List Builtin :=
  [print, len, range, abs, min, max, sum, str, repr, int, float, bool, list, tuple, sorted]

def name : Builtin → String
  | print => "print"
  | len => "len"
  | range => "range"
  | abs => "abs"
  | min => "min"
  | max => "max"
  | sum => "sum"
  | str => "str"
  | repr => "repr"
  | int => "int"
  | float => "float"
  | bool => "bool"
  | list => "list"
  | tuple => "tuple"
  | sorted => "sorted"

def ofName? (name : String) : Option Builtin := all.find? (·.name = name)

end Builtin

inductive ListMethod where
  | append | pop | extend | insert | index | count | reverse | sort
deriving Repr, DecidableEq

inductive DictMethod where
  | get | keys | values | items
deriving Repr, DecidableEq

inductive TextMethod where
  | upper | lower | strip | split | join | replace | startswith | endswith
deriving Repr, DecidableEq

inductive Method where
  | list (m : ListMethod)
  | dict (m : DictMethod)
  | text (m : TextMethod)
deriving Repr, DecidableEq

def Method.name : Method → String
  | .list .append => "append"
  | .list .pop => "pop"
  | .list .extend => "extend"
  | .list .insert => "insert"
  | .list .index => "index"
  | .list .count => "count"
  | .list .reverse => "reverse"
  | .list .sort => "sort"
  | .dict .get => "get"
  | .dict .keys => "keys"
  | .dict .values => "values"
  | .dict .items => "items"
  | .text .upper => "upper"
  | .text .lower => "lower"
  | .text .strip => "strip"
  | .text .split => "split"
  | .text .join => "join"
  | .text .replace => "replace"
  | .text .startswith => "startswith"
  | .text .endswith => "endswith"

def Method.ofList : List Method :=
  [.append, .pop, .extend, .insert, .index, .count, .reverse, .sort].map Method.list

def Method.ofDict : List Method := [.get, .keys, .values, .items].map Method.dict

def Method.ofText : List Method :=
  [.upper, .lower, .strip, .split, .join, .replace, .startswith, .endswith].map Method.text

inductive Value where
  | none
  | bool (b : Bool)
  | int (n : Int64)
  | float (d : Double)
  | text (s : String)
  | range (r : Range)
  | builtin (b : Builtin)
  | list (ref : Nat)
  | tuple (ref : Nat)
  | dict (ref : Nat)
  | function (ref : Nat)
  | method (ref : Nat)
deriving DecidableEq

namespace Value

def typeName : Value → String
  | none => "NoneType"
  | bool _ => "bool"
  | int _ => "int"
  | float _ => "float"
  | text _ => "str"
  | range _ => "range"
  | builtin _ | method _ => "builtin_function_or_method"
  | list _ => "list"
  | tuple _ => "tuple"
  | dict _ => "dict"
  | function _ => "function"

def isCallable : Value → Bool
  | function _ | builtin _ | method _ => true
  | _ => false

/-- Integers, and the booleans as 0 and 1. -/
def int? : Value → Option Int64
  | int n => some n
  | bool b => some (if b then 1 else 0)
  | _ => Option.none

/-- Any number as a double. -/
def float? : Value → Option Double
  | float d => some d
  | int n => some (.ofInt n)
  | bool b => some (.ofInt (if b then 1 else 0))
  | _ => Option.none

def text? : Value → Option String
  | text s => some s
  | _ => Option.none

/-- Are the two one object? No range is, not even to itself. -/
def isSame (a b : Value) : Bool :=
  match a with
  | range _ => false
  | _ => a = b

def methods : Value → List Method
  | list _ => Method.ofList
  | dict _ => Method.ofDict
  | text _ => Method.ofText
  | _ => []

def method? (v : Value) (name : String) : Option Method := v.methods.find? (·.name = name)

end Value

end Scratchpad
