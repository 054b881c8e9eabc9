import Scratchpad.Store.Equality

/-! The order of values, and sorting by it. Numbers, texts and sequences of one type have an
order; no answer means that a number that is no number was met. -/
namespace Scratchpad.Store

def numberOrder? (a b : Value) : Option (Option Ordering) :=
  match a.int?, b.int? with
  | some m, some n => some (some (compare m.toInt n.toInt))
  | _, _ =>
    match a.float?, b.float? with
    | some x, some y => some (x.order? y)
    | _, _ => none

/-- The order of the first items that differ, or else of the lengths. -/
def itemsOrder (equal : Value → Value → Except Fault Bool)
    (order : Value → Value → Except Fault (Option Ordering)) :
    List Value → List Value → Except Fault (Option Ordering)
  | x :: xs, y :: ys => do
    if ← equal x y then itemsOrder equal order xs ys else order x y
  | [], [] => .ok (some .eq)
  | [], _ :: _ => .ok (some .lt)
  | _ :: _, [] => .ok (some .gt)

/-- The symbol is that of the comparison asked for, which a failure names. -/
def orderAt (s : Store) (symbol : String) : Nat → Value → Value → Except Fault (Option Ordering)
  | _, .text a, .text b => .ok (some (compare a b))
  | 0, .list _, .list _ | 0, .tuple _, .tuple _ => .error (.tooDeep "comparison")
  | room + 1, .list a, .list b =>
    itemsOrder s.equal (s.orderAt symbol room) (s.list a).toList (s.list b).toList
  | room + 1, .tuple a, .tuple b =>
    itemsOrder s.equal (s.orderAt symbol room) (s.tuple a).toList (s.tuple b).toList
  | _, a, b =>
    match numberOrder? a b with
    | some order => .ok order
    | none => .error (.unordered symbol a.typeName b.typeName)

def order (s : Store) (symbol : String) (a b : Value) : Except Fault (Option Ordering) :=
  s.orderAt symbol maxDepth a b

/-- Puts an item into sorted items, latest first, comparing it with each on its way. -/
def insertSorted (s : Store) (item : Value) : List Value → Except Fault (List Value)
  | [] => .ok [item]
  | x :: xs => do
    if (← s.order "<" item x) = some .lt then return x :: (← insertSorted s item xs)
    else return item :: x :: xs

/-- Stable: items without an order between them stay as they are. -/
def sort (s : Store) (items : Array Value) : Except Fault (Array Value) :=
  return (← items.toList.foldlM (fun sorted item => s.insertSorted item sorted) []).reverse.toArray

end Scratchpad.Store
