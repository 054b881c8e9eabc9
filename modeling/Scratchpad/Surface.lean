import Scratchpad.Tree

/-! Surfacing the value of a program. The last statement is made to store its value under a name
that no program can spell, where it is picked up after the run. -/
namespace Scratchpad

/-- Which last statement has a value: an expression, an assignment too, or none. -/
inductive ReturnMode where
  | lastExpr | lastExprOrAssign | none
deriving Repr, DecidableEq, Inhabited

namespace ReturnMode

def all : List ReturnMode := [lastExpr, lastExprOrAssign, none]

def name : ReturnMode → String
  | lastExpr => "last_expr"
  | lastExprOrAssign => "last_expr_or_assign"
  | none => "none"

def ofName (name : String) : Except UnknownName ReturnMode :=
  match all.find? (·.name = name) with
  | some mode => .ok mode
  | Option.none => .error ⟨"return_mode", name, all.map ReturnMode.name⟩

end ReturnMode

namespace Surface

/-- Where the value is stored during a run. -/
def resultName : String := "<result>"

def isName (t : Tree) (id : NodeId) : Bool :=
  match t.kind? id with
  | some (.name _) => true
  | _ => false

def pushTarget (t : Tree) : NodeId × Tree := t.push (.name resultName)

/-- `v` becomes `<result> = v`. -/
def ofExpr (t : Tree) (last value : NodeId) : Tree :=
  let (target, t) := pushTarget t
  t.setKind last (.assign [target] value)

/-- `a = v` becomes `a = <result> = v`, if all the targets are names. -/
def ofAssign? (t : Tree) (last : NodeId) (targets : List NodeId) (value : NodeId) : Option Tree :=
  if targets.isEmpty || !targets.all (isName t) then none
  else
    let (target, t) := pushTarget t
    some (t.setKind last (.assign (targets ++ [target]) value))

/-- `a += v` becomes `a = <result> = a + v`, if the target is a name. -/
def ofAugAssign? (t : Tree) (last target : NodeId) (op : BinaryOp) (value : NodeId) (span : Span) :
    Option Tree :=
  match t.get? target with
  | some ⟨.name id, targetSpan⟩ =>
    let (current, t) := t.push (.name id) targetSpan
    let (combined, t) := t.push (.binary current op value) span
    let (result, t) := pushTarget t
    some (t.setKind last (.assign [target, result] combined))
  | _ => none

/-- The tree with its value surfaced; none, if there is no value to surface. -/
def capture? (mode : ReturnMode) (t : Tree) : Option Tree := do
  let last ← t.body.getLast?
  let node ← t.get? last
  match mode, node.kind with
  | .none, _ => none
  | _, .exprStmt value => some (ofExpr t last value)
  | .lastExprOrAssign, .assign targets value => ofAssign? t last targets value
  | .lastExprOrAssign, .augAssign target op value => ofAugAssign? t last target op value node.span
  | _, _ => none

end Surface

end Scratchpad
