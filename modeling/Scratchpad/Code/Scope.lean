import Scratchpad.Tree

/-! The names that a function binds. Nodes are visited in the order of the source, each at most
once; the bodies of functions inside are not entered. -/
namespace Scratchpad.Scope

/-- Names in a list of targets that has nodes to visit. `fresh` are the nodes not yet seen. -/
def targetNames (t : Tree) (fresh pending : List NodeId) : List String :=
  match pending with
  | [] => []
  | id :: pending =>
    if h : id ∈ fresh then
      have : (fresh.erase id).length < fresh.length := by
        have := List.length_pos_of_mem h
        rw [List.length_erase_of_mem h]; omega
      match t.kind? id with
      | some (.name name) => name :: targetNames t (fresh.erase id) pending
      | some (.tuple elts) | some (.list elts) => targetNames t (fresh.erase id) (elts ++ pending)
      | _ => targetNames t (fresh.erase id) pending
    else targetNames t fresh pending
termination_by (fresh.length, pending.length)

/-- Names in order of appearance, with repetitions. -/
structure Names where
  bound : List String := []
  global : List String := []

/-- The names that a node binds or declares itself. -/
def ownNames (t : Tree) : NodeKind → Names
  | .functionDef name _ _ => { bound := [name] }
  | .globalStmt names => { global := names }
  | .assign targets _ =>
    { bound := targets.flatMap fun target => targetNames t (List.range t.size) [target] }
  | .augAssign target _ _ | .forLoop target _ _ =>
    { bound := targetNames t (List.range t.size) [target] }
  | .named target _ => { bound := [target] }
  | _ => {}

/-- The nodes below that belong to the same function. -/
def inside : NodeKind → List NodeId
  | .functionDef .. => []
  | kind => kind.children

def names (t : Tree) (fresh pending : List NodeId) : Names :=
  match pending with
  | [] => {}
  | id :: pending =>
    if h : id ∈ fresh then
      have : (fresh.erase id).length < fresh.length := by
        have := List.length_pos_of_mem h
        rw [List.length_erase_of_mem h]; omega
      match t.kind? id with
      | some kind =>
        let own := ownNames t kind
        let others := names t (fresh.erase id) (inside kind ++ pending)
        ⟨own.bound ++ others.bound, own.global ++ others.global⟩
      | none => names t (fresh.erase id) pending
    else names t fresh pending
termination_by (fresh.length, pending.length)

/-- The names in the body of a function. -/
def ofBody (t : Tree) (body : List NodeId) : Names := names t (List.range t.size) body

def addNew (names : List String) (name : String) : List String :=
  if names.contains name then names else names ++ [name]

/-- The local variables: the parameters, then the names bound in the body and not declared
global, each once. -/
def locals (params : List String) (n : Names) : List String :=
  (n.bound.filter fun name => !n.global.contains name).foldl addNew (params.foldl addNew [])

end Scratchpad.Scope
