import Scratchpad.Proofs.Code.Scope

/-!
# Trees in other trees

`Embeds` says that nodes of one tree stand in another, under other ids and with other places.
-/

namespace Scratchpad

/-- The same node over other ids. -/
def NodeKind.rename (ρ : NodeId → NodeId) : NodeKind → NodeKind
  | .exprStmt value => .exprStmt (ρ value)
  | .assign targets value => .assign (targets.map ρ) (ρ value)
  | .augAssign target op value => .augAssign (ρ target) op (ρ value)
  | .functionDef id params body => .functionDef id params (body.map ρ)
  | .returnStmt value => .returnStmt (value.map ρ)
  | .ifStmt test body orelse => .ifStmt (ρ test) (body.map ρ) (orelse.map ρ)
  | .whileLoop test body => .whileLoop (ρ test) (body.map ρ)
  | .forLoop target iter body => .forLoop (ρ target) (ρ iter) (body.map ρ)
  | .globalStmt names => .globalStmt names
  | .passStmt => .passStmt
  | .breakStmt => .breakStmt
  | .continueStmt => .continueStmt
  | .name id => .name id
  | .literal value => .literal value
  | .binary left op right => .binary (ρ left) op (ρ right)
  | .unary op operand => .unary op (ρ operand)
  | .boolean op values => .boolean op (values.map ρ)
  | .compare left ops comparators => .compare (ρ left) ops (comparators.map ρ)
  | .conditional test body orelse => .conditional (ρ test) (ρ body) (ρ orelse)
  | .named target value => .named target (ρ value)
  | .call func args => .call (ρ func) (args.map ρ)
  | .attribute value attr => .attribute (ρ value) attr
  | .subscript value index => .subscript (ρ value) (ρ index)
  | .list elts => .list (elts.map ρ)
  | .tuple elts => .tuple (elts.map ρ)
  | .dict keys values => .dict (keys.map ρ) (values.map ρ)

theorem pairs_map (ρ : NodeId → NodeId) (keys values : List NodeId) :
    ((keys.map ρ).zip (values.map ρ)).flatMap (fun (key, value) => [key, value]) =
      ((keys.zip values).flatMap fun (key, value) => [key, value]).map ρ := by
  rw [List.zip_map, List.flatMap_map, List.map_flatMap]
  rfl

theorem NodeKind.children_rename (ρ : NodeId → NodeId) (kind : NodeKind) :
    (kind.rename ρ).children = kind.children.map ρ := by
  cases kind with
  | returnStmt value => cases value <;> rfl
  | dict keys values => exact pairs_map ρ keys values
  | _ => simp [rename, children]

theorem NodeKind.rename_id (kind : NodeKind) : kind.rename id = kind := by
  cases kind <;> simp [rename]

def Node.move (ρ : NodeId → NodeId) (σ : Span → Span) (n : Node) : Node := ⟨n.kind.rename ρ, σ n.span⟩

theorem Node.move_id (n : Node) : n.move id id = n := by
  rw [move, n.kind.rename_id]
  rfl

namespace Tree

/-- The nodes of `t` with `D`, and so all below them, stand in `t'`. -/
structure Embeds (ρ : NodeId → NodeId) (σ : Span → Span) (D : NodeId → Prop) (t t' : Tree) : Prop where
  size : t.size ≤ t'.size
  get? : ∀ {id}, D id → t'.get? (ρ id) = (t.get? id).map (Node.move ρ σ)
  child : ∀ {id n}, D id → t.get? id = some n → ∀ x ∈ n.kind.children, D x

theorem embeds_refl (t : Tree) : t.Embeds id id (fun _ => True) t where
  size := Nat.le_refl _
  get? _ := by simp [show Node.move id id = id from funext Node.move_id]
  child _ _ _ _ := trivial

/-- A tree in which one node was changed and others added has what does not get to the one. -/
theorem embeds_apart {t t' : Tree} (changed : NodeId) (size : t.size ≤ t'.size)
    (same : ∀ id < t.size, id ≠ changed → t'.get? id = t.get? id) :
    t.Embeds id id (fun id => t.Finite id ∧ ¬ Relation.ReflTransGen t.Mentions id changed) t' where
  size := size
  get? := by
    rintro x ⟨finite, apart⟩
    rw [show Node.move id id = id from funext Node.move_id, Option.map_id]
    exact same x finite.lt fun here => apart (here ▸ .refl)
  child := by
    rintro x n ⟨⟨d, fits⟩, apart⟩ found y mem
    have kind : t.kind? x = some n.kind := by rw [Tree.kind?, found]; rfl
    cases d with
    | zero => exact fits.elim
    | succ d => exact ⟨⟨d, fits.child kind mem⟩, fun path => apart (.head ⟨n.kind, kind, mem⟩ path)⟩

variable {ρ : NodeId → NodeId} {σ : Span → Span} {D : NodeId → Prop} {t t' : Tree}

theorem Embeds.kind? (h : t.Embeds ρ σ D t') {id : NodeId} (mem : D id) :
    t'.kind? (ρ id) = (t.kind? id).map (·.rename ρ) := by
  rw [Tree.kind?, Tree.kind?, h.get? mem, Option.map_map, Option.map_map]
  rfl

end Tree

namespace Scope

theorem inside_rename (ρ : NodeId → NodeId) (kind : NodeKind) : inside (kind.rename ρ) = (inside kind).map ρ := by
  have below := kind.children_rename ρ
  cases kind with
  | functionDef => rfl
  | _ => exact below

theorem mem_children_of_inside {kind : NodeKind} {x : NodeId} (h : x ∈ inside kind) : x ∈ kind.children := by
  cases kind with
  | functionDef => cases h
  | _ => exact h

end Scope

end Scratchpad
