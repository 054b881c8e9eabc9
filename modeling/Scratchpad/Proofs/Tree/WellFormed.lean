import Scratchpad.Proofs.Code.Scope

/-!
# Well-formed trees

Every position in a tree asks for a sort of node, its `Role`, and hands roles down to the positions
below. `WellFormed` says of all nodes of a tree that they exist, go round in no circle, are complete
and suit their positions. `Shaped` says the same from the leaves upwards, and the two agree
(`WellFormed.shaped`, `wellFormed_of_shaped`).
-/

namespace Scratchpad

/-- The names that a node itself has. -/
def NodeKind.names : NodeKind → List String
  | .functionDef id params _ => id :: params
  | .globalStmt names => names
  | .name id => [id]
  | .named target _ => [target]
  | .attribute _ attr => [attr]
  | _ => []

/-- All names in the tree have `P`. -/
def Tree.Names (P : String → Prop) (t : Tree) : Prop :=
  ∀ id kind, t.kind? id = some kind → ∀ name ∈ kind.names, P name

/-- What a position asks for. -/
inductive Role where
  | statement (inFunction inLoop : Bool)
  | expression
  | target
  /-- The target of an augmented assignment. -/
  | augmented

namespace Role

/-- May a node of this kind stand there? -/
def admits : Role → NodeKind → Bool
  | .statement inFunction _, .returnStmt _ => inFunction
  | .statement _ inLoop, .breakStmt | .statement _ inLoop, .continueStmt => inLoop
  | .statement _ _, kind => kind.isStatement
  | .expression, kind => kind.isExpression
  | .target, .tuple _ | .target, .list _ => true
  | .target, .name _ | .target, .subscript _ _ | .target, .attribute _ _ => true
  | .augmented, .name _ | .augmented, .subscript _ _ | .augmented, .attribute _ _ => true
  | _, _ => false

/-- The positions below a node, with their roles. -/
def below : Role → NodeKind → List (Role × NodeId)
  | .statement _ _, .assign targets value => targets.map (.target, ·) ++ [(.expression, value)]
  | .statement _ _, .augAssign place _ value => [(.augmented, place), (.expression, value)]
  | .statement _ _, .functionDef _ _ body => body.map (.statement true false, ·)
  | .statement f l, .ifStmt test body orelse =>
    (.expression, test) :: (body ++ orelse).map (.statement f l, ·)
  | .statement f _, .whileLoop test body => (.expression, test) :: body.map (.statement f true, ·)
  | .statement f _, .forLoop place iter body =>
    (.target, place) :: (.expression, iter) :: body.map (.statement f true, ·)
  | .target, .tuple elts | .target, .list elts => elts.map (.target, ·)
  | _, kind => kind.children.map (.expression, ·)

/-- The positions below are those of all the nodes that are mentioned. -/
theorem map_below (role : Role) (kind : NodeKind) : (role.below kind).map (·.2) = kind.children := by
  unfold below
  split <;> simp [NodeKind.children, Function.comp_def]

end Role

namespace Tree

/-- A node has all its parts, and a function does not declare its parameters global. -/
def Complete (t : Tree) : NodeKind → Prop
  | .assign targets _ => targets ≠ []
  | .boolean _ values => values ≠ []
  | .compare _ ops comparators => ops ≠ [] ∧ ops.length = comparators.length
  | .dict keys values => keys.length = values.length
  | .functionDef _ params body => ∀ param ∈ params, ¬ t.DeclaresGlobal body param
  | _ => True

/-- The positions at the top. -/
def tops (t : Tree) : List (Role × NodeId) :=
  match t.root with
  | .module body | .interactive body => body.map (.statement false false, ·)
  | .expression body => [(.expression, body)]

/-- The node stands, somewhere in the tree, in a position with this role. -/
inductive Stands (t : Tree) : Role → NodeId → Prop
  | top {id : NodeId} (mem : (role, id) ∈ t.tops) : Stands t role id
  | under {id : NodeId} (above : Stands t role id) (found : t.kind? id = some kind)
      (mem : (role', child) ∈ role.below kind) : Stands t role' child

/-- Of several statements none owns a block. -/
def Alone (t : Tree) : Prop :=
  1 < t.body.length → ∀ id ∈ t.body, ∀ kind, t.kind? id = some kind → kind.isCompound = false

/-- The node can be got to from the top. -/
def Reached (t : Tree) (id : NodeId) : Prop :=
  ∃ top ∈ t.body, Relation.ReflTransGen t.Mentions top id

end Tree

/-- The mode that the top of a tree is for. -/
def Root.mode : Root → Mode
  | .module _ => .exec
  | .expression _ => .eval
  | .interactive _ => .single

structure WellFormed (t : Tree) (mode : Mode) : Prop where
  root : t.root.mode = mode
  resolves : ∀ id, t.Reached id → ∃ kind, t.kind? id = some kind
  acyclic : ∀ id, t.Reached id → ¬ Relation.TransGen t.Mentions id id
  complete : ∀ id kind, t.Reached id → t.kind? id = some kind → t.Complete kind
  suits : ∀ role id kind, t.Stands role id → t.kind? id = some kind → role.admits kind = true
  alone : mode = .single → t.Alone

/-- The node suits the role, and so do all below it; all exist and are complete. -/
inductive Shaped (t : Tree) : Role → NodeId → Prop
  | node {id : NodeId} (found : t.kind? id = some kind) (suits : role.admits kind = true)
      (complete : t.Complete kind) (below : ∀ p ∈ role.below kind, Shaped t p.1 p.2) :
      Shaped t role id

variable {t : Tree} {id : NodeId}

theorem Tree.map_tops : t.tops.map (·.2) = t.body := by
  obtain ⟨nodes, root⟩ := t
  cases root <;> simp [tops, body, Function.comp_def]

theorem Shaped.inv (h : Shaped t role id) (found : t.kind? id = some kind) :
    role.admits kind = true ∧ t.Complete kind ∧ ∀ p ∈ role.below kind, Shaped t p.1 p.2 := by
  obtain ⟨known, suits, complete, below⟩ := h
  rw [found] at known
  cases known
  exact ⟨suits, complete, below⟩

theorem Shaped.child {x : NodeId} (h : Shaped t role id) (found : t.kind? id = some kind)
    (mem : x ∈ kind.children) : ∃ role', Shaped t role' x := by
  obtain ⟨_, _, below⟩ := h.inv found
  rw [← role.map_below kind] at mem
  obtain ⟨p, listed, rfl⟩ := List.mem_map.mp mem
  exact ⟨p.1, below p listed⟩

theorem Shaped.finite (h : Shaped t role id) : t.Finite id := by
  induction h with
  | @node kind role id found _ _ _ ih =>
    refine .intro found fun child mem => ?_
    rw [← role.map_below kind] at mem
    obtain ⟨p, listed, rfl⟩ := List.mem_map.mp mem
    exact ih p listed

theorem Shaped.fits (h : Shaped t role id) : t.Fits t.size id := by
  obtain ⟨d, fits⟩ := h.finite
  exact fits.size

theorem Shaped.resolves (h : Shaped t role id) : ∃ n, t.get? id = some n := by
  obtain ⟨found, _⟩ := h
  obtain ⟨n, got, _⟩ := Option.map_eq_some_iff.mp found
  exact ⟨n, got⟩

theorem Shaped.operand {x : NodeId} (h : Shaped t .expression id) (found : t.kind? id = some kind)
    (mem : x ∈ kind.children) : Shaped t .expression x := by
  obtain ⟨_, _, below⟩ := h.inv found
  exact below _ (List.mem_map_of_mem mem)

theorem Shaped.reach {x : NodeId} (h : Shaped t role id)
    (path : Relation.ReflTransGen t.Mentions id x) : ∃ role', Shaped t role' x := by
  induction path with
  | refl => exact ⟨role, h⟩
  | tail _ step ih =>
    obtain ⟨role', shaped⟩ := ih
    obtain ⟨kind, found, mem⟩ := step
    exact shaped.child found mem

theorem Shaped.stands (tops : ∀ p ∈ t.tops, Shaped t p.1 p.2) (h : t.Stands role id) :
    Shaped t role id := by
  induction h with
  | top mem => exact tops _ mem
  | under _ found mem ih =>
    obtain ⟨_, _, below⟩ := ih.inv found
    exact below _ mem

theorem shaped_of_reached (tops : ∀ p ∈ t.tops, Shaped t p.1 p.2) (h : t.Reached id) :
    ∃ role, Shaped t role id := by
  obtain ⟨top, mem, path⟩ := h
  rw [← Tree.map_tops] at mem
  obtain ⟨p, listed, rfl⟩ := List.mem_map.mp mem
  exact (tops p listed).reach path

theorem wellFormed_of_shaped (root : t.root.mode = mode) (tops : ∀ p ∈ t.tops, Shaped t p.1 p.2)
    (alone : mode = .single → t.Alone) : WellFormed t mode where
  root := root
  resolves id reached := by
    obtain ⟨role, found, _⟩ := shaped_of_reached tops reached
    exact ⟨_, found⟩
  acyclic id reached := by
    obtain ⟨role, shaped⟩ := shaped_of_reached tops reached
    exact shaped.fits.not_mentions_self
  complete id kind reached found := by
    obtain ⟨role, shaped⟩ := shaped_of_reached tops reached
    exact (shaped.inv found).2.1
  suits role id kind stands found := ((Shaped.stands tops stands).inv found).1
  alone := alone

theorem WellFormed.shaped_of_fits (h : WellFormed t mode) (reached : t.Reached id)
    (stands : t.Stands role id) (fits : t.Fits d id) : Shaped t role id := by
  induction d generalizing role id with
  | zero => exact fits.elim
  | succ d ih =>
    obtain ⟨kind, found, below⟩ := fits
    refine .node found (h.suits role id kind stands found) (h.complete id kind reached found) ?_
    rintro ⟨role', child⟩ mem
    have mention : child ∈ kind.children := role.map_below kind ▸ List.mem_map_of_mem mem
    obtain ⟨top, listed, path⟩ := reached
    exact ih ⟨top, listed, path.tail ⟨kind, found, mention⟩⟩ (.under stands found mem)
      (below child mention)

theorem WellFormed.shaped (h : WellFormed t mode) : ∀ p ∈ t.tops, Shaped t p.1 p.2 := by
  rintro ⟨role, id⟩ mem
  have listed : id ∈ t.body := t.map_tops ▸ List.mem_map_of_mem mem
  obtain ⟨d, fits⟩ := Tree.finite_of_acyclic (fun x path => h.resolves x ⟨id, listed, path⟩)
    fun x path => h.acyclic x ⟨id, listed, path⟩
  exact h.shaped_of_fits ⟨id, listed, .refl⟩ (.top mem) fits

end Scratchpad
