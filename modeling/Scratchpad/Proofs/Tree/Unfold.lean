import Scratchpad.Proofs.Tree.Embeds
import Scratchpad.Proofs.Tree.WellFormed

/-!
# Unfolding

A tree with shared nodes, in whatever order they stand, unfolds to one without ids (`unfolded`). Nodes
that unfold alike are of one kind over nodes that unfold alike (`alike_of_unfold`).
-/

namespace Scratchpad

/-- A tree without ids: what a node is, its place, and the trees below it. -/
inductive Unfolded where
  | node (kind : NodeKind) (span : Span) (below : List Unfolded)

namespace NodeKind

/-- A kind that says nothing about ids. -/
def blank (kind : NodeKind) : NodeKind := kind.rename fun _ => 0

/-- All ids, those too that a dict literal has in excess. -/
def ids : NodeKind → List NodeId
  | .dict keys values => keys ++ values
  | kind => kind.children

/-- The kind over the numbers that its ids have among them. -/
def numbered : NodeKind → NodeKind
  | .exprStmt _ => .exprStmt 0
  | .assign targets _ => .assign (List.range' 0 targets.length) targets.length
  | .augAssign _ op _ => .augAssign 0 op 1
  | .functionDef id params body => .functionDef id params (List.range' 0 body.length)
  | .returnStmt value => .returnStmt (value.map fun _ => 0)
  | .ifStmt _ body orelse =>
    .ifStmt 0 (List.range' 1 body.length) (List.range' (body.length + 1) orelse.length)
  | .whileLoop _ body => .whileLoop 0 (List.range' 1 body.length)
  | .forLoop _ _ body => .forLoop 0 1 (List.range' 2 body.length)
  | .globalStmt names => .globalStmt names
  | .passStmt => .passStmt
  | .breakStmt => .breakStmt
  | .continueStmt => .continueStmt
  | .name id => .name id
  | .literal value => .literal value
  | .binary _ op _ => .binary 0 op 1
  | .unary op _ => .unary op 0
  | .boolean op values => .boolean op (List.range' 0 values.length)
  | .compare _ ops comparators => .compare 0 ops (List.range' 1 comparators.length)
  | .conditional _ _ _ => .conditional 0 1 2
  | .named target _ => .named target 0
  | .call _ args => .call 0 (List.range' 1 args.length)
  | .attribute _ attr => .attribute 0 attr
  | .subscript _ _ => .subscript 0 1
  | .list elts => .list (List.range' 0 elts.length)
  | .tuple elts => .tuple (List.range' 0 elts.length)
  | .dict keys values =>
    .dict (List.range' 0 keys.length) (List.range' keys.length values.length)

theorem numbered_blank (kind : NodeKind) : kind.blank.numbered = kind.numbered := by
  cases kind <;> simp [blank, rename, numbered, Function.comp_def]

theorem map_range'_getD (before ids after : List NodeId) :
    (List.range' before.length ids.length).map (fun i => (before ++ (ids ++ after)).getD i 0) = ids := by
  refine List.ext_getElem (by simp) fun i lt lt' => ?_
  simp only [List.getElem_map, List.getElem_range', Nat.one_mul]
  rw [List.getD_eq_getElem?_getD, List.getElem?_append_right (Nat.le_add_right _ _),
    Nat.add_sub_cancel_left, List.getElem?_append_left lt', List.getElem?_eq_getElem lt', Option.getD_some]

theorem rename_numbered (kind : NodeKind) : kind.numbered.rename (kind.ids.getD · 0) = kind := by
  have all (xs : List NodeId) : (List.range' 0 xs.length).map (xs.getD · 0) = xs := by
    simpa using map_range'_getD [] xs []
  have rest (x : NodeId) (xs : List NodeId) :
      (List.range' 1 xs.length).map ((x :: xs).getD · 0) = xs := by
    simpa using map_range'_getD [x] xs []
  have init (xs after : List NodeId) :
      (List.range' 0 xs.length).map ((xs ++ after).getD · 0) = xs := map_range'_getD [] xs after
  cases kind with
  | returnStmt value => cases value <;> rfl
  | assign targets value =>
    have value' : (targets ++ [value]).getD targets.length 0 = value := by simp
    simp only [rename, numbered, ids, children, init, value']
  | functionDef _ _ xs | boolean _ xs | list xs | tuple xs =>
    simp only [rename, numbered, ids, children, all]
  | whileLoop x xs | compare x _ xs | call x xs =>
    simp only [rename, numbered, ids, children, rest, List.getD_cons_zero]
  | forLoop target iter body =>
    have body' : (List.range' 2 body.length).map ((target :: iter :: body).getD · 0) = body := by
      simpa using map_range'_getD [target, iter] body []
    simp only [rename, numbered, ids, children, body', List.getD_cons_zero, List.getD_cons_succ]
  | ifStmt test body orelse =>
    have body' := map_range'_getD [test] body orelse
    have orelse' := map_range'_getD (test :: body) orelse []
    simp only [List.length_cons, List.length_nil, List.cons_append, List.nil_append, List.append_nil,
      Nat.zero_add] at body' orelse'
    simp only [rename, numbered, ids, children, List.cons_append, body', orelse', List.getD_cons_zero]
  | dict keys values =>
    have values' : (List.range' keys.length values.length).map ((keys ++ values).getD · 0) = values := by
      simpa using map_range'_getD keys values []
    simp only [rename, numbered, ids, init, values']
  | _ => rfl

/-- Kinds that differ in their ids only are one kind over two namings of its ids. -/
theorem exists_rename {kind kind' : NodeKind} {R : NodeId → NodeId → Prop} (same : kind.blank = kind'.blank)
    (below : List.Forall₂ R kind.children kind'.children) :
    ∃ k ρ ρ', kind = rename ρ k ∧ kind' = rename ρ' k ∧ ∀ x ∈ k.children, R (ρ x) (ρ' x) := by
  have number : kind'.numbered = kind.numbered := by
    rw [← numbered_blank kind', ← numbered_blank kind, same]
  have named := kind.rename_numbered
  have named' := kind'.rename_numbered
  rw [number] at named'
  refine ⟨kind.numbered, _, _, named.symm, named'.symm, ?_⟩
  have children : kind.children = kind.numbered.children.map (kind.ids.getD · 0) := by
    rw [← children_rename, named]
  have children' : kind'.children = kind.numbered.children.map (kind'.ids.getD · 0) := by
    rw [← children_rename, named']
  rw [children, children', List.forall₂_map_left_iff, List.forall₂_map_right_iff,
    List.forall₂_same] at below
  exact below

end NodeKind

/-- Nodes of one kind and at places with `P`, over related nodes. -/
def Node.Alike (P : Span → Span → Prop) (R : NodeId → NodeId → Prop) (n n' : Node) : Prop :=
  ∃ kind span span' ρ ρ', n = ⟨NodeKind.rename ρ kind, span⟩ ∧ n' = ⟨NodeKind.rename ρ' kind, span'⟩ ∧
    P span span' ∧ ∀ x ∈ kind.children, R (ρ x) (ρ' x)

theorem forall₂_of_mapM {f : α → Option β} {xs : List α} {ys : List β} (h : xs.mapM f = some ys) :
    List.Forall₂ (fun x y => f x = some y) xs ys := by
  induction xs generalizing ys with
  | nil =>
    cases h
    exact .nil
  | cons x xs ih =>
    rw [List.mapM_cons] at h
    obtain ⟨y, first, h⟩ := Option.bind_eq_some_iff.mp h
    obtain ⟨ys, rest, h⟩ := Option.bind_eq_some_iff.mp h
    cases h
    exact .cons first (ih rest)

theorem forall₂_map {R : α → β → Prop} {f : γ → α} {g : γ → β} {xs : List γ}
    (h : ∀ x ∈ xs, R (f x) (g x)) : List.Forall₂ R (xs.map f) (xs.map g) := by
  rw [List.forall₂_map_left_iff, List.forall₂_map_right_iff, List.forall₂_same]
  exact h

theorem forall₂_middle {P : α → γ → Prop} {Q : β → γ → Prop} {R : α → β → Prop}
    (h : ∀ x y z, P x z → Q y z → R x y) {xs : List α} {ys : List β} {zs : List γ}
    (left : List.Forall₂ P xs zs) (right : List.Forall₂ Q ys zs) : List.Forall₂ R xs ys := by
  induction left generalizing ys with
  | nil =>
    cases right
    exact .nil
  | cons first _ ih =>
    cases right with
    | cons first' rest => exact .cons (h _ _ _ first first') (ih rest)

theorem exists_mapM {f : α → Option β} {xs : List α} (h : ∀ x ∈ xs, ∃ y, f x = some y) :
    ∃ ys, xs.mapM f = some ys := by
  induction xs with
  | nil => exact ⟨[], rfl⟩
  | cons x xs ih =>
    obtain ⟨first, rest⟩ := List.forall_mem_cons.mp h
    obtain ⟨y, found⟩ := first
    obtain ⟨ys, others⟩ := ih rest
    exact ⟨y :: ys, by rw [List.mapM_cons, found, others]; rfl⟩

namespace Tree

/-- The tree that hangs on a node, if all its nodes exist and it is no deeper. -/
def unfold (t : Tree) : Nat → NodeId → Option Unfolded
  | 0, _ => none
  | depth + 1, id => do
    let n ← t.get? id
    return .node n.kind.blank n.span (← n.kind.children.mapM (t.unfold depth))

/-- The trees that hang on the nodes at the top. -/
def unfolded (t : Tree) : Option (List Unfolded) := t.body.mapM (t.unfold t.size)

/-- The nodes are alike, and all nodes below them too, to the last of so many levels. -/
def Alike (P : Span → Span → Prop) (t t' : Tree) : Nat → NodeId → NodeId → Prop
  | 0, _, _ => False
  | depth + 1, id, id' => ∃ n n', t.get? id = some n ∧ t'.get? id' = some n' ∧
      Node.Alike P (Alike P t t' depth) n n'

variable {P Q : Span → Span → Prop} {t t' : Tree} {d d' : Nat} {id id' : NodeId}

theorem unfold_eq_some {u : Unfolded} (h : t.unfold d id = some u) : ∃ m n below, d = m + 1 ∧
    t.get? id = some n ∧ u = .node n.kind.blank n.span below ∧
    List.Forall₂ (fun x u => t.unfold m x = some u) n.kind.children below := by
  cases d with
  | zero => cases h
  | succ m =>
    obtain ⟨n, found, h⟩ := Option.bind_eq_some_iff.mp h
    obtain ⟨below, unfolds, h⟩ := Option.bind_eq_some_iff.mp h
    cases h
    exact ⟨m, n, below, rfl, found, rfl, forall₂_of_mapM unfolds⟩

theorem Fits.unfold (h : t.Fits d id) : ∃ u, t.unfold d id = some u := by
  induction d generalizing id with
  | zero => exact h.elim
  | succ d ih =>
    obtain ⟨kind, found, fits⟩ := h
    obtain ⟨n, got, rfl⟩ := Option.map_eq_some_iff.mp found
    obtain ⟨below, unfolds⟩ := exists_mapM fun x mem => ih (fits x mem)
    exact ⟨.node n.kind.blank n.span below, by rw [Tree.unfold, got]; simp [unfolds]⟩

theorem alike_of_unfold {u : Unfolded} (h : t.unfold d id = some u) (h' : t'.unfold d' id' = some u) :
    t.Alike Eq t' (min d d') id id' := by
  induction d generalizing d' id id' u with
  | zero => cases h
  | succ d ih =>
    obtain ⟨_, ⟨kind, span⟩, below, ⟨⟩, found, rfl, unfolds⟩ := unfold_eq_some h
    obtain ⟨e, ⟨kind', span'⟩, below', rfl, found', same, unfolds'⟩ := unfold_eq_some h'
    obtain ⟨blank, rfl, rfl⟩ := Unfolded.node.inj same
    have both : List.Forall₂ (t.Alike Eq t' (min d e)) kind.children kind'.children := by
      refine forall₂_middle ?_ unfolds unfolds'
      intro x y u left right
      exact ih left right
    obtain ⟨k, ρ, ρ', rfl, rfl, alike⟩ := NodeKind.exists_rename blank both
    rw [Nat.add_min_add_right]
    exact ⟨_, _, found, found', k, span, span, ρ, ρ', rfl, rfl, rfl, alike⟩

theorem Alike.symm (h : t.Alike P t' d id id') (flip : ∀ {span span'}, P span span' → Q span' span) :
    t'.Alike Q t d id' id := by
  induction d generalizing id id' with
  | zero => exact h
  | succ d ih =>
    obtain ⟨_, _, found, found', kind, span, span', ρ, ρ', rfl, rfl, place, below⟩ := h
    exact ⟨_, _, found', found, kind, span', span, ρ', ρ, rfl, rfl, flip place, fun x mem => ih (below x mem)⟩

theorem Alike.fits (h : t.Alike P t' d id id') : t.Fits d id := by
  induction d generalizing id id' with
  | zero => exact h
  | succ d ih =>
    obtain ⟨_, _, found, _, kind, span, span', ρ, ρ', rfl, rfl, -, below⟩ := h
    refine ⟨kind.rename ρ, by rw [kind?, found]; rfl, fun x mem => ?_⟩
    rw [NodeKind.children_rename] at mem
    obtain ⟨y, listed, rfl⟩ := List.mem_map.mp mem
    exact ih (below y listed)

/-- Nodes are alike to the last level that the first has. -/
theorem Alike.within (h : t.Alike P t' d id id') (fits : t.Fits d' id) : t.Alike P t' d' id id' := by
  induction d' generalizing d id id' with
  | zero => exact fits
  | succ d' ih =>
    cases d with
    | zero => exact h.elim
    | succ d =>
      obtain ⟨_, _, found, found', kind, span, span', ρ, ρ', rfl, rfl, place, below⟩ := h
      refine ⟨_, _, found, found', kind, span, span', ρ, ρ', rfl, rfl, place, fun x mem => ?_⟩
      refine ih (below x mem) (fits.child (by rw [kind?, found]; rfl) ?_)
      rw [NodeKind.children_rename]
      exact List.mem_map_of_mem mem

theorem Alike.least (h : t.Alike P t' d id id') : t.Alike P t' (min t.size t'.size) id id' := by
  have back := h.symm (Q := flip P) fun place => place
  rcases Nat.le_total t.size t'.size with le | le
  · rw [Nat.min_eq_left le]
    exact h.within h.fits.size
  · rw [Nat.min_eq_right le]
    exact (back.within back.fits.size).symm fun place => place

/-- Nodes that stand in another tree are alike there, as far as they nest. -/
theorem Embeds.alike {ρ : NodeId → NodeId} {σ : Span → Span} {D : NodeId → Prop} (h : t.Embeds ρ σ D t')
    (mem : D id) (fits : t.Fits d id) : t.Alike (fun span span' => span' = σ span) t' d id (ρ id) := by
  induction d generalizing id with
  | zero => exact fits
  | succ d ih =>
    obtain ⟨_, known, below⟩ := fits
    obtain ⟨n, found, rfl⟩ := Option.map_eq_some_iff.mp known
    have same : n = ⟨n.kind.rename fun x => x, n.span⟩ := congrArg (Node.mk · n.span) n.kind.rename_id.symm
    exact ⟨n, n.move ρ σ, found, by rw [h.get? mem, found]; rfl, n.kind, n.span, σ n.span, _, ρ, same, rfl, rfl,
      fun x child => ih (h.child mem found x child) (below x child)⟩

theorem fits_of_unfold {u : Unfolded} (h : t.unfold d id = some u) : t.Fits d id :=
  Alike.fits (by simpa using alike_of_unfold h h)

theorem fits_of_unfolds {ids : List NodeId} {us : List Unfolded}
    (h : List.Forall₂ (fun id u => t.unfold d id = some u) ids us) : ∀ id ∈ ids, t.Fits d id := by
  induction h with
  | nil => exact fun _ none => absurd none List.not_mem_nil
  | cons first _ ih => exact List.forall_mem_cons.mpr ⟨fits_of_unfold first, ih⟩

/-- It is exactly the trees without circles and missing nodes that unfold. -/
theorem unfolds_iff : (∃ us, t.unfolded = some us) ↔
    (∀ id, t.Reached id → ∃ kind, t.kind? id = some kind) ∧
    ∀ id, t.Reached id → ¬ Relation.TransGen t.Mentions id id := by
  constructor
  · rintro ⟨us, unfolds⟩
    have fits {id : NodeId} (reached : t.Reached id) : t.Fits t.size id := by
      obtain ⟨top, mem, path⟩ := reached
      exact (fits_of_unfolds (forall₂_of_mapM unfolds) top mem).below path
    exact ⟨fun id reached => (fits reached).resolves, fun id reached => (fits reached).not_mentions_self⟩
  · rintro ⟨resolves, acyclic⟩
    refine exists_mapM fun top mem => ?_
    have finite : t.Finite top := finite_of_acyclic (fun x path => resolves x ⟨top, mem, path⟩)
      fun x path => acyclic x ⟨top, mem, path⟩
    exact finite.choose_spec.size.unfold

end Tree

end Scratchpad
