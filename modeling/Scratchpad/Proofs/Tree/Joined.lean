import Scratchpad.Proofs.Tree.Surface
import Scratchpad.Proofs.Tree.Unfold

/-!
# One tree after another

`Joins` says that a tree has the nodes of one tree and then those of another. Both stand in it, places
aside (`Joins.embeds_first`, `Joins.embeds_second`). It surfaces the value that the second surfaces
(`Joins.surfaced`).
-/

namespace Scratchpad

namespace Tree

def kinds (t : Tree) : List NodeKind := t.nodes.toList.map (·.kind)

variable {t t' t₁ t₂ : Tree} {x y : NodeId}

theorem length_kinds (t : Tree) : t.kinds.length = t.size := by simp [kinds, size]

theorem kind?_eq (t : Tree) (x : NodeId) : t.kind? x = t.kinds[x]? := by
  simp [kind?, get?, kinds]

/-- The nodes of the first tree, then those of the second, whose ids start after them. -/
structure Joins (t₁ t₂ t : Tree) : Prop where
  kinds : t.kinds = t₁.kinds ++ t₂.kinds.map (·.rename (t₁.size + ·))
  first : ∃ body, t₁.root = .module body
  second : ∃ body, t₂.root = .module body
  root : t.root = .module (t₁.body ++ t₂.body.map (t₁.size + ·))

theorem Joins.body (h : Joins t₁ t₂ t) : t.body = t₁.body ++ t₂.body.map (t₁.size + ·) := by
  rw [Tree.body, h.root]

theorem Joins.size (h : Joins t₁ t₂ t) : t.size = t₁.size + t₂.size := by
  have same := congrArg List.length h.kinds
  simpa [length_kinds] using same

theorem Joins.kind?_first (h : Joins t₁ t₂ t) (lt : x < t₁.size) : t.kind? x = t₁.kind? x := by
  rw [kind?_eq, kind?_eq, h.kinds, List.getElem?_append_left (t₁.length_kinds ▸ lt)]

theorem Joins.kind?_second (h : Joins t₁ t₂ t) (x : NodeId) :
    t.kind? (t₁.size + x) = (t₂.kind? x).map (·.rename (t₁.size + ·)) := by
  rw [kind?_eq, kind?_eq, h.kinds, ← t₁.length_kinds, List.getElem?_append_right (Nat.le_add_right ..),
    Nat.add_sub_cancel_left, List.getElem?_map]

/-! ### Places aside -/

/-- All places made one. -/
abbrev noPlace (_ : Span) : Span := {}

def erased (t : Tree) : Tree := { t with nodes := t.nodes.map fun n => ⟨n.kind, {}⟩ }

theorem get?_erased (t : Tree) (x : NodeId) : t.erased.get? x = (t.kind? x).map fun kind => ⟨kind, {}⟩ := by
  simp [erased, get?, kind?, Function.comp_def]

theorem Finite.child (h : t.Finite x) (found : t.kind? x = some kind) (mem : y ∈ kind.children) :
    t.Finite y := by
  obtain ⟨d, fits⟩ := h
  exact ⟨d, fits.below (.single ⟨kind, found, mem⟩)⟩

/-- What is finite stands where there are nodes of the same kinds, places aside. -/
theorem embeds_of_kinds {ρ : NodeId → NodeId} (size : t.size ≤ t'.size)
    (same : ∀ {x}, t.Finite x → t'.kind? (ρ x) = (t.kind? x).map (·.rename ρ)) :
    t.Embeds ρ noPlace t.Finite t'.erased where
  size := size.trans_eq Array.size_map.symm
  get? mem := by
    rw [get?_erased, same mem, kind?, Option.map_map, Option.map_map]
    rfl
  child mem found _ listed := mem.child (by rw [kind?, found]; rfl) listed

theorem embeds_erased (t : Tree) : t.Embeds id noPlace t.Finite t.erased := by
  refine embeds_of_kinds (Nat.le_refl _) fun {x} _ => ?_
  cases found : t.kind? x with
  | none => exact found
  | some kind => exact found.trans (by rw [Option.map_some, kind.rename_id])

theorem Joins.embeds_first (h : Joins t₁ t₂ t) : t₁.Embeds id noPlace t₁.Finite t.erased := by
  refine embeds_of_kinds (by rw [h.size]; omega) fun {x} finite => ?_
  rw [id_eq, h.kind?_first finite.lt]
  cases t₁.kind? x with
  | none => rfl
  | some kind => rw [Option.map_some, kind.rename_id]

theorem Joins.embeds_second (h : Joins t₁ t₂ t) :
    t₂.Embeds (t₁.size + ·) noPlace t₂.Finite t.erased :=
  embeds_of_kinds (by rw [h.size]; omega) fun _ => h.kind?_second _

theorem Embeds.fits {ρ : NodeId → NodeId} {σ : Span → Span} {D : NodeId → Prop} (h : t.Embeds ρ σ D t')
    (mem : D x) (fits : t.Fits d x) : t'.Fits d (ρ x) :=
  ((h.alike mem fits).symm (Q := flip _) id).fits

theorem kind?_erased (t : Tree) (x : NodeId) : t.erased.kind? x = t.kind? x := by
  rw [kind?, get?_erased, Option.map_map]
  exact Option.map_id'

theorem finite_of_erased (h : t.erased.Finite x) : t.Finite x := by
  obtain ⟨d, fits⟩ := h
  refine ⟨d, ?_⟩
  induction d generalizing x with
  | zero => exact fits.elim
  | succ d ih =>
    obtain ⟨kind, found, below⟩ := fits
    exact ⟨kind, (t.kind?_erased x).symm.trans found, fun y mem => ih (below y mem)⟩

/-- The statements of both are finite in the tree of both. -/
theorem Joins.finite (h : Joins t₁ t₂ t) (first : ∀ x ∈ t₁.body, t₁.Finite x)
    (second : ∀ x ∈ t₂.body, t₂.Finite x) (mem : x ∈ t.body) : t.Finite x := by
  refine finite_of_erased ?_
  rw [h.body] at mem
  rcases List.mem_append.mp mem with mem | mem
  · obtain ⟨d, fits⟩ := first x mem
    exact ⟨d, h.embeds_first.fits (first x mem) fits⟩
  · obtain ⟨y, listed, rfl⟩ := List.mem_map.mp mem
    obtain ⟨d, fits⟩ := second y listed
    exact ⟨d, h.embeds_second.fits (second y listed) fits⟩

/-! ### Surfacing -/

theorem kinds_push (t : Tree) (kind : NodeKind) (span : Span) :
    (t.push kind span).2.kinds = t.kinds ++ [kind] := by
  simp [push, kinds]

theorem kinds_setKind (t : Tree) (x : NodeId) (kind : NodeKind) :
    (t.setKind x kind).kinds = t.kinds.set x kind := by
  refine List.ext_getElem? fun i => ?_
  simp only [kinds, setKind, List.getElem?_map, List.getElem?_set, Array.getElem?_toList,
    Array.getElem?_modify, List.length_map, Array.length_toList]
  by_cases same : x = i
  · subst same
    by_cases lt : x < t.nodes.size <;> simp [lt]
  · simp [same]

theorem Joins.push (h : Joins t₁ t₂ t) (kind : NodeKind) (span span' : Span) :
    Joins t₁ (t₂.push kind span).2 (t.push (kind.rename (t₁.size + ·)) span').2 where
  kinds := by rw [kinds_push, kinds_push, h.kinds, List.map_append, List.append_assoc]; rfl
  first := h.first
  second := h.second
  root := h.root

theorem Joins.setKind (h : Joins t₁ t₂ t) (x : NodeId) (kind : NodeKind) :
    Joins t₁ (t₂.setKind x kind) (t.setKind (t₁.size + x) (kind.rename (t₁.size + ·))) where
  kinds := by
    rw [kinds_setKind, kinds_setKind, h.kinds, ← t₁.length_kinds, List.set_append_right _ _ (Nat.le_add_right ..),
      Nat.add_sub_cancel_left, List.map_set]
  first := h.first
  second := h.second
  root := h.root

/-- A node of the second tree in the tree of both. -/
theorem Joins.get?_second (h : Joins t₁ t₂ t) {n : Node} (found : t₂.get? x = some n) :
    ∃ span, t.get? (t₁.size + x) = some ⟨n.kind.rename (t₁.size + ·), span⟩ := by
  have known := h.kind?_second x
  rw [kind?, kind?, found] at known
  obtain ⟨⟨kind, span⟩, found', rfl⟩ := Option.map_eq_some_iff.mp known
  exact ⟨span, found'⟩

theorem Joins.get?_second_none (h : Joins t₁ t₂ t) (missing : t₂.get? x = none) :
    t.get? (t₁.size + x) = none := by
  have known := h.kind?_second x
  rw [kind?, kind?, missing] at known
  exact Option.map_eq_none_iff.mp known

theorem Joins.isName_second (h : Joins t₁ t₂ t) (x : NodeId) :
    Surface.isName t (t₁.size + x) = Surface.isName t₂ x := by
  unfold Surface.isName
  rw [h.kind?_second]
  cases t₂.kind? x with
  | none => rfl
  | some kind => cases kind <;> rfl

theorem Joins.ofExpr (h : Joins t₁ t₂ t) (last value : NodeId) :
    Joins t₁ (Surface.ofExpr t₂ last value) (Surface.ofExpr t (t₁.size + last) (t₁.size + value)) := by
  have joined := (h.push (.name Surface.resultName) {} {}).setKind last (.assign [t₂.size] value)
  simp only [NodeKind.rename, List.map_cons, List.map_nil, ← h.size] at joined
  exact joined

theorem Joins.ofAssign? (h : Joins t₁ t₂ t) (last value : NodeId) (targets : List NodeId) :
    Joins t₁ ((Surface.ofAssign? t₂ last targets value).getD t₂)
      ((Surface.ofAssign? t (t₁.size + last) (targets.map (t₁.size + ·)) (t₁.size + value)).getD t) := by
  have named : (targets.map (t₁.size + ·)).all (Surface.isName t) = targets.all (Surface.isName t₂) := by
    rw [List.all_map]
    exact congrArg targets.all (funext h.isName_second)
  unfold Surface.ofAssign?
  rw [List.isEmpty_map, named]
  split
  · exact h
  · have joined := (h.push (.name Surface.resultName) {} {}).setKind last (.assign (targets ++ [t₂.size]) value)
    simp only [NodeKind.rename, List.map_append, List.map_cons, List.map_nil, ← h.size] at joined
    exact joined

theorem Joins.ofAugAssign? (h : Joins t₁ t₂ t) (last target value : NodeId) (op : BinaryOp) (span span' : Span) :
    Joins t₁ ((Surface.ofAugAssign? t₂ last target op value span).getD t₂)
      ((Surface.ofAugAssign? t (t₁.size + last) (t₁.size + target) op (t₁.size + value) span').getD t) := by
  unfold Surface.ofAugAssign?
  cases found : t₂.get? target with
  | none =>
    rw [h.get?_second_none found]
    exact h
  | some n =>
    obtain ⟨kind, place⟩ := n
    obtain ⟨place', found'⟩ := h.get?_second found
    rw [found']
    cases kind with
    | name name =>
      have current := h.push (.name name) place place'
      have combined := current.push (.binary t₂.size op value) span span'
      simp only [NodeKind.rename, ← h.size] at current combined
      have joined := (combined.push (.name Surface.resultName) {} {}).setKind last
        (.assign [target, ((t₂.push (.name name) place).2.push (.binary t₂.size op value) span).2.size]
          (t₂.push (.name name) place).2.size)
      simp only [NodeKind.rename, List.map_cons, List.map_nil, ← current.size, ← combined.size] at joined
      exact joined
    | _ => exact h

/-- The value that the tree of both surfaces is that of the second. -/
theorem Joins.surfaced (h : Joins t₁ t₂ t) (nonempty : t₂.body ≠ []) (mode : ReturnMode) :
    Joins t₁ ((Surface.capture? mode t₂).getD t₂) ((Surface.capture? mode t).getD t) := by
  obtain ⟨last, ends⟩ : ∃ last, t₂.body.getLast? = some last := ⟨_, List.getLast?_eq_some_getLast nonempty⟩
  have ends' : t.body.getLast? = some (t₁.size + last) := by
    rw [h.body, List.getLast?_append, List.getLast?_map, ends]
    rfl
  unfold Surface.capture?
  simp only [ends, ends', Option.bind_eq_bind, Option.bind_some]
  cases found : t₂.get? last with
  | none =>
    rw [h.get?_second_none found]
    exact h
  | some n =>
    obtain ⟨kind, span⟩ := n
    obtain ⟨span', found'⟩ := h.get?_second found
    rw [found']
    cases mode with
    | none => exact h
    | lastExpr =>
      cases kind with
      | exprStmt value => exact h.ofExpr last value
      | _ => exact h
    | lastExprOrAssign =>
      cases kind with
      | exprStmt value => exact h.ofExpr last value
      | assign targets value => exact h.ofAssign? last value targets
      | augAssign target op value => exact h.ofAugAssign? last target value op span span'
      | _ => exact h

end Tree

end Scratchpad
