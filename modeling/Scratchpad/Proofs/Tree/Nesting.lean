import Mathlib
import Scratchpad.Tree

/-!
# Nesting

A tree may mention nodes that do not exist, and go round in circles. `Fits d id` says that what
hangs on `id` resolves and nests at most `d` deep; where that holds for some depth, it holds for
the number of nodes (`Fits.size`).
-/

namespace Scratchpad.Tree

def Mentions (t : Tree) (id child : NodeId) : Prop :=
  ∃ kind, t.kind? id = some kind ∧ child ∈ kind.children

/-- The nodes from `id` downwards exist, and no way down has more than so many of them. -/
def Fits (t : Tree) : Nat → NodeId → Prop
  | 0, _ => False
  | depth + 1, id => ∃ kind, t.kind? id = some kind ∧ ∀ child ∈ kind.children, Fits t depth child

variable {t : Tree} {id : NodeId}

theorem kind?_lt (h : t.kind? id = some kind) : id < t.size := by
  unfold kind? get? at h
  by_contra out
  rw [Array.getElem?_eq_none (Nat.le_of_not_lt out)] at h
  cases h

theorem Fits.mono (h : t.Fits d id) (le : d ≤ d') : t.Fits d' id := by
  induction d generalizing id d' with
  | zero => exact h.elim
  | succ d ih =>
    obtain ⟨kind, found, below⟩ := h
    cases d' with
    | zero => omega
    | succ d' => exact ⟨kind, found, fun child mem => ih (below child mem) (by omega)⟩

/-- What fits does not go round in a circle. -/
theorem Fits.not_mentions_self (h : t.Fits d id) : ¬ Relation.TransGen t.Mentions id id := by
  induction d generalizing id with
  | zero => exact h.elim
  | succ d ih =>
    obtain ⟨kind, found, below⟩ := h
    intro circle
    obtain ⟨child, ⟨kind', found', mem⟩, back⟩ := Relation.TransGen.head'_iff.mp circle
    have same : kind' = kind := Option.some.inj (found'.symm.trans found)
    subst same
    exact ih (below child mem) (Relation.TransGen.tail' back ⟨kind', found, mem⟩)

open Classical in
/-- The nodes from `id` downwards. -/
noncomputable def reach (t : Tree) (id : NodeId) : Finset NodeId :=
  (Finset.range t.size).filter (Relation.ReflTransGen t.Mentions id)

theorem mem_reach {x : NodeId} :
    x ∈ t.reach id ↔ x < t.size ∧ Relation.ReflTransGen t.Mentions id x := by
  simp [reach]

theorem card_reach_le : (t.reach id).card ≤ t.size := by
  have inside : t.reach id ⊆ Finset.range t.size := fun x hx =>
    Finset.mem_range.mpr (mem_reach.mp hx).1
  simpa using Finset.card_le_card inside

/-- A child reaches less than its parent, if it does not reach the parent. -/
theorem card_reach_lt {child : NodeId} (mentions : t.Mentions id child)
    (acyclic : ¬ Relation.TransGen t.Mentions id id) :
    (t.reach child).card < (t.reach id).card := by
  have ⟨kind, found, _⟩ := mentions
  have self : id ∈ t.reach id := mem_reach.mpr ⟨kind?_lt found, .refl⟩
  refine Finset.card_lt_card ⟨fun x hx => ?_, fun all => ?_⟩
  · obtain ⟨inside, path⟩ := mem_reach.mp hx
    exact mem_reach.mpr ⟨inside, .head mentions path⟩
  · exact acyclic (.head' mentions (mem_reach.mp (all self)).2)

theorem Fits.reach (h : t.Fits d id) : t.Fits (t.reach id).card id := by
  induction d generalizing id with
  | zero => exact h.elim
  | succ d ih =>
    have acyclic := h.not_mentions_self
    obtain ⟨kind, found, below⟩ := h
    have self : id ∈ t.reach id := mem_reach.mpr ⟨kind?_lt found, .refl⟩
    have fewer : ∀ child ∈ kind.children, (t.reach child).card < (t.reach id).card :=
      fun child mem => card_reach_lt ⟨kind, found, mem⟩ acyclic
    have positive : 0 < (t.reach id).card := Finset.card_pos.mpr ⟨id, self⟩
    obtain ⟨n, card⟩ : ∃ n, (t.reach id).card = n + 1 := ⟨_, (Nat.succ_pred_eq_of_pos positive).symm⟩
    rw [card] at fewer ⊢
    exact ⟨kind, found, fun child mem =>
      (ih (below child mem)).mono (Nat.le_of_lt_succ (fewer child mem))⟩

/-- A tree nests no deeper than it has nodes. -/
theorem Fits.size (h : t.Fits d id) : t.Fits t.size id := h.reach.mono card_reach_le

theorem fits_all {ids : List NodeId} (h : ∀ id ∈ ids, ∃ d, t.Fits d id) :
    ∃ d, ∀ id ∈ ids, t.Fits d id := by
  induction ids with
  | nil => exact ⟨0, fun _ mem => by cases mem⟩
  | cons a as ih =>
    obtain ⟨d, first⟩ := h a List.mem_cons_self
    obtain ⟨d', rest⟩ := ih fun id mem => h id (List.mem_cons_of_mem _ mem)
    refine ⟨max d d', fun id mem => ?_⟩
    rcases List.mem_cons.mp mem with rfl | mem
    · exact first.mono (Nat.le_max_left _ _)
    · exact (rest id mem).mono (Nat.le_max_right _ _)

/-- What hangs on `id` is a finite tree. -/
def Finite (t : Tree) (id : NodeId) : Prop := ∃ d, t.Fits d id

theorem Finite.lt (h : t.Finite id) : id < t.size := by
  obtain ⟨d, fits⟩ := h
  cases d with
  | zero => exact fits.elim
  | succ d => exact kind?_lt fits.choose_spec.1

theorem Finite.intro (found : t.kind? id = some kind)
    (below : ∀ child ∈ kind.children, t.Finite child) : t.Finite id := by
  obtain ⟨d, all⟩ := fits_all below
  exact ⟨d + 1, kind, found, all⟩

theorem Fits.resolves (h : t.Fits d id) : ∃ kind, t.kind? id = some kind := by
  cases d with
  | zero => exact h.elim
  | succ d => exact ⟨h.choose, h.choose_spec.1⟩

theorem Fits.child {x : NodeId} (h : t.Fits (d + 1) id) (found : t.kind? id = some kind)
    (mem : x ∈ kind.children) : t.Fits d x := by
  obtain ⟨kind', found', fit⟩ := h
  rw [found] at found'
  cases found'
  exact fit x mem

/-- What fits, fits from each node further down. -/
theorem Fits.below {x : NodeId} (h : t.Fits d id) (path : Relation.ReflTransGen t.Mentions id x) :
    t.Fits d x := by
  induction path with
  | refl => exact h
  | tail _ step ih =>
    obtain ⟨kind, found, mem⟩ := step
    cases d with
    | zero => exact ih.elim
    | succ d => exact (ih.child found mem).mono (Nat.le_succ d)

/-- Where all resolves and nothing goes round in a circle, the tree is finite. -/
theorem finite_of_acyclic
    (resolves : ∀ x, Relation.ReflTransGen t.Mentions id x → ∃ kind, t.kind? x = some kind)
    (acyclic : ∀ x, Relation.ReflTransGen t.Mentions id x → ¬ Relation.TransGen t.Mentions x x) :
    t.Finite id := by
  induction size : (t.reach id).card using Nat.strongRecOn generalizing id with
  | ind n ih =>
    obtain ⟨kind, found⟩ := resolves id .refl
    refine .intro found fun child mem => ?_
    have step : t.Mentions id child := ⟨kind, found, mem⟩
    exact ih _ (size ▸ card_reach_lt step (acyclic id .refl))
      (fun x path => resolves x (.head step path)) (fun x path => acyclic x (.head step path)) rfl

end Scratchpad.Tree
