import Scratchpad.Proofs.Code.Accepts
import Scratchpad.Proofs.Code.Surfaced
import Scratchpad.Proofs.Tree.Joined

/-!
# Statements that can be lowered

Whether statements compile is a matter of each of them alone (`lowers_of_ofTree`, `ofTree_of_lowers`).
So they compile if they do with their value surfaced (`compiles_unsurfaced`), and one tree after
another compiles if both do (`compiles_joined`).
-/

namespace Scratchpad

namespace Lower

variable {t t' t₁ t₂ : Tree} {c : Context} {ρ : NodeId → NodeId} {σ : Span → Span} {D : NodeId → Prop}
  {x : NodeId}

/-- Can be lowered as a statement at the top. -/
def Lowers (t : Tree) (x : NodeId) : Prop :=
  ∃ pos tables r, statement maxNesting (.top t) none {} pos x tables = .ok r

theorem Passes.andThen {x : Lower α} {y : Lower β} {f : β → Lower γ} (first : Passes x y)
    (rest : ∀ b, Passes x (f b)) : Passes x (y >>= f) := by
  intro t r h u
  obtain ⟨⟨b, u₁⟩, done⟩ := first t r h u
  obtain ⟨r', ends⟩ := rest b t r h u₁
  exact ⟨r', except_bind_of_ok done ends⟩

theorem lowers_of_passes {y : Lower α} (pos : Nat) (lowered : y tables = .ok r)
    (h : Passes y (statement maxNesting (.top t) none {} pos x)) : Lowers t x :=
  ⟨pos, tables, h tables r lowered tables⟩

theorem passes_alike {x' : NodeId} (alike : t.Alike Likeness.loose.places t' d x x') (pos pos' : Nat) :
    Passes (statement maxNesting (.top t) none {} pos x) (statement maxNesting (.top t') none {} pos' x') := by
  have same : Context.Same (.top t) (.top t') := ⟨rfl, rfl, rfl⟩
  exact (statement_follows (Nat.le_refl _) False.elim same rfl (fun _ => rfl) (Likeness.like alike) {} {}
    False.elim).passes

theorem Lowers.copied (lowers : Lowers t x) (h : t.Embeds ρ σ D t') (mem : D x) (finite : t.Finite x) :
    Lowers t' (ρ x) := by
  obtain ⟨pos, tables, r, lowered⟩ := lowers
  exact lowers_of_passes pos lowered (passes_alike (alike_loose h mem finite) pos pos)

theorem Lowers.back (lowers : Lowers t' (ρ x)) (h : t.Embeds ρ σ D t') (mem : D x) (finite : t.Finite x) :
    Lowers t x := by
  obtain ⟨pos, tables, r, lowered⟩ := lowers
  exact lowers_of_passes pos lowered (passes_alike (alike_back h mem finite) pos pos)

theorem sequence_each {lower : Nat → α → Lower Segment} {as : List α} {tables : Tables}
    (h : sequence lower pos as tables = .ok r) : ∀ a ∈ as, ∃ pos tables r, lower pos a tables = .ok r := by
  induction as generalizing pos tables r with
  | nil => simp
  | cons a as ih =>
    obtain ⟨first, t₁, made, h⟩ := bind_ok h
    obtain ⟨others, t₂, rest, -⟩ := bind_ok h
    exact List.forall_mem_cons.mpr ⟨⟨pos, tables, _, made⟩, ih rest⟩

/-- Where each can be lowered somewhere, all can one after another. -/
theorem passes_sequence (finite : ∀ x ∈ ids, t.Finite x) (each : ∀ x ∈ ids, Lowers t x) (y : Lower α)
    (pos : Nat) : Passes y (sequence (statement maxNesting (.top t) none {}) pos ids) := by
  induction ids generalizing pos with
  | nil => exact passes_pure _ _
  | cons a as ih =>
    obtain ⟨known, finite⟩ := List.forall_mem_cons.mp finite
    obtain ⟨⟨pos', tables, r, lowered⟩, each⟩ := List.forall_mem_cons.mp each
    have first : Passes y (statement maxNesting (.top t) none {} pos a) := fun _ _ _ u =>
      passes_alike (alike_loose t.embeds_refl trivial known) pos' pos tables r lowered u
    exact first.andThen fun _ => (ih finite each _).andThen fun _ => passes_pure _ _

theorem module_of_ofTree (compiled : Code.ofTree t .exec = .ok k) : t.root = .module t.body := by
  obtain ⟨ids, top, -⟩ := except_bind_ok compiled
  obtain ⟨-, root, -⟩ := topLevel_ok top
  obtain ⟨nodes, root'⟩ := t
  cases root' with
  | module body => rfl
  | expression | interactive => cases root

theorem lowers_of_ofTree (compiled : Code.ofTree t .exec = .ok k) : ∀ x ∈ t.body, Lowers t x := by
  obtain ⟨_, _, _, _, lowered, -, -⟩ := codeFor_of_ofTree compiled
  exact sequence_each lowered

/-- Statements compile if each of them can be lowered. -/
theorem ofTree_of_lowers (root : t.root = .module t.body) (finite : ∀ x ∈ t.body, t.Finite x)
    (each : ∀ x ∈ t.body, Lowers t x) : ∃ k, Code.ofTree t .exec = .ok k := by
  have lowered : Passes (pure () : Lower Unit) (do
      let body ← sequence (statement maxNesting (.top t) none {}) 0 t.body
      return body ++ (← loadLiteral {} .none) ++ [.op .returnValue {}]) :=
    (passes_sequence finite each _ 0).andThen fun _ =>
      (fails_loadLiteral {} .none).passes.andThen fun _ => passes_pure _ _
  obtain ⟨r, made⟩ := lowered {} _ rfl {}
  have top : topLevel t .exec = .ok t.body := by
    simp only [topLevel, root]
    rfl
  exact ⟨_, except_bind_of_ok top (except_bind_of_ok made rfl)⟩

/-- One tree after another compiles if both do. -/
theorem compiles_joined (joins : t₁.Joins t₂ t) (first : Code.ofTree t₁ .exec = .ok k₁)
    (second : Code.ofTree t₂ .exec = .ok k₂) : ∃ k, Code.ofTree t .exec = .ok k := by
  have finite₁ : ∀ x ∈ t₁.body, t₁.Finite x := fun x mem => (body_shaped first x mem).finite
  have finite₂ : ∀ x ∈ t₂.body, t₂.Finite x := fun x mem => (body_shaped second x mem).finite
  have finite : ∀ x ∈ t.body, t.Finite x := fun x => joins.finite finite₁ finite₂
  refine ofTree_of_lowers (by rw [joins.root, joins.body]) finite fun x mem => ?_
  -- places aside both trees stand in it, and what was lowered there is lowered in it
  have there : Lowers t.erased x := by
    rw [joins.body] at mem
    rcases List.mem_append.mp mem with mem | mem
    · exact (lowers_of_ofTree first x mem).copied joins.embeds_first (finite₁ x mem) (finite₁ x mem)
    · obtain ⟨y, listed, rfl⟩ := List.mem_map.mp mem
      exact (lowers_of_ofTree second y listed).copied joins.embeds_second (finite₂ y listed)
        (finite₂ y listed)
  exact there.back t.embeds_erased (finite x mem) (finite x mem)

/-! ### Without the value surfaced -/

theorem passes_exprStmt {y : Lower α} {e : NodeId} (found : c.tree.get? x = some ⟨.exprStmt e, span⟩)
    (h : Passes y (expression c room span pos e)) : Passes y (statement (room + 1) c loop place pos x) := by
  unfold statement
  rw [node_of_get? found, pure_bind]
  exact h.andThen fun _ => passes_pure _ _

theorem passes_storeAll {names : List NodeId} (named : ∀ x ∈ names, ∃ name, c.tree.kind? x = some (.name name))
    (y : Lower α) (pos : Nat) : Passes y (storeAll c (room + 1) span pos names) := by
  have one (x : NodeId) (named : ∃ name, c.tree.kind? x = some (.name name)) (pos : Nat) :
      Passes y (store c (room + 1) span pos x) := by
    obtain ⟨name, known⟩ := named
    obtain ⟨⟨kind, place⟩, found, rfl⟩ := Option.map_eq_some_iff.mp known
    unfold store
    rw [node_of_get? found, pure_bind]
    exact (fails_storeName _ _ _).passes
  induction names generalizing pos with
  | nil => exact passes_pure _ _
  | cons a as ih =>
    obtain ⟨first, rest⟩ := List.forall_mem_cons.mp named
    cases as with
    | nil => exact one a first pos
    | cons b as => exact (one a first _).andThen fun _ => (ih rest _).andThen fun _ => passes_pure _ _

theorem passes_assign {y : Lower α} {targets : List NodeId} {e : NodeId}
    (found : c.tree.get? x = some ⟨.assign targets e, span⟩) (some : targets ≠ [])
    (named : ∀ x ∈ targets, ∃ name, c.tree.kind? x = Option.some (.name name))
    (h : Passes y (expression c (room + 1) span pos e)) :
    Passes y (statement (room + 1 + 1) c loop place pos x) := by
  unfold statement
  rw [node_of_get? found, pure_bind]
  cases targets with
  | nil => exact absurd rfl some
  | cons a as => exact h.andThen fun _ => (passes_storeAll named y _).andThen fun _ => passes_pure _ _

theorem passes_augAssign {y : Lower α} {target e : NodeId}
    (found : c.tree.get? x = some ⟨.augAssign target op e, span⟩)
    (named : c.tree.get? target = some ⟨.name name, place⟩)
    (h : ∀ pos, Passes y (expression c room span pos e)) :
    Passes y (statement (room + 1) c loop around pos x) := by
  unfold statement
  rw [node_of_get? found, pure_bind]
  change Passes y (augmented c room span pos target op e)
  unfold augmented
  rw [node_of_get? named, pure_bind]
  exact (fails_loadName c span name).passes.andThen fun _ => (h _).andThen fun _ =>
    (fails_storeName c span name).passes.andThen fun _ => passes_pure _ _

end Lower

namespace Surface

variable {t t' : Tree} {last : NodeId}

open Lower

/-- The last statement can be lowered as it was. -/
theorem lowers_captured (ordered : t.Ordered) (found : t.get? last = some ⟨kind, span⟩)
    (captured : Captured t last span kind source t') (lowers : Lowers t' last) : Lowers t last := by
  obtain ⟨pos, tables, ⟨s, tables'⟩, lowered⟩ := lowers
  have kind' : t.kind? last = some kind := kind?_of_get? found
  have known := Tree.kind?_lt kind'
  have operand {t' : Tree} {kind₁ : NodeKind} (redone : Redone t t' last kind₁) {e : NodeId}
      (mem : e ∈ kind.children) {room room' : Nat} (le : room' ≤ room) (pos pos' : Nat) :
      Passes (expression (.top t') room' span pos' e) (expression (.top t) room span pos e) := by
    have names : (Context.top t).locals = (Context.top t').locals := rfl
    have below := ordered.below kind' mem
    exact (expression_follows names le False.elim (Likeness.like (alike_back redone.embeds below below.1)) span
      span False.elim).passes
  cases captured with
  | expression e =>
    obtain ⟨redone, -⟩ := redone_ofExpr known e
    obtain ⟨_, _, _, value, -, -⟩ := assign_ok (redone.here found) lowered
    exact lowers_of_passes pos value
      (passes_exprStmt found (operand redone List.mem_cons_self (Nat.le_refl _) pos pos))
  | @assignment names e _ targets nonempty named made =>
    obtain ⟨redone, -⟩ := redone_ofAssign? known made
    obtain ⟨_, _, _, value, -, -⟩ := assign_ok (redone.here found) lowered
    have names : ∀ x ∈ targets, ∃ name, t.kind? x = some (.name name) := by
      intro x mem
      obtain ⟨i, lt, rfl⟩ := List.getElem_of_mem mem
      exact ⟨_, named.get lt (named.length_eq ▸ lt)⟩
    exact lowers_of_passes pos value (passes_assign found nonempty names
      (operand redone (List.mem_append_right targets List.mem_cons_self) (Nat.le_refl _) pos pos))
  | @augmented target name place op e _ named made =>
    obtain ⟨redone, current, combined, -⟩ := redone_ofAugAssign? known named made
    obtain ⟨_, _, _, value, -, -⟩ := assign_ok (redone.here found) lowered
    obtain ⟨_, _, _, -, right, -⟩ := binary_name_ok combined current value
    exact lowers_of_passes pos right (passes_augAssign found named fun pos' =>
      operand redone (List.mem_cons_of_mem _ List.mem_cons_self) (Nat.le_succ _) pos' _)

/-- Where statements compile with their value surfaced, they compile without. -/
theorem compiles_unsurfaced (ordered : t.Ordered) (mode : ReturnMode)
    (compiled : Code.ofTree ((capture? mode t).getD t) .exec = .ok k) :
    ∃ k, Code.ofTree t .exec = .ok k := by
  have root := module_of_ofTree compiled
  have each := lowers_of_ofTree compiled
  rw [root_surfaced ordered, body_surfaced ordered] at root
  rw [body_surfaced ordered] at each
  refine ofTree_of_lowers root (fun x mem => ordered.finite (ordered.resolves x mem)) ?_
  rcases List.eq_nil_or_concat' t.body with empty | ⟨before, last, body⟩
  · simp [empty]
  have known := ordered.resolves last (by simp [body])
  obtain ⟨⟨kind, span⟩, found⟩ : ∃ n, t.get? last = some n := ⟨_, Array.getElem?_eq_getElem known⟩
  rcases capture?_cases mode (by simp [body]) found with ⟨none, -⟩ | ⟨t', surfaced, captured⟩
  · rwa [none] at each
  rw [surfaced, Option.getD_some] at each
  obtain ⟨kind', redone⟩ : ∃ kind', Redone t t' last kind' := captured.redone known
  intro x mem
  rw [body] at mem each
  rcases List.mem_append.mp mem with mem | mem
  · have ahead := ordered.ahead body mem
    exact (each x (List.mem_append_left _ mem)).back redone.embeds ahead ahead.1
  · cases List.mem_singleton.mp mem
    exact lowers_captured ordered found captured (each last (by simp))

end Surface

end Scratchpad
