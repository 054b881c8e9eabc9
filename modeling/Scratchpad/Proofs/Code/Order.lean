import Scratchpad.Proofs.Tree.Unfold

/-!
# The order of local variables

A search that visits each node once comes to shared nodes only the first time. Where nothing goes round
in a circle, it still meets names for the first time in the order of the unfolded tree (`firsts_visits`),
and so the local variables depend on that tree alone (`locals_alike`).
-/

namespace Scratchpad

namespace Scope

/-! ### First occurrences -/

/-- The same names, in the order in which they come first. -/
def SameFirsts (xs ys : List String) : Prop := ∀ names, xs.foldl addNew names = ys.foldl addNew names

theorem sameFirsts_refl (xs : List String) : SameFirsts xs xs := fun _ => rfl

theorem SameFirsts.append (h : SameFirsts xs ys) (h' : SameFirsts xs' ys') :
    SameFirsts (xs ++ xs') (ys ++ ys') := by
  intro names
  rw [List.foldl_append, List.foldl_append, h, h']

theorem SameFirsts.flatMap {f : α → List String} {g : β → List String} {as : List α} {bs : List β}
    (h : List.Forall₂ (fun a b => SameFirsts (f a) (g b)) as bs) :
    SameFirsts (as.flatMap f) (bs.flatMap g) := by
  induction h with
  | nil => exact sameFirsts_refl _
  | cons first _ ih =>
    rw [List.flatMap_cons, List.flatMap_cons]
    exact first.append ih

theorem foldl_addNew_of_subset {names more : List String} (h : more ⊆ names) :
    more.foldl addNew names = names := by
  induction more with
  | nil => rfl
  | cons name more ih =>
    obtain ⟨known, rest⟩ := List.cons_subset.mp h
    rw [List.foldl_cons, addNew, if_pos (List.contains_iff_mem.mpr known), ih rest]

/-! ### Searches and unfolding -/

section

variable {below : NodeId → List NodeId} {fresh xs ys : List NodeId}

/-- What is still fresh after some visits. -/
def unseen (fresh visited : List NodeId) : List NodeId := visited.foldl List.erase fresh

theorem mem_unseen {visited : List NodeId} (nodup : fresh.Nodup) :
    x ∈ unseen fresh visited ↔ x ∈ fresh ∧ x ∉ visited := by
  induction visited generalizing fresh with
  | nil => simp [unseen]
  | cons y visited ih =>
    have rest := ih (nodup.erase y)
    rw [unseen, List.foldl_cons]
    rw [unseen] at rest
    rw [rest, nodup.mem_erase_iff, List.mem_cons, not_or]
    exact ⟨fun ⟨⟨ne, mem⟩, other⟩ => ⟨mem, ne, other⟩, fun ⟨mem, ne, other⟩ => ⟨⟨ne, mem⟩, other⟩⟩

theorem nodup_unseen {visited : List NodeId} (nodup : fresh.Nodup) : (unseen fresh visited).Nodup := by
  induction visited generalizing fresh with
  | nil => exact nodup
  | cons y visited ih => exact ih (nodup.erase y)

/-- One search after another. -/
theorem visits_append : visits below fresh (xs ++ ys) =
    visits below fresh xs ++ visits below (unseen fresh (visits below fresh xs)) ys := by
  fun_induction visits below fresh xs with
  | case1 => rfl
  | case2 fresh id pending mem _ ih =>
    rw [List.cons_append, visits, dif_pos mem, ← List.append_assoc, ih]
    rfl
  | case3 fresh id pending seen ih => rw [List.cons_append, visits, dif_neg seen, ih]

end

variable {below : NodeId → List NodeId} {label : NodeId → List String} {fresh xs : List NodeId}
  {names : List String} {x : NodeId}

abbrev Path (below : NodeId → List NodeId) : NodeId → NodeId → Prop :=
  Relation.ReflTransGen fun id child => child ∈ below id

/-- The labels of all nodes on the ways down, in order. -/
def spread (below : NodeId → List NodeId) (label : NodeId → List String) : Nat → NodeId → List String
  | 0, _ => []
  | depth + 1, id => label id ++ (below id).flatMap (spread below label depth)

theorem path_of_mem_spread {d : Nat} {name : String} (h : name ∈ spread below label d x) :
    ∃ y, Path below x y ∧ name ∈ label y := by
  induction d generalizing x with
  | zero => cases h
  | succ d ih =>
    rcases List.mem_append.mp h with own | inner
    · exact ⟨x, .refl, own⟩
    · obtain ⟨child, mem, inner⟩ := List.mem_flatMap.mp inner
      obtain ⟨y, path, found⟩ := ih inner
      exact ⟨y, .head mem path, found⟩

/-- A search in progress. What it can get to and has seen, it is done with: it has seen all that is right
below, and knows the labels. -/
structure Resumed (below : NodeId → List NodeId) (label : NodeId → List String) (fresh xs : List NodeId)
    (names : List String) : Prop where
  nodup : fresh.Nodup
  settled : ∀ x ∈ xs, ∀ y, Path below x y → y ∉ fresh → ∀ child ∈ below y, child ∉ fresh
  known : ∀ x ∈ xs, ∀ y, Path below x y → y ∉ fresh → label y ⊆ names

theorem Resumed.seen (h : Resumed below label fresh (x :: xs) names) (seen : x ∉ fresh) {y : NodeId}
    (path : Path below x y) : y ∉ fresh := by
  induction path with
  | refl => exact seen
  | tail path step ih => exact h.settled x List.mem_cons_self _ path ih _ step

/-- A node that was seen before has nothing new. -/
theorem Resumed.spread_known (h : Resumed below label fresh (x :: xs) names) (seen : x ∉ fresh) (d : Nat) :
    (spread below label d x).foldl addNew names = names := by
  refine foldl_addNew_of_subset fun name mem => ?_
  obtain ⟨y, path, found⟩ := path_of_mem_spread mem
  exact h.known x List.mem_cons_self y path (h.seen seen path) found

/-- Going on below a node. The node itself is seen now, but there is no way back to it. -/
theorem Resumed.enter (h : Resumed below label fresh (x :: xs) names)
    (acyclic : ∀ child ∈ below x, ¬ Path below child x) :
    Resumed below label (fresh.erase x) (below x) ((label x).foldl addNew names) where
  nodup := h.nodup.erase x
  settled child mem y path seen grandchild step := by
    have ne : y ≠ x := by
      rintro rfl
      exact acyclic child mem path
    rw [h.nodup.mem_erase_iff, not_and] at seen
    have done := h.settled x List.mem_cons_self y (.head mem path) (seen ne) grandchild step
    exact fun mem => done (List.mem_of_mem_erase mem)
  known child mem y path seen name found := by
    have ne : y ≠ x := by
      rintro rfl
      exact acyclic child mem path
    rw [h.nodup.mem_erase_iff, not_and] at seen
    exact mem_foldl_addNew.mpr (.inl (h.known x List.mem_cons_self y (.head mem path) (seen ne) found))

/-- Going on beside a node. All that it leads to is seen now. -/
theorem Resumed.leave (h : Resumed below label fresh (x :: xs) names) :
    Resumed below label (unseen fresh (visits below fresh [x])) xs
      (((visits below fresh [x]).flatMap label).foldl addNew names) where
  nodup := nodup_unseen h.nodup
  settled top mem y path seen child step := by
    rw [mem_unseen h.nodup, not_and, not_not] at seen ⊢
    intro left
    by_cases before : y ∈ fresh
    · obtain ⟨_, listed, way⟩ := mem_visits.mp (seen before)
      exact mem_visits.mpr ⟨_, listed, way.snoc step left⟩
    · exact absurd left (h.settled top (List.mem_cons_of_mem x mem) y path before child step)
  known top mem y path seen name found := by
    rw [mem_unseen h.nodup, not_and, not_not] at seen
    rw [mem_foldl_addNew, List.mem_flatMap]
    by_cases before : y ∈ fresh
    · exact .inr ⟨y, seen before, found⟩
    · exact .inl (h.known top (List.mem_cons_of_mem x mem) y path before found)

theorem visits_singleton (mem : x ∈ fresh) :
    visits below fresh [x] = x :: visits below (fresh.erase x) (below x) := by
  rw [visits, dif_pos mem, List.append_nil]

/-- A search meets names for the first time in the order of the unfolded tree. -/
theorem firsts_visits {t : Tree} (inside : ∀ id, ∀ child ∈ below id, t.Mentions id child) {d : Nat}
    (fits : ∀ x ∈ xs, t.Fits d x) (h : Resumed below label fresh xs names) :
    ((visits below fresh xs).flatMap label).foldl addNew names =
      (xs.flatMap (spread below label d)).foldl addNew names := by
  induction d generalizing fresh xs names with
  | zero =>
    cases xs with
    | nil => rw [visits]; rfl
    | cons x xs => exact (fits x List.mem_cons_self).elim
  | succ d below_ih =>
    induction xs generalizing fresh names with
    | nil => rw [visits]; rfl
    | cons x xs ih =>
      obtain ⟨fit, fits'⟩ := List.forall_mem_cons.mp fits
      have one : ((visits below fresh [x]).flatMap label).foldl addNew names =
          (spread below label (d + 1) x).foldl addNew names := by
        by_cases mem : x ∈ fresh
        · have acyclic : ∀ child ∈ below x, ¬ Path below child x := fun child step path =>
            fit.not_mentions_self (.head' (inside x child step) (Relation.ReflTransGen.mono inside _ _ path))
          have inner : ∀ child ∈ below x, t.Fits d child := fun child step => by
            obtain ⟨kind, found, mem⟩ := inside x child step
            exact fit.child found mem
          rw [visits_singleton mem, List.flatMap_cons, List.foldl_append, below_ih inner (h.enter acyclic),
            spread, List.foldl_append]
        · rw [h.spread_known mem, visits, dif_neg mem, visits]
          rfl
      rw [← List.singleton_append, visits_append, List.flatMap_append, List.foldl_append, ih fits' h.leave,
        one, List.flatMap_append, List.foldl_append, List.flatMap_singleton]

/-! ### Trees that unfold alike -/

/-- Nothing that the search can get to is missing at the start. -/
theorem resumed_range {t : Tree} (inside : ∀ id, ∀ child ∈ below id, t.Mentions id child) {d : Nat}
    (fits : ∀ x ∈ xs, t.Fits d x) : Resumed below label (List.range t.size) xs names := by
  have there {x y : NodeId} (mem : x ∈ xs) (path : Path below x y) : y ∈ List.range t.size :=
    List.mem_range.mpr (Tree.Finite.lt ⟨d, (fits x mem).below (Relation.ReflTransGen.mono inside _ _ path)⟩)
  exact ⟨List.nodup_range, fun _ mem _ path out => absurd (there mem path) out,
    fun _ mem _ path out => absurd (there mem path) out⟩

/-- Two searches that see the same at nodes that unfold alike. -/
structure Parallel (P : Span → Span → Prop) (t t' : Tree) (below below' : NodeId → List NodeId) (label label' : NodeId → List String) :
    Prop where
  inside : ∀ id, ∀ child ∈ below id, t.Mentions id child
  inside' : ∀ id, ∀ child ∈ below' id, t'.Mentions id child
  labels : ∀ {d x x'}, t.Alike P t' (d + 1) x x' → SameFirsts (label x) (label' x')
  below : ∀ {d x x'}, t.Alike P t' (d + 1) x x' → List.Forall₂ (t.Alike P t' d) (below x) (below' x')

section

variable {P : Span → Span → Prop} {t t' : Tree} {below' : NodeId → List NodeId} {label' : NodeId → List String} {d : Nat}
  {xs' : List NodeId}

theorem Parallel.spread (h : Parallel P t t' below below' label label') {x x' : NodeId}
    (alike : t.Alike P t' d x x') : SameFirsts (spread below label d x) (spread below' label' d x') := by
  induction d generalizing x x' with
  | zero => exact sameFirsts_refl _
  | succ d ih => exact (h.labels alike).append (.flatMap ((h.below alike).imp fun _ _ => ih))

theorem fits_of_alike (alike : List.Forall₂ (t.Alike P t' d) xs xs') : ∀ x ∈ xs, t.Fits d x := by
  induction alike with
  | nil => exact fun _ none => absurd none List.not_mem_nil
  | cons first _ ih => exact List.forall_mem_cons.mpr ⟨first.fits, ih⟩

/-- Whatever the order and the sharing of nodes, both meet the same names first. -/
theorem Parallel.visits (h : Parallel P t t' below below' label label')
    (alike : List.Forall₂ (t.Alike P t' d) xs xs') :
    SameFirsts ((visits below (List.range t.size) xs).flatMap label)
      ((visits below' (List.range t'.size) xs').flatMap label') := by
  have fits := fits_of_alike alike
  have fits' := fits_of_alike (alike.flip.imp fun _ _ alike => Tree.Alike.symm (Q := flip P) alike id)
  intro names
  rw [firsts_visits h.inside fits (resumed_range h.inside fits),
    firsts_visits h.inside' fits' (resumed_range h.inside' fits')]
  exact SameFirsts.flatMap (alike.imp fun _ _ => h.spread) names

theorem mentions_of_within {id child : NodeId} (h : child ∈ within t id) : t.Mentions id child := by
  obtain ⟨kind, found, mem⟩ := mem_within.mp h
  exact ⟨kind, found, mem_children_of_inside mem⟩

theorem mentions_of_items {id child : NodeId} (h : child ∈ items t id) : t.Mentions id child := by
  obtain ⟨elts, found | found, mem⟩ := mem_items.mp h
  · exact ⟨_, found, mem⟩
  · exact ⟨_, found, mem⟩

theorem targets_alike {x x' : NodeId} (alike : t.Alike P t' d x x') (p : String → Bool) :
    SameFirsts ((targetNames t (List.range t.size) [x]).filter p)
      ((targetNames t' (List.range t'.size) [x']).filter p) := by
  have searches : Parallel P t t' (items t) (items t') (fun id => (nameAt t id).filter p)
      (fun id => (nameAt t' id).filter p) := by
    refine ⟨fun _ _ => mentions_of_items, fun _ _ => mentions_of_items, ?_, ?_⟩
    · rintro d x x' ⟨_, _, found, found', kind, span, span', ρ, ρ', rfl, rfl, _, _⟩
      have same : nameAt t x = nameAt t' x' := by
        unfold nameAt Tree.kind?
        rw [found, found']
        cases kind <;> rfl
      rw [same]
      exact sameFirsts_refl _
    · rintro d x x' ⟨_, _, found, found', kind, span, span', ρ, ρ', rfl, rfl, _, below⟩
      unfold items Tree.kind?
      rw [found, found']
      cases kind with
      | tuple elts | list elts => exact forall₂_map below
      | _ => exact .nil
  rw [targetNames_eq, targetNames_eq, List.filter_flatMap, List.filter_flatMap]
  exact searches.visits (.cons alike .nil)

theorem own_alike {x x' : NodeId} (alike : t.Alike P t' (d + 1) x x') (p : String → Bool) :
    SameFirsts ((namesAt t x).bound.filter p) ((namesAt t' x').bound.filter p) := by
  obtain ⟨_, _, found, found', kind, span, span', ρ, ρ', rfl, rfl, _, below⟩ := alike
  unfold namesAt Tree.kind?
  rw [found, found']
  cases kind with
  | assign targets value =>
    simp only [Option.map_some, Option.elim_some, NodeKind.rename, ownNames, List.filter_flatMap]
    refine .flatMap (forall₂_map fun y mem => ?_)
    exact targets_alike (below y (List.mem_append_left _ mem)) p
  | augAssign target op value => exact targets_alike (below target List.mem_cons_self) p
  | forLoop target iter body => exact targets_alike (below target List.mem_cons_self) p
  | _ => exact sameFirsts_refl _

theorem within_alike {x x' : NodeId} (alike : t.Alike P t' (d + 1) x x') :
    List.Forall₂ (t.Alike P t' d) (within t x) (within t' x') := by
  obtain ⟨_, _, found, found', kind, span, span', ρ, ρ', rfl, rfl, _, below⟩ := alike
  unfold within Tree.kind?
  rw [found, found']
  simp only [Option.map_some, Option.elim_some, inside_rename]
  exact forall₂_map fun y mem => below y (mem_children_of_inside mem)

theorem bound_alike {body body' : List NodeId} (alike : List.Forall₂ (t.Alike P t' d) body body')
    (p : String → Bool) :
    SameFirsts ((ofBody t body).bound.filter p) ((ofBody t' body').bound.filter p) := by
  have searches : Parallel P t t' (within t) (within t') (fun id => (namesAt t id).bound.filter p)
      (fun id => (namesAt t' id).bound.filter p) :=
    ⟨fun _ _ => mentions_of_within, fun _ _ => mentions_of_within, fun alike => own_alike alike p,
      within_alike⟩
  simp only [ofBody, names_eq, List.filter_flatMap]
  exact searches.visits alike

theorem global_alike {body body' : List NodeId} (alike : List.Forall₂ (t.Alike P t' d) body body') :
    (ofBody t body).global.contains = (ofBody t' body').global.contains := by
  have searches : Parallel P t t' (within t) (within t') (fun id => (namesAt t id).global)
      (fun id => (namesAt t' id).global) := by
    refine ⟨fun _ _ => mentions_of_within, fun _ _ => mentions_of_within, ?_, within_alike⟩
    rintro d x x' ⟨_, _, found, found', kind, span, span', ρ, ρ', rfl, rfl, _, _⟩
    unfold namesAt Tree.kind?
    rw [found, found']
    cases kind <;> exact sameFirsts_refl _
  have same := searches.visits alike
  funext name
  rw [Bool.eq_iff_iff, List.contains_iff_mem, List.contains_iff_mem]
  have members := congrArg (name ∈ ·) (same [])
  simpa only [mem_foldl_addNew, List.not_mem_nil, false_or, ofBody, names_eq, eq_iff_iff] using members

theorem locals_alike {body body' : List NodeId} (alike : List.Forall₂ (t.Alike P t' d) body body')
    (params : List String) : locals params (ofBody t body) = locals params (ofBody t' body') := by
  unfold locals
  rw [global_alike alike]
  exact bound_alike alike _ _

end

end Scope

end Scratchpad
