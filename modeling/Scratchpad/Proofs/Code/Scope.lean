import Scratchpad.Code.Scope
import Scratchpad.Proofs.Tree.Nesting

/-!
# The names of a function

The search for names visits each node at most once. It still finds every name that is declared
global in a function (`mem_global`) or bound in it (`mem_bound`), and no other, in trees with shared
nodes and circles too. What is bound and not declared global is local (`mem_locals`).
-/

namespace Scratchpad

namespace Tree

/-- `child` is right below `id` and belongs to the same function. -/
def Within (t : Tree) (id child : NodeId) : Prop :=
  ∃ kind, t.kind? id = some kind ∧ child ∈ Scope.inside kind

/-- A `global` statement that belongs to the function with this body declares the name. -/
def DeclaresGlobal (t : Tree) (body : List NodeId) (name : String) : Prop :=
  ∃ top ∈ body, ∃ id names, Relation.ReflTransGen t.Within top id ∧
    t.kind? id = some (.globalStmt names) ∧ name ∈ names

/-- `child` is one of the items of a tuple or list. -/
def Item (t : Tree) (id child : NodeId) : Prop :=
  ∃ elts, (t.kind? id = some (.tuple elts) ∨ t.kind? id = some (.list elts)) ∧ child ∈ elts

/-- Storing to the target, or to what it is taken apart into, stores under the name. -/
def Targets (t : Tree) (target : NodeId) (name : String) : Prop :=
  ∃ id, Relation.ReflTransGen t.Item target id ∧ t.kind? id = some (.name name)

/-- A node of this kind binds the name itself. -/
inductive Binds (t : Tree) : NodeKind → String → Prop
  | functionDef {body : List NodeId} : Binds t (.functionDef name params body) name
  | named : Binds t (.named name value) name
  | assign (mem : target ∈ targets) (stores : t.Targets target name) :
      Binds t (.assign targets value) name
  | augAssign (stores : t.Targets target name) : Binds t (.augAssign target op value) name
  | forLoop {body : List NodeId} (stores : t.Targets target name) :
      Binds t (.forLoop target iter body) name

/-- A node that belongs to the function with this body binds the name. -/
def BindsIn (t : Tree) (body : List NodeId) (name : String) : Prop :=
  ∃ top ∈ body, ∃ id kind, Relation.ReflTransGen t.Within top id ∧ t.kind? id = some kind ∧
    t.Binds kind name

end Tree

namespace Scope

/-! ### Searches -/

/-- The nodes that a search comes to, in order; `below` are those that a node leads to. -/
def visits (below : NodeId → List NodeId) (fresh pending : List NodeId) : List NodeId :=
  match pending with
  | [] => []
  | id :: pending =>
    if h : id ∈ fresh then
      have : (fresh.erase id).length < fresh.length := by
        have := List.length_pos_of_mem h
        rw [List.length_erase_of_mem h]; omega
      id :: visits below (fresh.erase id) (below id ++ pending)
    else visits below fresh pending
termination_by (fresh.length, pending.length)

/-- A way down that meets fresh nodes only. -/
inductive Way (below : NodeId → List NodeId) (fresh : List NodeId) : NodeId → NodeId → Prop
  | here (mem : top ∈ fresh) : Way below fresh top top
  | down (mem : top ∈ fresh) (step : child ∈ below top) (rest : Way below fresh child x) :
      Way below fresh top x

section

variable {below : NodeId → List NodeId} {x : NodeId}

theorem Way.fresh {fresh : List NodeId} (h : Way below fresh top x) : top ∈ fresh := by
  cases h with
  | here mem => exact mem
  | down mem => exact mem

variable {fresh pending : List NodeId}

/-- Once `id` is visited, what a way leads to is `id`, or is found below it, or without it. -/
theorem Way.visit (h : Way below fresh top x) (id : NodeId) :
    x = id ∨ (∃ child ∈ below id, Way below (fresh.erase id) child x) ∨
      (top ≠ id ∧ Way below (fresh.erase id) top x) := by
  induction h with
  | @here top mem =>
    by_cases same : top = id
    · exact .inl same
    · exact .inr (.inr ⟨same, .here ((List.mem_erase_of_ne same).mpr mem)⟩)
  | @down top child x mem step rest ih =>
    rcases ih with last | found | ⟨_, around⟩
    · exact .inl last
    · exact .inr (.inl found)
    · by_cases same : top = id
      · exact .inr (.inl ⟨child, same ▸ step, around⟩)
      · exact .inr (.inr ⟨same, .down ((List.mem_erase_of_ne same).mpr mem) step around⟩)

theorem mem_visits_of_way (h : ∃ top ∈ pending, Way below fresh top x) :
    x ∈ visits below fresh pending := by
  fun_induction visits below fresh pending with
  | case1 =>
    obtain ⟨_, none, _⟩ := h
    cases none
  | case2 fresh id pending _ _ ih =>
    obtain ⟨top, listed, way⟩ := h
    rcases way.visit id with rfl | ⟨child, inner, way⟩ | ⟨other, way⟩
    · exact List.mem_cons_self
    · exact List.mem_cons_of_mem _ (ih ⟨child, List.mem_append_left _ inner, way⟩)
    · have later := List.mem_of_ne_of_mem other listed
      exact List.mem_cons_of_mem _ (ih ⟨top, List.mem_append_right _ later, way⟩)
  | case3 fresh id pending seen ih =>
    obtain ⟨top, listed, way⟩ := h
    rcases List.mem_cons.mp listed with rfl | later
    · exact absurd way.fresh seen
    · exact ih ⟨top, later, way⟩

theorem Way.mono {fresh' : List NodeId} (le : fresh ⊆ fresh') (h : Way below fresh top x) :
    Way below fresh' top x := by
  induction h with
  | here mem => exact .here (le mem)
  | down mem step _ ih => exact .down (le mem) step ih

theorem Way.snoc {y : NodeId} (h : Way below fresh top x) (step : y ∈ below x) (mem : y ∈ fresh) :
    Way below fresh top y := by
  induction h with
  | here here => exact .down here step (.here mem)
  | down here down _ ih => exact .down here down (ih step)

theorem Way.path (h : Way below fresh top x) :
    x ∈ fresh ∧ Relation.ReflTransGen (fun id child => child ∈ below id) top x := by
  induction h with
  | here mem => exact ⟨mem, .refl⟩
  | down _ step _ ih => exact ⟨ih.1, .head step ih.2⟩

/-- A search comes to a node exactly if it finds a fresh way to it. -/
theorem mem_visits : x ∈ visits below fresh pending ↔ ∃ top ∈ pending, Way below fresh top x := by
  refine ⟨fun h => ?_, mem_visits_of_way⟩
  fun_induction visits below fresh pending with
  | case1 => cases h
  | case2 fresh id pending mem _ ih =>
    rcases List.mem_cons.mp h with rfl | later
    · exact ⟨x, List.mem_cons_self, .here mem⟩
    · obtain ⟨top, listed, way⟩ := ih later
      have way := way.mono List.erase_subset
      rcases List.mem_append.mp listed with inner | outer
      · exact ⟨id, List.mem_cons_self, .down mem inner way⟩
      · exact ⟨top, List.mem_cons_of_mem id outer, way⟩
  | case3 fresh id pending seen ih =>
    obtain ⟨top, listed, way⟩ := ih h
    exact ⟨top, List.mem_cons_of_mem id listed, way⟩

/-- A search through all nodes finds whatever can be got to. -/
theorem mem_visits_range {n : Nat} (inside : ∀ id, below id ≠ [] → id < n) :
    x ∈ visits below (List.range n) pending ↔
      x < n ∧ ∃ top ∈ pending, Relation.ReflTransGen (fun id child => child ∈ below id) top x := by
  constructor
  · intro h
    obtain ⟨top, listed, way⟩ := mem_visits.mp h
    exact ⟨List.mem_range.mp way.path.1, top, listed, way.path.2⟩
  · rintro ⟨lt, top, listed, path⟩
    refine mem_visits_of_way ⟨top, listed, ?_⟩
    clear listed
    induction path using Relation.ReflTransGen.head_induction_on with
    | refl => exact .here (List.mem_range.mpr lt)
    | @head id child step _ ih =>
      have known := inside id (List.ne_nil_of_mem step)
      exact .down (List.mem_range.mpr known) step ih

end

variable {t : Tree} {name : String}

/-! ### Targets -/

def items (t : Tree) (id : NodeId) : List NodeId :=
  match t.kind? id with
  | some (.tuple elts) | some (.list elts) => elts
  | _ => []

def nameAt (t : Tree) (id : NodeId) : List String :=
  match t.kind? id with
  | some (.name name) => [name]
  | _ => []

theorem mem_items {id child : NodeId} : child ∈ items t id ↔ t.Item id child := by
  constructor
  · intro h
    unfold items at h
    split at h
    · exact ⟨_, .inl ‹_›, h⟩
    · exact ⟨_, .inr ‹_›, h⟩
    · cases h
  · rintro ⟨elts, found | found, mem⟩
    · simpa [items, found] using mem
    · simpa [items, found] using mem

theorem mem_nameAt {id : NodeId} : name ∈ nameAt t id ↔ t.kind? id = some (.name name) := by
  unfold nameAt
  split
  · rename_i found
    rw [found, List.mem_singleton, Option.some.injEq, NodeKind.name.injEq, eq_comm]
  · rename_i other
    exact ⟨nofun, fun found => (other name found).elim⟩

theorem targetNames_eq (fresh pending : List NodeId) :
    targetNames t fresh pending = (visits (items t) fresh pending).flatMap (nameAt t) := by
  fun_induction targetNames t fresh pending with
  | case1 => rw [visits, List.flatMap_nil]
  | case2 fresh id pending mem _ name found ih =>
    rw [visits, dif_pos mem, List.flatMap_cons, ih]
    simp [items, nameAt, found]
  | case3 fresh id pending mem _ elts found ih | case4 fresh id pending mem _ elts found ih =>
    rw [visits, dif_pos mem, List.flatMap_cons, ih]
    simp [items, nameAt, found]
  | case5 fresh id pending mem _ other other' other'' ih =>
    have none : items t id = [] ∧ nameAt t id = [] := by
      unfold items nameAt
      constructor
      · split
        · exact (other' _ ‹_›).elim
        · exact (other'' _ ‹_›).elim
        · rfl
      · split
        · exact (other _ ‹_›).elim
        · rfl
    rw [visits, dif_pos mem, List.flatMap_cons, ih, none.1, none.2]
    rfl
  | case6 fresh id pending seen ih => rw [visits, dif_neg seen, ih]

theorem mem_targetNames {target : NodeId} :
    name ∈ targetNames t (List.range t.size) [target] ↔ t.Targets target name := by
  have inside (id : NodeId) (some : items t id ≠ []) : id < t.size := by
    obtain ⟨child, mem⟩ := List.exists_mem_of_ne_nil _ some
    obtain ⟨elts, found | found, _⟩ := mem_items.mp mem
    · exact Tree.kind?_lt found
    · exact Tree.kind?_lt found
  rw [targetNames_eq, List.mem_flatMap]
  simp only [mem_visits_range inside, mem_items, mem_nameAt, List.mem_singleton, exists_eq_left]
  constructor
  · rintro ⟨id, ⟨_, path⟩, found⟩
    exact ⟨id, path, found⟩
  · rintro ⟨id, path, found⟩
    exact ⟨id, ⟨Tree.kind?_lt found, path⟩, found⟩

/-! ### Functions -/

theorem mem_ownNames_bound {kind : NodeKind} : name ∈ (ownNames t kind).bound ↔ t.Binds kind name := by
  constructor
  · intro h
    cases kind with
    | functionDef other params body =>
      cases List.mem_singleton.mp h
      exact .functionDef
    | named target value =>
      cases List.mem_singleton.mp h
      exact .named
    | assign targets value =>
      obtain ⟨target, mem, stores⟩ := List.mem_flatMap.mp h
      exact .assign mem (mem_targetNames.mp stores)
    | augAssign target op value => exact .augAssign (mem_targetNames.mp h)
    | forLoop target iter body => exact .forLoop (mem_targetNames.mp h)
    | _ => cases h
  · intro h
    cases h with
    | functionDef | named => exact List.mem_singleton.mpr rfl
    | assign mem stores => exact List.mem_flatMap.mpr ⟨_, mem, mem_targetNames.mpr stores⟩
    | augAssign stores | forLoop stores => exact mem_targetNames.mpr stores

theorem mem_ownNames_global {kind : NodeKind} :
    name ∈ (ownNames t kind).global ↔ ∃ names, kind = .globalStmt names ∧ name ∈ names := by
  cases kind with
  | globalStmt names =>
    exact ⟨fun h => ⟨names, rfl, h⟩, by rintro ⟨_, ⟨⟩, h⟩; exact h⟩
  | _ => exact ⟨nofun, nofun⟩

/-- The nodes right below that belong to the same function. -/
def within (t : Tree) (id : NodeId) : List NodeId := (t.kind? id).elim [] inside

def namesAt (t : Tree) (id : NodeId) : Names := (t.kind? id).elim {} (ownNames t)

theorem mem_within {id child : NodeId} : child ∈ within t id ↔ t.Within id child := by
  unfold within Tree.Within
  cases t.kind? id with
  | none => simp
  | some kind => simp

theorem names_eq (fresh pending : List NodeId) :
    names t fresh pending = ⟨(visits (within t) fresh pending).flatMap fun id => (namesAt t id).bound,
      (visits (within t) fresh pending).flatMap fun id => (namesAt t id).global⟩ := by
  fun_induction names t fresh pending with
  | case1 => simp [visits]
  | case2 fresh id pending mem _ kind found own others ih =>
    rw [visits, dif_pos mem]
    simp [others, ih, own, within, namesAt, found]
  | case3 fresh id pending mem _ unknown ih =>
    rw [visits, dif_pos mem]
    simp [ih, within, namesAt, unknown]
  | case4 fresh id pending seen ih => rw [visits, dif_neg seen, ih]

/-- A search through the body of a function comes to what belongs to it. -/
theorem mem_visits_within {body : List NodeId} {x : NodeId} :
    x ∈ visits (within t) (List.range t.size) body ↔
      x < t.size ∧ ∃ top ∈ body, Relation.ReflTransGen t.Within top x := by
  have inside (id : NodeId) (some : within t id ≠ []) : id < t.size := by
    obtain ⟨child, mem⟩ := List.exists_mem_of_ne_nil _ some
    obtain ⟨kind, found, _⟩ := mem_within.mp mem
    exact Tree.kind?_lt found
  simp only [mem_visits_range inside, mem_within]

theorem mem_global {body : List NodeId} :
    name ∈ (ofBody t body).global ↔ t.DeclaresGlobal body name := by
  rw [ofBody, names_eq, List.mem_flatMap]
  constructor
  · rintro ⟨id, visited, mem⟩
    obtain ⟨_, top, listed, path⟩ := mem_visits_within.mp visited
    unfold namesAt at mem
    cases found : t.kind? id with
    | none => rw [found] at mem; cases mem
    | some kind =>
      rw [found] at mem
      obtain ⟨names, rfl, declared⟩ := mem_ownNames_global.mp mem
      exact ⟨top, listed, id, names, path, found, declared⟩
  · rintro ⟨top, listed, id, names, path, found, declared⟩
    refine ⟨id, mem_visits_within.mpr ⟨Tree.kind?_lt found, top, listed, path⟩, ?_⟩
    rw [namesAt, found]
    exact (mem_ownNames_global (t := t)).mpr ⟨names, rfl, declared⟩

theorem mem_bound {body : List NodeId} : name ∈ (ofBody t body).bound ↔ t.BindsIn body name := by
  rw [ofBody, names_eq, List.mem_flatMap]
  constructor
  · rintro ⟨id, visited, mem⟩
    obtain ⟨_, top, listed, path⟩ := mem_visits_within.mp visited
    unfold namesAt at mem
    cases found : t.kind? id with
    | none => rw [found] at mem; cases mem
    | some kind =>
      rw [found] at mem
      exact ⟨top, listed, id, kind, path, found, mem_ownNames_bound.mp mem⟩
  · rintro ⟨top, listed, id, kind, path, found, binds⟩
    refine ⟨id, mem_visits_within.mpr ⟨Tree.kind?_lt found, top, listed, path⟩, ?_⟩
    rw [namesAt, found]
    exact mem_ownNames_bound.mpr binds

/-! ### Local variables -/

theorem mem_addNew {names : List String} {other : String} :
    name ∈ addNew names other ↔ name ∈ names ∨ name = other := by
  unfold addNew
  split
  · rename_i known
    rw [List.contains_iff_mem] at known
    exact ⟨.inl, fun h => h.elim id fun same => same ▸ known⟩
  · rw [List.mem_append, List.mem_singleton]

theorem mem_foldl_addNew {names more : List String} :
    name ∈ more.foldl addNew names ↔ name ∈ names ∨ name ∈ more := by
  induction more generalizing names with
  | nil => simp
  | cons other more ih => rw [List.foldl_cons, ih, mem_addNew, List.mem_cons, or_assoc]

theorem nodup_foldl_addNew {names : List String} (h : names.Nodup) (more : List String) :
    (more.foldl addNew names).Nodup := by
  induction more generalizing names with
  | nil => exact h
  | cons other more ih =>
    refine ih ?_
    unfold addNew
    split
    · exact h
    · rename_i fresh
      rw [List.contains_iff_mem] at fresh
      exact List.nodup_append.mpr ⟨h, List.nodup_singleton other, by
        rintro x mem _ last rfl
        exact fresh (List.mem_singleton.mp last ▸ mem)⟩

theorem prefix_foldl_addNew (names more : List String) : names <+: more.foldl addNew names := by
  induction more generalizing names with
  | nil => exact List.prefix_rfl
  | cons other more ih =>
    refine List.IsPrefix.trans ?_ (ih (addNew names other))
    unfold addNew
    split
    · exact List.prefix_rfl
    · exact List.prefix_append names [other]

theorem foldl_addNew_of_nodup {names more : List String} (h : (names ++ more).Nodup) :
    more.foldl addNew names = names ++ more := by
  induction more generalizing names with
  | nil => exact (List.append_nil names).symm
  | cons other more ih =>
    have fresh : other ∉ names := fun mem =>
      (List.nodup_append.mp h).2.2 other mem other List.mem_cons_self rfl
    have added : addNew names other = names ++ [other] := by
      rw [addNew, if_neg (by simpa using fresh)]
    rw [List.foldl_cons, added, ih (by simpa using h), List.append_assoc, List.singleton_append]

theorem mem_locals {params : List String} {n : Names} :
    name ∈ locals params n ↔ name ∈ params ∨ (name ∈ n.bound ∧ name ∉ n.global) := by
  simp [locals, mem_foldl_addNew]

end Scope

end Scratchpad
