import Scratchpad.Proofs.Code.Compiled

/-!
# The codes of functions

`Defines` says which code a function definition has. The codes that stand inside the code of a tree
are those of the definitions in the tree, each of which has one (`holds_iff`, `defines_of_reached`).
-/

namespace Scratchpad

/-! ### Definitions -/

/-- A node in this role is no statement. -/
def Role.IsPlain : Role → Prop
  | .statement _ _ => False
  | _ => True

theorem Role.isPlain_below {role : Role} {kind : NodeKind} (plain : role.IsPlain) :
    ∀ p ∈ role.below kind, p.1.IsPlain := by
  intro p mem
  unfold below at mem
  split at mem
  all_goals first
    | exact plain.elim
    | obtain ⟨x, _, rfl⟩ := List.mem_map.mp mem
      trivial

namespace Tree

variable {t : Tree} {mode : Mode} {id : NodeId}

def IsDefinition (t : Tree) (id : NodeId) : Prop :=
  ∃ name params body, t.kind? id = some (.functionDef name params body)

/-- The function that the node defines has this code. -/
def Defines (t : Tree) (mode : Mode) (id : NodeId) (k : Code) : Prop :=
  ∃ name params body span, t.get? id = some ⟨.functionDef name params body, span⟩ ∧
    Lower.function ⟨t, mode, false, []⟩ (Lower.statement Lower.maxNesting) span name params body =
      .ok k

theorem Defines.unique (h : t.Defines mode id k) (h' : t.Defines mode id k') : k = k' := by
  obtain ⟨name, params, body, span, found, lowered⟩ := h
  obtain ⟨_, _, _, _, found', lowered'⟩ := h'
  cases found.symm.trans found'
  exact Except.ok.inj (lowered.symm.trans lowered')

theorem Within.mentions {child : NodeId} (h : t.Within id child) : t.Mentions id child := by
  obtain ⟨kind, found, mem⟩ := h
  refine ⟨kind, found, ?_⟩
  cases kind with
  | functionDef => cases mem
  | _ => exact mem

/-- Expressions and targets define no functions. -/
theorem not_isDefinition_below {x : NodeId} (h : Shaped t role id) (plain : role.IsPlain)
    (path : Relation.ReflTransGen t.Within id x) : ¬ t.IsDefinition x := by
  induction path using Relation.ReflTransGen.head_induction_on generalizing role with
  | refl =>
    rintro ⟨name, params, body, found⟩
    have suits := (h.inv found).1
    cases role with
    | statement => exact plain
    | expression | target | augmented => cases suits
  | head step _ ih =>
    obtain ⟨kind, found, mem⟩ := step.mentions
    rw [← role.map_below kind] at mem
    obtain ⟨p, listed, rfl⟩ := List.mem_map.mp mem
    exact ih ((h.inv found).2.2 p listed) (Role.isPlain_below plain p listed)

/-- The codes directly inside `k` are those of the definitions that belong to the unit with these
nodes at its top. -/
structure Unit (t : Tree) (mode : Mode) (ids : List NodeId) (k : Code) : Prop where
  all : ∀ top ∈ ids, ∀ x, Relation.ReflTransGen t.Within top x → t.IsDefinition x →
    ∃ k', t.Defines mode x k' ∧ .code k' ∈ k.constants
  only : ∀ k', .code k' ∈ k.constants →
    ∃ top ∈ ids, ∃ x, Relation.ReflTransGen t.Within top x ∧ t.Defines mode x k'

end Tree

namespace Lower

/-! ### What statements add -/

/-- The codes of the definitions at or below these nodes, and no others, are added. -/
structure Adds (c : Context) (ids : List NodeId) (t t' : Tables) : Prop where
  le : t.Le t'
  all : ∀ top ∈ ids, ∀ x, Relation.ReflTransGen c.tree.Within top x → c.tree.IsDefinition x →
    ∃ k, c.tree.Defines c.mode x k ∧ .code k ∈ t'.constants
  only : ∀ k, .code k ∈ t'.constants → .code k ∈ t.constants ∨
    ∃ top ∈ ids, ∃ x, Relation.ReflTransGen c.tree.Within top x ∧ c.tree.Defines c.mode x k

theorem Tables.Le.mem {t t' : Tables} (h : t.Le t') (mem : k ∈ t.constants) : k ∈ t'.constants := by
  obtain ⟨i, found⟩ := Array.mem_iff_getElem?.mp mem
  exact Array.mem_of_getElem? (h.constants found)

theorem Adds.refl (c : Context) (t : Tables) : Adds c [] t t := ⟨.refl t, (by simp), fun _ => .inl⟩

theorem Adds.append {ids ids' : List NodeId} (h : Adds c ids t t') (h' : Adds c ids' t' t'') :
    Adds c (ids ++ ids') t t'' where
  le := h.le.trans h'.le
  all := by
    intro top mem x path defines
    rcases List.mem_append.mp mem with first | second
    · obtain ⟨k, code, added⟩ := h.all top first x path defines
      exact ⟨k, code, h'.le.mem added⟩
    · exact h'.all top second x path defines
  only := by
    intro k mem
    rcases h'.only k mem with old | ⟨top, listed, rest⟩
    · rcases h.only k old with older | ⟨top, listed, rest⟩
      · exact .inl older
      · exact .inr ⟨top, List.mem_append_left _ listed, rest⟩
    · exact .inr ⟨top, List.mem_append_right _ listed, rest⟩

/-- Nothing is added where there are no definitions. -/
theorem adds_nothing {ids : List NodeId} (le : t.Le t') (noCode : t.NoCode t')
    (none : ∀ top ∈ ids, ∀ x, Relation.ReflTransGen c.tree.Within top x → ¬ c.tree.IsDefinition x) :
    Adds c ids t t' :=
  ⟨le, fun top mem x path defines => (none top mem x path defines).elim, fun k mem => .inl (noCode k mem)⟩

theorem Makes.adds (h : Makes c part t pos s t') : Adds c part.nodes t t' :=
  adds_nothing h.le h.noCode fun top mem _ path =>
    Tree.not_isDefinition_below (h.shaped top mem) trivial path

theorem Stores.adds (h : Stores c place t pos s t') : Adds c place.nodes t t' :=
  adds_nothing h.le h.noCode fun top mem _ path =>
    Tree.not_isDefinition_below (h.shaped top mem) trivial path

theorem adds_entry (le : t.Le t') (noCode : t.NoCode t') : Adds c [] t t' := adds_nothing le noCode (by simp)

/-- A node that is no definition adds what stands below it. -/
theorem Adds.node {id : NodeId} {ids : List NodeId} (h : Adds c ids t t')
    (found : c.tree.get? id = some ⟨kind, span⟩) (inside : ∀ x, x ∈ Scope.inside kind ↔ x ∈ ids)
    (other : ∀ name params body, kind ≠ .functionDef name params body) : Adds c [id] t t' where
  le := h.le
  all := by
    intro top mem x path defines
    cases List.mem_singleton.mp mem
    have known := kind?_of_get? found
    rcases path.cases_head with rfl | ⟨child, ⟨kind', known', mem⟩, path⟩
    · obtain ⟨name, params, body, same⟩ := defines
      rw [known] at same
      cases same
      exact (other name params body rfl).elim
    · rw [known] at known'
      cases known'
      exact h.all child ((inside child).mp mem) x path defines
  only := by
    intro k mem
    rcases h.only k mem with old | ⟨top, listed, x, path, code⟩
    · exact .inl old
    · have step : c.tree.Within id top := ⟨kind, kind?_of_get? found, (inside top).mpr listed⟩
      exact .inr ⟨id, List.mem_cons_self, x, .head step path, code⟩

theorem adds_definition {id : NodeId} (found : c.tree.get? id = some ⟨.functionDef name params body, span⟩)
    (lowered : function c (statement maxNesting) span name params body = .ok code)
    (entry : constant (.code code) t = .ok (i, t')) : Adds c [id] t t' := by
  have defines : c.tree.Defines c.mode id code := ⟨name, params, body, span, found, lowered⟩
  obtain ⟨le, placed⟩ := constant_ok entry
  refine ⟨le, ?_, ?_⟩
  · intro top mem x path _
    cases List.mem_singleton.mp mem
    rcases path.cases_head with rfl | ⟨child, ⟨kind, known, mem⟩, _⟩
    · exact ⟨code, defines, Array.mem_of_getElem? placed⟩
    · rw [kind?_of_get? found] at known
      cases known
      cases mem
  · intro k mem
    rcases constant_codes entry mem with old | new
    · exact .inl old
    · cases new
      exact .inr ⟨id, List.mem_cons_self, id, .refl, defines⟩

theorem Does.adds (h : Does c loop work t pos s t') : Adds c work.nodes t t' := by
  have leaf {c : Context} {id : NodeId} {kind : NodeKind} {span : Span} {t t' : Tables}
      (found : c.tree.get? id = some ⟨kind, span⟩) (none : Scope.inside kind = [])
      (other : ∀ name params body, kind ≠ .functionDef name params body) (h : Adds c [] t t') :
      Adds c [id] t t' := h.node found (by simp [none]) other
  induction h with
  | exprStmt found value => exact value.adds.node found (by simp [Scope.inside, NodeKind.children, Part.nodes]) (by simp)
  | returnValue found _ value =>
    exact value.adds.node found (by simp [Scope.inside, NodeKind.children, Part.nodes]) (by simp)
  | assign found _ value stores =>
    refine (value.adds.append stores.adds).node found (fun x => ?_) (by simp)
    simp [Scope.inside, NodeKind.children, Part.nodes, Sink.nodes, or_comm]
  | augName found target load value store =>
    have read := leaf target rfl (by simp) (adds_entry (loadName_ok load).le (Tables.noCode_entered.load trivial load))
    have written := (read.append value.adds).append
      (adds_entry (storeName_ok store).le (Tables.noCode_entered.store trivial store))
    refine written.node found (fun x => ?_) (by simp)
    simp [Scope.inside, NodeKind.children, Part.nodes]
  | augSubscript found target place value =>
    have read := place.adds.node target (fun x => Iff.rfl) (by simp)
    refine (read.append value.adds).node found (fun x => ?_) (by simp)
    simp [Scope.inside, NodeKind.children, Part.nodes]
  | augAttribute found target object entry value =>
    have read := object.adds.node target (fun x => Iff.rfl) (by simp)
    have named := read.append (adds_entry (nameIndex_ok entry).1 (Tables.noCode_entered.global trivial entry))
    refine (named.append value.adds).node found (fun x => ?_) (by simp)
    simp [Scope.inside, NodeKind.children, Part.nodes]
  | functionDef found lowered _ _ _ _ entry store =>
    have added := (adds_definition found lowered entry).append
      (adds_entry (storeName_ok store).le (Tables.noCode_entered.store trivial store))
    rwa [List.append_nil] at added
  | returnNone found _ entry =>
    exact leaf found rfl (by simp) (adds_entry (constant_ok entry).1 (literal_noCode entry))
  | ifOnly found test _ ih =>
    refine (test.adds.append ih).node found (fun x => ?_) (by simp)
    simp [Scope.inside, NodeKind.children, Part.nodes, Work.nodes]
  | ifElse found _ test _ _ ih ih' =>
    refine ((test.adds.append ih).append ih').node found (fun x => ?_) (by simp)
    simp [Scope.inside, NodeKind.children, Part.nodes, Work.nodes]
  | whileLoop found test _ _ ih =>
    refine (test.adds.append ih).node found (fun x => ?_) (by simp)
    simp [Scope.inside, NodeKind.children, Part.nodes, Work.nodes]
  | forLoop found iter _ target _ _ ih =>
    refine ((iter.adds.append target.adds).append ih).node found (fun x => ?_) (by simp)
    simp [Scope.inside, NodeKind.children, Part.nodes, Sink.nodes, Work.nodes, or_left_comm]
  | globalStmt found | passStmt found | breakStmt found | continueStmt found =>
    exact leaf found rfl (by simp) (.refl _ _)
  | none => exact .refl _ _
  | cons _ _ ih ih' => exact ih.append ih'

theorem Adds.unit {ids : List NodeId} (h : Adds c ids {} t) (noCode : t.NoCode t') (le : t.Le t')
    (made : k.constants = t'.constants) : c.tree.Unit c.mode ids k where
  all := by
    intro top mem x path defines
    obtain ⟨k', code, added⟩ := h.all top mem x path defines
    exact ⟨k', code, made ▸ le.mem added⟩
  only := by
    intro k' mem
    rw [made] at mem
    exact (h.only k' (noCode k' mem)).resolve_left (by simp)

end Lower

open Lower

/-! ### Codes inside code -/

variable {t : Tree} {mode : Mode} {code k : Code} {id : NodeId}

theorem Tree.Defines.unit {body : List NodeId} (h : t.Defines mode id k)
    (found : t.kind? id = some (.functionDef name params body)) : t.Unit mode body k := by
  obtain ⟨_, _, _, span, got, lowered⟩ := h
  cases found.symm.trans (kind?_of_get? got)
  obtain ⟨_, s, tables, j, tables', does, last, rfl⟩ := function_ok (statement_does (Nat.le_refl _)) lowered
  exact does.adds.unit (literal_noCode last) (constant_ok last).1 rfl

theorem unit_of_ofTree (h : Code.ofTree t mode = .ok code) : t.Unit mode t.body code := by
  rcases ofTree_ok h with ⟨id, s, tables, root, made, rfl⟩ | ⟨_, s, tables, j, tables', does, last, rfl⟩
  · have body : t.body = [id] := by rw [Tree.body, root]
    rw [body]
    exact made.adds.unit (fun _ mem => mem) (.refl _) rfl
  · exact does.adds.unit (literal_noCode last) (constant_ok last).1 rfl

/-- `k` stands inside the code, at whatever depth. -/
def CodeOf.Holds (c k : Code) : Prop :=
  Relation.TransGen (fun c k : Code => .code k ∈ c.constants) c k

/-- Each node belongs to a unit: the whole tree, or a function whose code stands inside. -/
theorem unit_of_reached (h : Code.ofTree t mode = .ok code) (reached : t.Reached id) :
    ∃ ids k, t.Unit mode ids k ∧ Relation.ReflTransGen (fun c k : Code => .code k ∈ c.constants) code k ∧
      ∃ top ∈ ids, Relation.ReflTransGen t.Within top id := by
  obtain ⟨top, mem, path⟩ := reached
  induction path with
  | refl => exact ⟨t.body, code, unit_of_ofTree h, .refl, top, mem, .refl⟩
  | @tail x child _ step ih =>
    obtain ⟨ids, k, unit, inside, top, listed, path⟩ := ih
    obtain ⟨kind, found, below⟩ := step
    by_cases definition : t.IsDefinition x
    · obtain ⟨k', defines, held⟩ := unit.all top listed x path definition
      obtain ⟨name, params, body, same⟩ := definition
      rw [found] at same
      cases same
      exact ⟨body, k', defines.unit found, inside.tail held, child, below, .refl⟩
    · refine ⟨ids, k, unit, inside, top, listed, path.tail ⟨kind, found, ?_⟩⟩
      cases kind with
      | functionDef name params body => exact (definition ⟨name, params, body, found⟩).elim
      | _ => exact below

theorem defines_of_reached (h : Code.ofTree t mode = .ok code) (reached : t.Reached id)
    (definition : t.IsDefinition id) : ∃ k, t.Defines mode id k ∧ code.Holds k := by
  obtain ⟨ids, k, unit, inside, top, listed, path⟩ := unit_of_reached h reached
  obtain ⟨k', defines, held⟩ := unit.all top listed id path definition
  exact ⟨k', defines, .tail' inside held⟩

theorem Tree.Reached.within {top x : NodeId} (h : t.Reached top)
    (path : Relation.ReflTransGen t.Within top x) : t.Reached x := by
  obtain ⟨first, mem, before⟩ := h
  exact ⟨first, mem, before.trans (Relation.ReflTransGen.mono (fun _ _ => Tree.Within.mentions) _ _ path)⟩

/-- What stands inside the code of a tree is the code of a function in it. -/
theorem reached_of_holds (h : Code.ofTree t mode = .ok code) (held : code.Holds k) :
    ∃ id, t.Reached id ∧ t.Defines mode id k := by
  induction held with
  | single mem =>
    obtain ⟨top, listed, x, path, defines⟩ := (unit_of_ofTree h).only _ mem
    exact ⟨x, Tree.Reached.within ⟨top, listed, .refl⟩ path, defines⟩
  | tail _ mem ih =>
    obtain ⟨id, reached, defines⟩ := ih
    have ⟨name, params, body, span, found, _⟩ := defines
    have known := kind?_of_get? found
    obtain ⟨top, listed, x, path, defines⟩ := (defines.unit known).only _ mem
    obtain ⟨first, listed₁, before⟩ := reached
    have down : t.Mentions id top := ⟨_, known, listed⟩
    exact ⟨x, Tree.Reached.within ⟨first, listed₁, before.tail down⟩ path, defines⟩

theorem holds_iff (h : Code.ofTree t mode = .ok code) :
    code.Holds k ↔ ∃ id, t.Reached id ∧ t.Defines mode id k := by
  refine ⟨reached_of_holds h, ?_⟩
  rintro ⟨id, reached, defines⟩
  have ⟨name, params, body, span, found, _⟩ := defines
  obtain ⟨k', defines', held⟩ := defines_of_reached h reached ⟨name, params, body, kind?_of_get? found⟩
  exact defines.unique defines' ▸ held

end Scratchpad
