import Scratchpad.Proofs.Code.Functions
import Scratchpad.Proofs.Machine.Globals

/-!
# Local variables stay local

Whatever a segment stores under a global name is bound by a node of its unit, and no local variable is
loaded or stored by name (`Does.respects`). So the code of a function binds only the names that it
declares global, and does not see the others (`functions_keep_locals`).
-/

namespace Scratchpad

/-- The name belongs to the function: it is a parameter or bound in the body, and not declared
global. -/
def Tree.IsLocal (t : Tree) (params : List String) (body : List NodeId) (name : String) : Prop :=
  (name ∈ params ∨ t.BindsIn body name) ∧ ¬ t.DeclaresGlobal body name

theorem Scope.mem_locals_ofBody {t : Tree} {params : List String} {body : List NodeId} {name : String}
    (none : params.find? (ofBody t body).global.contains = none) :
    name ∈ locals params (ofBody t body) ↔ t.IsLocal params body name := by
  have apart (mem : name ∈ params) : name ∉ (ofBody t body).global := by
    simpa using List.find?_eq_none.mp none name mem
  rw [mem_locals, Tree.IsLocal, ← mem_bound, ← mem_global, or_and_right]
  exact or_congr ⟨fun mem => ⟨mem, apart mem⟩, And.left⟩ Iff.rfl

namespace Tree

variable {t : Tree} {id : NodeId} {kind : NodeKind} {name : String}

theorem BindsIn.mono {ids ids' : List NodeId} (h : t.BindsIn ids name) (le : ∀ x ∈ ids, x ∈ ids') :
    t.BindsIn ids' name := by
  obtain ⟨top, mem, rest⟩ := h
  exact ⟨top, le top mem, rest⟩

theorem BindsIn.node {ids : List NodeId} (h : t.BindsIn ids name) (found : t.kind? id = some kind)
    (inside : ∀ x ∈ ids, x ∈ Scope.inside kind) : t.BindsIn [id] name := by
  obtain ⟨top, mem, x, kind', path, rest⟩ := h
  exact ⟨id, List.mem_cons_self, x, kind', .head ⟨kind, found, inside top mem⟩ path, rest⟩

theorem Binds.here (h : t.Binds kind name) (found : t.kind? id = some kind) : t.BindsIn [id] name :=
  ⟨id, List.mem_cons_self, id, kind, .refl, found, h⟩

theorem targets_name (found : t.kind? id = some (.name name)) : t.Targets id name := ⟨id, .refl, found⟩

theorem Targets.item {child : NodeId} (h : t.Targets child name) (step : t.Item id child) :
    t.Targets id name := by
  obtain ⟨x, path, found⟩ := h
  exact ⟨x, .head step path, found⟩

end Tree

namespace Lower

variable {c : Context} {B : String → Prop}

/-! ### What segments load and store by name -/

/-- By name, no local variables are loaded or stored, and only names with `B` are stored. -/
def RespectsAt (c : Context) (B : String → Prop) (names : Array String) : Instr → Prop
  | .loadName i => ∃ name, names[i]? = some name ∧ name ∉ c.locals
  | .storeName i => ∃ name, names[i]? = some name ∧ name ∉ c.locals ∧ B name
  | _ => True

def Respects (c : Context) (B : String → Prop) (t : Tables) (s : Segment) : Prop :=
  ∀ item ∈ s, RespectsAt c B t.names item.instr

theorem Respects.mono {B' : String → Prop} (h : Respects c B t s) (le : t.Le t')
    (wider : ∀ name, B name → B' name) : Respects c B' t' s := by
  intro item mem
  have old := h item mem
  cases same : item.instr with
  | loadName i =>
    rw [same] at old
    obtain ⟨name, entry, free⟩ := old
    exact ⟨name, le.names entry, free⟩
  | storeName i =>
    rw [same] at old
    obtain ⟨name, entry, free, has⟩ := old
    exact ⟨name, le.names entry, free, wider name has⟩
  | _ => trivial

theorem Respects.later (h : Respects c B t s) (le : t.Le t') : Respects c B t' s :=
  h.mono le fun _ => id

theorem respects_nil : Respects c B t [] := nofun

theorem Respects.append (h : Respects c B t s) (h' : Respects c B t s') : Respects c B t (s ++ s') :=
  List.forall_mem_append.mpr ⟨h, h'⟩

theorem Respects.cons {item : Item} (here : RespectsAt c B t.names item.instr)
    (h : Respects c B t s) : Respects c B t (item :: s) :=
  List.forall_mem_cons.mpr ⟨here, h⟩

theorem respects_one {item : Item} (here : RespectsAt c B t.names item.instr) :
    Respects c B t [item] :=
  .cons here respects_nil

theorem Respects.close (h : Respects c B t s) (stop : Nat) : Respects c B t (close stop s) := by
  intro item mem
  obtain ⟨old, listed, rfl⟩ := List.mem_map.mp mem
  cases old with
  | op i span => exact h _ listed
  | leave span => trivial

theorem not_mem_of_absent {names : List String} (h : names.findIdx? (· = name) = none) : name ∉ names := by
  intro mem
  simpa using List.findIdx?_eq_none_iff.mp h name mem

theorem respects_load (h : loadName c span name t = .ok (s, t')) : Respects c B t' s := by
  cases loadName_ok h with
  | slot => exact respects_one trivial
  | global absent _ entry => exact respects_one ⟨name, entry, not_mem_of_absent absent⟩

theorem respects_store (h : storeName c span name t = .ok (s, t')) (has : B name) :
    Respects c B t' s := by
  cases storeName_ok h with
  | slot => exact respects_one trivial
  | global absent _ entry => exact respects_one ⟨name, entry, not_mem_of_absent absent, has⟩

/-- What respects the names bound below a node respects those bound at it. -/
theorem Respects.node {ids : List NodeId} {id : NodeId} (h : Respects c (c.tree.BindsIn ids) t s)
    (found : c.tree.get? id = some ⟨kind, span⟩) (inside : ∀ x ∈ ids, x ∈ Scope.inside kind) :
    Respects c (c.tree.BindsIn [id]) t s :=
  h.mono (.refl t) fun _ binds => binds.node (kind?_of_get? found) inside

theorem first_inside {kind : NodeKind} {x : NodeId} {xs : List NodeId} (h : Scope.inside kind = x :: xs) :
    ∀ y ∈ [x], y ∈ Scope.inside kind := by
  rw [h]
  exact List.forall_mem_singleton.mpr List.mem_cons_self

theorem second_inside {kind : NodeKind} {w x : NodeId} {xs : List NodeId}
    (h : Scope.inside kind = w :: x :: xs) : ∀ y ∈ [x], y ∈ Scope.inside kind := by
  rw [h]
  exact List.forall_mem_singleton.mpr (List.mem_cons_of_mem _ List.mem_cons_self)

/-- One part is put in front of others, with some instructions between. -/
theorem Respects.onTop {a : NodeId} {as : List NodeId} (h : Respects c (c.tree.BindsIn [a]) t s)
    (h' : Respects c (c.tree.BindsIn as) t' s') (le : t.Le t')
    (between : Respects c (c.tree.BindsIn (a :: as)) t' mid) :
    Respects c (c.tree.BindsIn (a :: as)) t' (s ++ (mid ++ s')) := by
  have first : Respects c (c.tree.BindsIn (a :: as)) t' s :=
    h.mono le fun _ binds => binds.mono (List.forall_mem_singleton.mpr List.mem_cons_self)
  have second : Respects c (c.tree.BindsIn (a :: as)) t' s' :=
    h'.mono (.refl _) fun _ binds => binds.mono fun x => List.mem_cons_of_mem a
  exact first.append (between.append second)

theorem respectsAt_choiceJump (op : BoolOp) (stop : Nat) :
    RespectsAt c B names (choiceJump op stop) := by
  cases op <;> trivial

theorem Makes.respects (h : Makes c part t pos s t') :
    Respects c (c.tree.BindsIn part.nodes) t' s := by
  induction h with
  | literal => exact respects_one trivial
  | name _ load => exact respects_load load
  | unary found _ ih => exact (ih.node found fun _ => id).append (respects_one trivial)
  | boolean found _ _ ih => exact ih.node found fun _ => id
  | compare found _ even _ chain ih ih' =>
    have left := (ih.later chain.le).node found (first_inside rfl)
    have right := ih'.node found fun x mem => by
      rw [Part.nodes, List.map_snd_zip (Nat.le_of_eq even.symm)] at mem
      exact List.mem_cons_of_mem _ mem
    refine (left.append right).append ?_
    unfold linkEnd
    split
    · exact respects_nil
    · exact .cons trivial (.cons trivial (respects_one trivial))
  | conditional found _ body orelse ih ih' ih'' =>
    have test := (ih.later (body.le.trans orelse.le)).node found (first_inside rfl)
    have taken := (ih'.later orelse.le).node found (second_inside rfl)
    have other := ih''.node found fun x mem => List.mem_cons_of_mem _ (List.mem_cons_of_mem _ mem)
    refine (test.append ?_).append ?_
    · exact .cons trivial taken
    · exact .cons trivial other
  | named found _ store ih =>
    have value := (ih.later (storeName_ok store).le).node found fun _ => id
    refine value.append (.cons trivial (respects_store store ?_))
    exact Tree.Binds.named.here (kind?_of_get? found)
  | list found _ ih | tuple found _ ih | dict found _ _ ih =>
    exact (ih.node found fun _ => id).append (respects_one trivial)
  | binary found _ right ih ih' | subscript found _ right ih ih' =>
    have first := (ih.later right.le).node found (first_inside rfl)
    have second := ih'.node found (second_inside rfl)
    exact first.append (second.append (respects_one trivial))
  | call found _ args ih ih' =>
    have first := (ih.later args.le).node found (first_inside rfl)
    have second := ih'.node found fun x mem => List.mem_cons_of_mem _ mem
    exact first.append (second.append (respects_one trivial))
  | «attribute» found _ entry ih =>
    exact ((ih.later (nameIndex_ok entry).1).node found fun _ => id).append (respects_one trivial)
  | none => exact respects_nil
  | lastChoice _ ih => exact ih
  | lastLink _ ih => exact ih.append (respects_one trivial)
  | cons _ rest ih ih' => exact ih.onTop ih' rest.le respects_nil
  | choice _ rest ih ih' =>
    refine ih.onTop ih' rest.le (respects_one ?_)
    exact respectsAt_choiceJump _ _
  | link _ rest _ ih ih' =>
    rw [List.append_assoc]
    exact ih.onTop ih' rest.le (.cons trivial (.cons trivial (.cons trivial (respects_one trivial))))

/-- Storing to these targets binds the name, or something inside them does. -/
def StoresIn (t : Tree) (ids : List NodeId) (name : String) : Prop :=
  t.BindsIn ids name ∨ ∃ target ∈ ids, t.Targets target name

theorem StoresIn.mono {tree : Tree} {ids ids' : List NodeId} (h : StoresIn tree ids name)
    (le : ∀ x ∈ ids, x ∈ ids') : StoresIn tree ids' name := by
  rcases h with binds | ⟨target, mem, stores⟩
  · exact .inl (binds.mono le)
  · exact .inr ⟨target, le target mem, stores⟩

theorem Stores.respects (h : Stores c place t pos s t') :
    Respects c (StoresIn c.tree place.nodes) t' s := by
  induction h with
  | name found store =>
    exact respects_store store (.inr ⟨_, List.mem_cons_self, Tree.targets_name (kind?_of_get? found)⟩)
  | subscript found place =>
    have inner := place.respects.node found fun _ => id
    exact (inner.mono (.refl _) fun _ => .inl).append (respects_one trivial)
  | «attribute» found object entry =>
    have inner := (object.respects.later (nameIndex_ok entry).1).node found fun _ => id
    exact (inner.mono (.refl _) fun _ => .inl).append (respects_one trivial)
  | @unpack _ _ elts _ _ _ _ _ found several _ ih =>
    refine .cons trivial (ih.mono (.refl _) ?_)
    have known := kind?_of_get? found
    rintro name (binds | ⟨target, mem, stores⟩)
    · refine .inl (binds.node known fun x mem => ?_)
      rcases several with rfl | rfl
      · exact mem
      · exact mem
    · refine .inr ⟨_, List.mem_cons_self, stores.item ⟨elts, ?_, mem⟩⟩
      rcases several with rfl | rfl
      · exact .inl known
      · exact .inr known
  | none => exact respects_nil
  | lastCopy _ ih => exact ih
  | cons _ rest ih ih' =>
    refine (ih.mono rest.le fun _ stores => ?_).append (ih'.mono (.refl _) fun _ stores => ?_)
    · exact stores.mono (List.forall_mem_singleton.mpr List.mem_cons_self)
    · exact stores.mono fun x => List.mem_cons_of_mem _
  | copy _ rest ih ih' =>
    refine (Respects.cons ?_ (ih.mono rest.le fun _ stores => ?_)).append
      (ih'.mono (.refl _) fun _ stores => ?_)
    · trivial
    · exact stores.mono (List.forall_mem_singleton.mpr List.mem_cons_self)
    · exact stores.mono fun x => List.mem_cons_of_mem _

theorem Does.respects (h : Does c loop work t pos s t') :
    Respects c (c.tree.BindsIn work.nodes) t' s := by
  induction h with
  | exprStmt found value | returnValue found _ value =>
    exact (value.respects.node found fun _ => id).append (respects_one trivial)
  | assign found _ value stores =>
    have first := (value.respects.later stores.le).node found fun x mem => List.mem_append_right _ mem
    refine first.append (stores.respects.mono (.refl _) ?_)
    rintro name (binds | ⟨target, mem, stored⟩)
    · exact binds.node (kind?_of_get? found) fun x mem => List.mem_append_left _ mem
    · exact (Tree.Binds.assign mem stored).here (kind?_of_get? found)
  | augName found target load value store =>
    have stored := storeName_ok store
    have operand := (value.respects.later stored.le).node found (second_inside rfl)
    refine (Respects.append ?_ operand).append (.cons trivial (respects_store store ?_))
    · exact (respects_load load).later (value.le.trans stored.le)
    exact (Tree.Binds.augAssign (Tree.targets_name (kind?_of_get? target))).here (kind?_of_get? found)
  | augSubscript found target place value =>
    have inner := (place.respects.later value.le).node target fun _ => id
    have operand := value.respects.node found (second_inside rfl)
    refine (((inner.node found (first_inside rfl)).append ?_).append operand).append ?_
    · exact .cons trivial (respects_one trivial)
    · exact .cons trivial (.cons trivial (respects_one trivial))
  | augAttribute found target object entry value =>
    have inner := (object.respects.later ((nameIndex_ok entry).1.trans value.le)).node target fun _ => id
    have operand := value.respects.node found (second_inside rfl)
    refine (((inner.node found (first_inside rfl)).append ?_).append operand).append ?_
    · exact .cons trivial (respects_one trivial)
    · exact .cons trivial (.cons trivial (respects_one trivial))
  | functionDef found _ _ _ _ _ _ store =>
    exact .cons trivial (respects_store store (Tree.Binds.functionDef.here (kind?_of_get? found)))
  | returnNone => exact .cons trivial (respects_one trivial)
  | ifOnly found test taken ih =>
    have first := (test.respects.later taken.le).node found (first_inside rfl)
    have second := ih.node found fun x mem => List.mem_cons_of_mem _ (List.mem_append_left _ mem)
    exact first.append (.cons trivial second)
  | ifElse found _ test taken orelse ih ih' =>
    have first := (test.respects.later (taken.le.trans orelse.le)).node found (first_inside rfl)
    have second := (ih.later orelse.le).node found
      fun x mem => List.mem_cons_of_mem _ (List.mem_append_left _ mem)
    have third := ih'.node found fun x mem => List.mem_cons_of_mem _ (List.mem_append_right _ mem)
    refine (first.append ?_).append ?_
    · exact .cons trivial second
    · exact .cons trivial third
  | whileLoop found test body _ ih =>
    have first := (test.respects.later body.le).node found (first_inside rfl)
    have second := ih.node found fun x mem => List.mem_cons_of_mem _ mem
    refine (first.append ?_).append (respects_one trivial)
    exact .cons trivial (second.close _)
  | forLoop found iter _ target body _ ih =>
    have known := kind?_of_get? found
    have first := (iter.respects.later (target.le.trans body.le)).node found (second_inside rfl)
    have third := ih.node found fun x mem => List.mem_cons_of_mem _ (List.mem_cons_of_mem _ mem)
    refine (((first.append ?_).append (target.respects.mono body.le ?_)).append (third.close _)).append
      (respects_one trivial)
    · exact .cons trivial (respects_one trivial)
    · rintro name (binds | ⟨place, mem, stored⟩)
      · exact binds.node known (first_inside rfl)
      · cases List.mem_singleton.mp mem
        exact (Tree.Binds.forLoop stored).here known
  | globalStmt | passStmt | none => exact respects_nil
  | breakStmt =>
    refine Respects.append ?_ (respects_one trivial)
    split
    · exact respects_one trivial
    · exact respects_nil
  | continueStmt => exact respects_one trivial
  | cons _ rest ih ih' => exact ih.onTop ih' rest.le respects_nil

end Lower

open Lower

variable {t : Tree} {mode : Mode} {code k : Code} {id : NodeId} {params : List String} {body : List NodeId}

/-- What the code of a function stores by name is bound in its body, and what it loads or stores by
name is none of its local variables. -/
theorem Tree.Defines.respects (h : t.Defines mode id k)
    (found : t.kind? id = some (.functionDef name params body)) :
    params.find? (Scope.ofBody t body).global.contains = none ∧ ∀ i ∈ k.instructions,
      RespectsAt (Context.inner ⟨t, mode, false, []⟩ params body) (t.BindsIn body) k.names i := by
  obtain ⟨_, _, _, span, got, lowered⟩ := h
  cases found.symm.trans (kind?_of_get? got)
  obtain ⟨apart, s, tables, j, tables', does, last, rfl⟩ :=
    function_ok (statement_does (Nat.le_refl _)) lowered
  have whole : Respects (Context.inner ⟨t, mode, false, []⟩ params body) (t.BindsIn body) tables'
      (s ++ [.op (.loadConst j) span] ++ [.op .returnValue span]) := by
    refine ((does.respects.later (constant_ok last).1).append ?_).append ?_
    · exact respects_one trivial
    · exact respects_one trivial
  refine ⟨apart, fun i mem => ?_⟩
  obtain ⟨item, listed, rfl⟩ := List.mem_map.mp (List.mem_toArray.mp mem)
  exact whole item listed

theorem Tree.Defines.stores_declared (h : t.Defines mode id k)
    (found : t.kind? id = some (.functionDef name params body)) (mem : .storeName i ∈ k.instructions) :
    ∃ x, k.names[i]? = some x ∧ t.DeclaresGlobal body x := by
  obtain ⟨apart, respects⟩ := h.respects found
  obtain ⟨x, entry, free, binds⟩ := respects _ mem
  refine ⟨x, entry, ?_⟩
  by_contra undeclared
  exact free ((Scope.mem_locals_ofBody apart).mpr ⟨.inr binds, undeclared⟩)

theorem Tree.Defines.not_isLocal (h : t.Defines mode id k)
    (found : t.kind? id = some (.functionDef name params body)) {x : String}
    (mem : .loadName i ∈ k.instructions ∨ .storeName i ∈ k.instructions)
    (entry : k.names[i]? = some x) : ¬ t.IsLocal params body x := by
  obtain ⟨apart, respects⟩ := h.respects found
  rw [← Scope.mem_locals_ofBody apart]
  rcases mem with mem | mem
  · obtain ⟨y, entry', free⟩ := respects _ mem
    cases entry.symm.trans entry'
    exact free
  · obtain ⟨y, entry', free, _⟩ := respects _ mem
    cases entry.symm.trans entry'
    exact free

/-- Functions do not leak their local variables. The codes inside the code of a tree are those of the
functions defined in it, and each of them stores only under names that its function declares global and
neither loads nor stores a local variable by name. So a step in it changes no other binding, and comes
to the same whatever is bound to the names of local variables. -/
theorem functions_keep_locals (compiled : Code.ofTree t mode = .ok code) :
    (∀ k, code.Holds k ↔ ∃ id, t.Reached id ∧ t.Defines mode id k) ∧
    ∀ id name params body, t.Reached id → t.kind? id = some (.functionDef name params body) →
      ∃ k, t.Defines mode id k ∧ code.Holds k ∧
        (∀ i, .storeName i ∈ k.instructions → ∃ x, k.names[i]? = some x ∧ t.DeclaresGlobal body x) ∧
        (∀ i x, .loadName i ∈ k.instructions ∨ .storeName i ∈ k.instructions → k.names[i]? = some x →
          ¬ t.IsLocal params body x) ∧
        ∀ (m : Machine) limit, m.frame.code = k →
          (∀ x, ¬ t.DeclaresGlobal body x →
            (m.worldAfter limit).globals.get? x = m.world.globals.get? x) ∧
          ∀ w, m.world.Agree (t.IsLocal params body) w →
            Machine.Together (t.IsLocal params body) (m.step limit)
              ({ m with world := w }.step limit) := by
  refine ⟨fun k => holds_iff compiled, fun id name params body reached found => ?_⟩
  obtain ⟨k, defines, held⟩ := defines_of_reached compiled reached ⟨name, params, body, found⟩
  refine ⟨k, defines, held, fun i => defines.stores_declared found, fun i x => defines.not_isLocal found,
    fun m limit same => ⟨fun x undeclared => Machine.get?_worldAfter fun i mem entry => ?_,
      fun w agree => Machine.together_step agree fun i x mem entry => ?_⟩⟩
  · rw [same] at mem entry
    obtain ⟨y, entry', declared⟩ := defines.stores_declared found mem
    cases entry.symm.trans entry'
    exact undeclared declared
  · rw [same] at mem entry
    exact defines.not_isLocal found (.inl mem) entry

/-- `def f(n)` with `global total` and `for (i, x) in n: total += (y := i)`; the name `i` is one node. -/
def summing : Tree where
  nodes := #[⟨.name "n", {}⟩, ⟨.name "i", {}⟩, ⟨.name "x", {}⟩, ⟨.tuple [1, 2], {}⟩,
    ⟨.globalStmt ["total"], {}⟩, ⟨.name "total", {}⟩, ⟨.named "y" 1, {}⟩, ⟨.augAssign 5 .add 6, {}⟩,
    ⟨.forLoop 3 0 [7], {}⟩, ⟨.functionDef "f" ["n"] [4, 8], {}⟩]
  root := .module [9]

theorem functions_keep_locals_summing : ∃ code k, Code.ofTree summing .exec = .ok code ∧
    summing.Defines .exec 9 k ∧ code.Holds k ∧ k.names = #["total"] ∧
    (∀ i x, .loadName i ∈ k.instructions ∨ .storeName i ∈ k.instructions → k.names[i]? = some x →
      ¬ summing.IsLocal ["n"] [4, 8] x) ∧
    summing.IsLocal ["n"] [4, 8] "i" ∧ summing.IsLocal ["n"] [4, 8] "x" ∧
    summing.IsLocal ["n"] [4, 8] "y" := by
  obtain ⟨code, f, compiled, lowered, names⟩ : ∃ code f, Code.ofTree summing .exec = .ok code ∧
      Lower.function ⟨summing, .exec, false, []⟩ (Lower.statement Lower.maxNesting) {} "f" ["n"] [4, 8] =
        .ok f ∧ f.names = #["total"] :=
    ⟨_, _, by cbv, by cbv, by cbv⟩
  obtain ⟨k, defines, held, -, free, -⟩ := (functions_keep_locals compiled).2 9 "f" ["n"] [4, 8]
    ⟨9, List.mem_cons_self, .refl⟩ rfl
  obtain rfl := defines.unique ⟨"f", ["n"], [4, 8], {}, rfl, lowered⟩
  have scope : Scope.ofBody summing [4, 8] = ⟨["i", "x", "total", "y"], ["total"]⟩ := by cbv
  have isLocal {x : String} (mem : x ∈ ["i", "x", "total", "y"]) (other : x ∉ ["total"]) :
      summing.IsLocal ["n"] [4, 8] x :=
    ⟨.inr (Scope.mem_bound.mp (by rwa [scope])), fun declared => other (by
      have := Scope.mem_global.mpr declared
      rwa [scope] at this)⟩
  exact ⟨code, k, compiled, defines, held, names, free, isLocal (by decide) (by decide),
    isLocal (by decide) (by decide), isLocal (by decide) (by decide)⟩

end Scratchpad
