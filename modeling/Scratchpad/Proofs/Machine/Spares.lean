import Scratchpad.Proofs.Code.Compiled
import Scratchpad.Proofs.Machine.Blame
import Scratchpad.Proofs.Machine.Blind
import Scratchpad.Proofs.Tree.Built

/-!
# Names that stay unbound

Code that never stores under a name leaves it unbound, whatever it calls (`unbound_of_run`), and
the code of a tree stores only under names that the tree has (`spares_of_ofTree`).
-/

namespace Scratchpad

/-! ### Global names -/

namespace Globals

variable {g : Globals} {name : String} {v : Value}

theorem lookup_put_self (bindings : List (String × Value)) :
    (put name v bindings).lookup name = some v := by
  induction bindings with
  | nil => simp [put]
  | cons b rest ih =>
    obtain ⟨n, old⟩ := b
    by_cases same : n = name
    · simp [put, same]
    · have apart : (name == n) = false := beq_false_of_ne (Ne.symm same)
      simp only [put, if_neg same, List.lookup_cons, apart, ih]

theorem lookup_put_of_ne {other : String} (ne : other ≠ name) (bindings : List (String × Value)) :
    (put name v bindings).lookup other = bindings.lookup other := by
  have apart : (other == name) = false := beq_false_of_ne ne
  induction bindings with
  | nil => simp only [put, List.lookup_cons, apart]
  | cons b rest ih =>
    obtain ⟨n, old⟩ := b
    by_cases same : n = name
    · subst same
      rw [put, if_pos rfl, List.lookup_cons, List.lookup_cons, apart]
    · simp only [put, if_neg same, List.lookup_cons, ih]

theorem filter_put (bindings : List (String × Value)) :
    (put name v bindings).filter (·.1 ≠ name) = bindings.filter (·.1 ≠ name) := by
  induction bindings with
  | nil => simp [put]
  | cons b rest ih =>
    obtain ⟨n, old⟩ := b
    by_cases same : n = name
    · simp [put, same]
    · rw [put, if_neg same, List.filter_cons, List.filter_cons, ih]

theorem get?_insert_self : (g.insert name v).get? name = some v := lookup_put_self _

theorem get?_insert_of_ne {other : String} (ne : other ≠ name) :
    (g.insert name v).get? other = g.get? other := lookup_put_of_ne ne _

theorem erase_insert : (g.insert name v).erase name = g.erase name :=
  congrArg Globals.mk (filter_put g.bindings)

theorem get?_erase_self : (g.erase name).get? name = none := by
  rw [get?, List.lookup_eq_none_iff]
  intro b mem
  have ne : b.1 ≠ name := of_decide_eq_true (List.mem_filter.mp mem).2
  exact bne_iff_ne.mpr ne.symm

theorem erase_of_unbound (h : g.get? name = none) : g.erase name = g := by
  obtain ⟨bindings⟩ := g
  refine congrArg Globals.mk (List.filter_eq_self.mpr fun b mem => ?_)
  have ne : name ≠ b.1 := bne_iff_ne.mp (List.lookup_eq_none_iff.mp h b mem)
  exact decide_eq_true ne.symm

end Globals

/-! ### Code that spares a name -/

/-- Neither the code nor any that stands inside it stores under the name. -/
def CodeOf.Spares (name : String) (c : Code) : Prop :=
  ∀ k, Relation.ReflTransGen (fun c k : Code => .code k ∈ c.constants) c k →
    ∀ i, .storeName i ∈ k.instructions → k.names[i]? ≠ some name

theorem CodeOf.Spares.inner {name : String} {c k : Code} (h : c.Spares name) (mem : .code k ∈ c.constants) :
    k.Spares name :=
  fun k' path => h k' (.head mem path)

/-- Does the same with other global names, and leaves them alone. -/
def Aloof (x : Eval α) : Prop :=
  ∀ w g, x { w with globals := g } = Eval.mapResult id ({ · with globals := g }) (x w)

theorem Blind.aloof {x : Eval α} (h : Blind x) : Aloof x := by
  intro w g
  have same := h w g w.store.functions rfl
  have kept := (h.kept w).2
  rw [show { w with globals := g } = w.swap g w.store.functions from rfl, same]
  match done : x w with
  | .ok (a, w') =>
    rw [Eval.after_of_ok done] at kept
    rw [← kept]
    rfl
  | .error (fault, w') =>
    rw [Eval.after_of_error done] at kept
    rw [← kept]
    rfl

theorem Aloof.kept {x : Eval α} (h : Aloof x) (w : World) : (x.after w).globals = w.globals := by
  have same := h w w.globals
  match done : x w with
  | .ok (a, w') =>
    rw [done] at same
    rw [Eval.after_of_ok done]
    exact congrArg (·.2.globals) (Except.ok.inj same)
  | .error (fault, w') =>
    rw [done] at same
    rw [Eval.after_of_error done]
    exact congrArg (·.2.globals) (Except.error.inj same)

theorem aloof_pure (a : α) : Aloof (pure a) := fun _ _ => rfl

theorem aloof_fail (fault : Fault) : Aloof (Eval.fail fault : Eval α) := fun _ _ => rfl

theorem Aloof.bind {x : Eval α} {f : α → Eval β} (first : Aloof x) (rest : ∀ a, Aloof (f a)) :
    Aloof (x >>= f) := by
  intro w g
  change (x _).bind _ = Eval.mapResult _ _ ((x w).bind _)
  rw [first w g]
  match x w with
  | .ok (a, w') => exact rest a w' g
  | .error (fault, w') => rfl

theorem aloof_lift (x : Except Fault α) : Aloof (liftM x : Eval α) := (blind_lift x).aloof

theorem aloof_ask (f : Store → Except Fault α) : Aloof (Eval.ask f) := fun w g =>
  aloof_lift (f w.store) w g

theorem aloof_make (f : Store → α × Store) : Aloof (Eval.make f) := fun _ _ => rfl

/-- What looks at the store only takes no notice of the names. -/
theorem aloof_get {f : World → Eval α} (same : ∀ w g, f { w with globals := g } = f w)
    (h : ∀ w, Aloof (f w)) : Aloof (get >>= f) := by
  intro w g
  change f _ _ = _
  rw [same]
  exact h w w g

namespace Frame

variable {f : Frame}

theorem aloof_call (n : Nat) : Aloof (f.call n) := by
  refine (aloof_lift _).bind fun p => (aloof_lift _).bind fun q => ?_
  obtain ⟨callee, f'⟩ := q
  cases callee with
  | function ref =>
    refine (aloof_ask _).bind fun found => ?_
    cases found with
    | some function => exact aloof_pure _
    | none => exact aloof_fail _
  | builtin b => exact (Builtin.formed_call b p.1).blind.aloof.bind fun _ => aloof_pure _
  | method ref =>
    refine (aloof_ask _).bind fun found => ?_
    cases found with
    | some m => exact (Method.formed_call _ _ _).blind.aloof.bind fun _ => aloof_pure _
    | none => exact aloof_fail _
  | _ => exact aloof_fail _

/-- Only two instructions have to do with global names. -/
theorem aloof_exec {i : Instr} (loads : ¬ ∃ k, i = .loadName k) (stores : ¬ ∃ k, i = .storeName k) :
    Aloof (f.exec i) := by
  cases i with
  | loadName k => exact (loads ⟨k, rfl⟩).elim
  | storeName k => exact (stores ⟨k, rfl⟩).elim
  | loadConst i | loadFast i | storeFast i => exact (aloof_lift _).bind fun _ => aloof_pure _
  | dupTop | dupTwo | rotTwo | rotThree => exact (aloof_lift _).bind fun _ => aloof_pure _
  | unpack n | forIter target =>
    exact aloof_get (fun _ _ => rfl) fun _ => (aloof_lift _).bind fun _ => aloof_pure _
  | loadAttr i =>
    exact (aloof_lift _).bind fun _ => (aloof_lift _).bind fun _ =>
      (Subscript.formed_loadAttribute _ _).blind.aloof.bind fun _ => aloof_pure _
  | storeAttr i =>
    exact (aloof_lift _).bind fun _ => (aloof_lift _).bind fun _ =>
      (aloof_lift _).bind fun _ => aloof_fail _
  | loadSubscript | compare op =>
    exact (aloof_lift _).bind fun _ => (aloof_lift _).bind fun _ =>
      (aloof_ask _).bind fun _ => aloof_pure _
  | storeSubscript =>
    exact (aloof_lift _).bind fun _ => (aloof_lift _).bind fun _ => (aloof_lift _).bind fun _ =>
      (Subscript.formed_store _ _ _).blind.aloof.bind fun _ => aloof_pure _
  | binary op =>
    exact (aloof_lift _).bind fun _ => (aloof_lift _).bind fun _ =>
      (Operator.formed_binary op _ _).blind.aloof.bind fun _ => aloof_pure _
  | unary op | getIter => exact (aloof_lift _).bind fun _ => (aloof_ask _).bind fun _ => aloof_pure _
  | buildList n | buildTuple n =>
    exact (aloof_lift _).bind fun _ => (aloof_make _).bind fun _ => aloof_pure _
  | buildDict n =>
    exact (aloof_lift _).bind fun _ => (aloof_ask _).bind fun _ =>
      (aloof_make _).bind fun _ => aloof_pure _
  | call n => exact aloof_call n
  | makeFunction i =>
    refine (aloof_lift _).bind fun k => ?_
    cases k with
    | literal l => exact aloof_fail _
    | code c => exact (aloof_make _).bind fun _ => aloof_pure _
  | pop | returnValue => exact (aloof_lift _).bind fun _ => aloof_pure _
  | jump target => exact aloof_pure _
  | popJumpIfFalse target | popJumpIfTrue target | jumpIfFalseOrPop target | jumpIfTrueOrPop target =>
    exact (aloof_lift _).bind fun _ => aloof_get (fun _ _ => rfl) fun _ => aloof_pure _
  | popIter =>
    dsimp only [exec]
    split
    · exact aloof_pure _
    · exact aloof_fail _

theorem name_ok {k : Nat} (h : f.name k = .ok stored) : f.code.names[k]? = some stored := by
  unfold Frame.name at h
  split at h
  · cases h; assumption
  · cases h

theorem after_loadName (f : Frame) (k : Nat) (w : World) : (f.exec (.loadName k)).after w = w := by
  change (liftM (f.loadName w k) >>= fun g => pure (.go g.next) : Eval Turn).after w = w
  cases f.loadName w k <;> rfl

/-- What `storeName` leaves: the world with a name bound, or the world as it was. -/
theorem after_storeName (f : Frame) (k : Nat) (w : World) :
    (f.exec (.storeName k)).after w = w ∨ ∃ name v, f.code.names[k]? = some name ∧
      (f.exec (.storeName k)).after w = { w with globals := w.globals.insert name v } := by
  simp only [exec]
  cases named : f.name k with
  | error fault => exact .inl rfl
  | ok name =>
    cases f.pop with
    | error fault => exact .inl rfl
    | ok popped => exact .inr ⟨name, popped.1, name_ok named, rfl⟩

theorem get?_of_exec {name : String} {i : Instr} (mem : i ∈ f.code.instructions)
    (spared : ∀ k, .storeName k ∈ f.code.instructions → f.code.names[k]? ≠ some name) (w : World) :
    ((f.exec i).after w).globals.get? name = w.globals.get? name := by
  by_cases loads : ∃ k, i = .loadName k
  · obtain ⟨k, rfl⟩ := loads
    rw [after_loadName]
  by_cases stores : ∃ k, i = .storeName k
  · obtain ⟨k, rfl⟩ := stores
    obtain same | ⟨stored, v, entry, same⟩ := after_storeName f k w
    · rw [same]
    · have ne : name ≠ stored := by
        rintro rfl
        exact spared k mem entry
      rw [same]
      exact Globals.get?_insert_of_ne ne
  · rw [(aloof_exec loads stores).kept w]

end Frame

namespace Machine

variable {name : String} {m m' : Machine}

/-- The world after a step, whether the run goes on or ends. -/
def worldAfter (limit : Nat) (m : Machine) : World :=
  match m.step limit with
  | .inl e => e.world
  | .inr m' => m'.world

theorem worldAfter_stray (here : m.frame.code.instructions[m.frame.pc]? = none) :
    m.worldAfter limit = m.world := by
  unfold worldAfter step
  rw [here]
  rfl

/-- Entering a function and leaving one do nothing to the world. -/
theorem worldAfter_exec (here : m.frame.code.instructions[m.frame.pc]? = some i) :
    m.worldAfter limit = (m.frame.exec i).after m.world := by
  unfold worldAfter step
  rw [here]
  dsimp only
  cases done : m.frame.exec i m.world with
  | error failed => rw [Eval.after_of_error done]; rfl
  | ok r =>
    obtain ⟨turn, w⟩ := r
    rw [Eval.after_of_ok done]
    cases turn with
    | go f => rfl
    | leave v =>
      unfold leave
      cases m.callers <;> rfl
    | call function args caller =>
      dsimp only
      cases entered : { m with world := w }.enter limit function args caller with
      | error fault => rfl
      | ok next => rw [enter_ok entered]

/-- A step changes no binding that the code at hand does not store under. -/
theorem get?_worldAfter
    (spared : ∀ k, .storeName k ∈ m.frame.code.instructions → m.frame.code.names[k]? ≠ some name) :
    (m.worldAfter limit).globals.get? name = m.world.globals.get? name := by
  cases here : m.frame.code.instructions[m.frame.pc]? with
  | none => rw [worldAfter_stray here]
  | some i =>
    rw [worldAfter_exec here]
    exact Frame.get?_of_exec (Array.mem_of_getElem? here) spared m.world

/-- No code at hand stores under the name, and it is unbound. -/
structure Spares (name : String) (m : Machine) : Prop where
  codes : m.Knows (CodeOf.Spares name)
  unbound : m.world.globals.get? name = none

/-- However a step goes on or ends, the name is unbound after it. -/
theorem Spares.worldAfter (h : m.Spares name) :
    (m.worldAfter limit).globals.get? name = none :=
  (get?_worldAfter (h.codes.frame m.frame.code .refl)).trans h.unbound

theorem Spares.step (h : m.Spares name) (next : m.step limit = .inr m') : m'.Spares name := by
  have unbound : (m.worldAfter limit).globals.get? name = none := h.worldAfter
  rw [Machine.worldAfter, next] at unbound
  exact ⟨h.codes.step (fun _ _ => .inner) next, unbound⟩

theorem Spares.reaches (h : m.Spares name) (path : Reaches limit m m') : m'.Spares name := by
  induction path with
  | refl => exact h
  | tail _ next ih => exact ih.step next

theorem unbound_of_run (h : m.Spares name) (ran : m.run limit fuel = some e) :
    e.world.globals.get? name = none := by
  obtain ⟨m', path, last⟩ := last_of_run ran
  have unbound : (m'.worldAfter limit).globals.get? name = none := (h.reaches path).worldAfter
  rwa [Machine.worldAfter, last] at unbound

end Machine

/-! ### Compiled code -/

namespace Lower

variable {name : String}

/-- The name was not added. -/
def Tables.Free (name : String) (t t' : Tables) : Prop := name ∈ t'.names → name ∈ t.names

theorem constant_free {k : Constant} (h : constant k t = .ok (i, t')) : t.Free name t' := by
  rcases constant_cases h with ⟨-, rfl⟩ | ⟨-, rfl⟩ <;> exact id

theorem Tables.free_entered (name : String) : Tables.Entered (· ≠ name) (Tables.Free name) where
  refl _ := id
  trans before after mem := before (after mem)
  literal := constant_free
  global ne entry := by
    rcases nameIndex_cases entry with ⟨-, rfl⟩ | ⟨-, rfl⟩
    · exact id
    · exact fun mem => (Array.mem_push.mp mem).resolve_right ne.symm

variable {c : Context} (unnamed : c.tree.Names (· ≠ name))

include unnamed

theorem Does.free (h : Does c loop work t pos s t') : t.Free name t' :=
  h.entered (Tables.free_entered name) constant_free unnamed

omit unnamed in
/-- A finished unit without the name spares it if the codes inside do. -/
theorem spares_finish {t : Tables} (absent : name ∉ t.names)
    (inner : ∀ k : Code, .code k ∈ t.constants → k.Spares name) :
    (finish c unit argCount seg t).Spares name := by
  intro k path i _ named
  cases path using Relation.ReflTransGen.head_induction_on with
  | refl => exact absent (Array.mem_of_getElem? named)
  | head first rest => exact inner _ first k rest i ‹_› named

theorem Does.spares (h : Does c loop work {} pos s t) :
    name ∉ t.names ∧ ∀ k : Code, .code k ∈ t.constants → k.Spares name := by
  refine ⟨fun mem => by simpa using h.free unnamed mem, fun k mem => ?_⟩
  have inside := h.codes_in (K := CodeOf.Spares name) (fun same does last inner => ?_) mem
  · simpa using inside
  · refine spares_finish (fun mem => ?_) inner
    have added := does.free (by rw [same]; exact unnamed) (constant_free last mem)
    simp at added

end Lower

theorem spares_of_ofTree {t : Tree} {name : String} {mode : Mode} {code : Code}
    (unnamed : t.Names (· ≠ name)) (compiled : Code.ofTree t mode = .ok code) :
    code.Spares name := by
  rcases Lower.ofTree_ok compiled with ⟨_, _, _, _, made, rfl⟩ | ⟨_, _, _, _, _, does, last, rfl⟩
  · refine Lower.spares_finish (fun mem => ?_) fun k mem => ?_
    · simpa using made.entered (Lower.Tables.free_entered name) unnamed mem
    · simpa using made.noCode k mem
  · obtain ⟨absent, inner⟩ := does.spares unnamed
    refine Lower.spares_finish (fun mem => absent (Lower.constant_free last mem)) fun k mem => ?_
    exact inner k (Lower.literal_noCode last k mem)

end Scratchpad
