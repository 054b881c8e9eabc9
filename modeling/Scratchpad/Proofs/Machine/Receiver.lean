import Scratchpad.Proofs.Machine.Shared
import Scratchpad.Proofs.Machine.Spares

/-!
# What one step changes

Operators, builtins and methods only add objects to the store, until nothing can fail any more; then
one object, the receiver, may change. So a step that fails has changed nothing, and one that succeeds has
changed no list and no dict but its receiver (`step_changes_receiver_only`).
-/

namespace Scratchpad

/-! ### Computations that change one object at the end -/

/-- In this world: if it fails or does not get to its end, it has only added objects; and no object
changes that may not. -/
structure Careful (Changed : Value → Prop) (Early : α → Prop) (w : World) (x : Eval α) : Prop where
  failing : ∀ fault w', x w = .error (fault, w') → w.Grows w'
  early : ∀ a w', x w = .ok (a, w') → Early a → w.Grows w'
  kept : w.store.Kept Changed (x.after w).store

section

variable {Changed : Value → Prop} {w : World}

theorem Growing.careful {x : Eval α} {Early : α → Prop} (h : Growing x) : Careful Changed Early w x where
  failing _ _ failed := Eval.after_of_error failed ▸ h w
  early _ _ done _ := Eval.after_of_ok done ▸ h w
  kept := (h w).store.mono fun _ => False.elim

theorem careful_fail {Early : α → Prop} (fault : Fault) :
    Careful Changed Early w (Eval.fail fault : Eval α) :=
  (growing_fail fault).careful

/-- What gets to its end need only spare the other objects. -/
theorem careful_of_ok {x : Eval α} {Early : α → Prop} (done : x w = .ok (a, w')) (late : ¬ Early a)
    (kept : w.store.Kept Changed w'.store) : Careful Changed Early w x where
  failing fault w'' failed := by
    rw [done] at failed
    cases failed
  early a' w'' done' early := by
    rw [done] at done'
    cases done'
    exact (late early).elim
  kept := by rwa [Eval.after_of_ok done]

/-- Nothing has changed when the second part begins. -/
theorem Careful.lift {x : Except Fault α} {f : α → Eval β} {Early : β → Prop}
    (rest : ∀ a, x = .ok a → Careful Changed Early w (f a)) :
    Careful Changed Early w (liftM x >>= f) := by
  cases x with
  | error fault => exact careful_fail fault
  | ok a => exact rest a rfl

theorem Careful.ask {f : Store → Except Fault α} {g : α → Eval β} {Early : β → Prop}
    (rest : ∀ a, f w.store = .ok a → Careful Changed Early w (g a)) :
    Careful Changed Early w (Eval.ask f >>= g) := by
  have lifted : Careful Changed Early w (liftM (f w.store) >>= g : Eval β) := .lift rest
  exact ⟨lifted.failing, lifted.early, lifted.kept⟩

theorem Careful.map {x : Eval α} {g : α → β} {Early : β → Prop}
    (h : Careful Changed (fun _ => False) w x) (late : ∀ a, ¬ Early (g a)) :
    Careful Changed Early w (x >>= fun a => pure (g a)) := by
  cases done : x w with
  | ok r =>
    obtain ⟨a, w'⟩ := r
    have mapped : (x >>= fun a => pure (g a)) w = .ok (g a, w') := by
      change (x w).bind _ = _
      rw [done]
      rfl
    have kept := h.kept
    rw [Eval.after_of_ok done] at kept
    exact careful_of_ok mapped (late a) kept
  | error e =>
    obtain ⟨fault, w'⟩ := e
    have mapped : (x >>= fun a => pure (g a)) w = .error (fault, w') := by
      change (x w).bind _ = _
      rw [done]
      rfl
    refine ⟨fun fault' w'' failed => ?_, fun a w'' done' => ?_, ?_⟩
    · rw [mapped] at failed
      cases failed
      exact h.failing fault w' done
    · rw [mapped] at done'
      cases done'
    · rw [Eval.after_of_error mapped, ← Eval.after_of_error done]
      exact h.kept

end

variable {w : World}

theorem Subscript.careful_store (object key v : Value) :
    Careful (object = ·) (fun _ => False) w (store object key v) := by
  cases object with
  | list ref =>
    refine .ask fun items _ => ?_
    split
    · exact careful_of_ok rfl id (Store.kept_setList rfl _)
    · exact careful_fail _
  | dict ref => exact .ask fun d _ => careful_of_ok rfl id (Store.kept_setDict rfl d)
  | _ => exact careful_fail _

theorem Method.careful_call (receiver : Value) (m : Method) (args : List Value) :
    Careful (receiver = ·) (fun _ => False) w (call receiver m args) := by
  unfold call
  split
  · exact careful_fail _
  · split
    · refine .ask fun result _ => ?_
      obtain ⟨v, after⟩ := result
      cases after with
      | none => exact (growing_pure v).careful
      | some items => exact careful_of_ok rfl id (Store.kept_setList rfl items)
    · exact ((growing_ask _).bind fun d => (formed_runDict d _ args).growing trivial).careful
    · exact ((growing_ask _).bind fun r => (formed_value r).growing trivial).careful
    · exact careful_fail _

theorem Builtin.careful_call {Changed : Value → Prop} (b : Builtin) (args : List Value) :
    Careful Changed (fun _ => False) w (b.call args) := by
  unfold Builtin.call
  split
  · by_cases prints : b = .print
    · subst prints
      exact careful_of_ok rfl id Store.kept_refl
    · exact ((formed_run b args).growing prints).careful
  · exact careful_fail _

/-! ### Steps -/

/-- The object that an instruction may change. -/
def Frame.receiver? (f : Frame) (s : Store) : Instr → Option Value
  | .storeSubscript => f.stack[1]?
  | .call n =>
    match f.stack[n]? with
    | some (.method ref) => s.methods[ref]?.map (·.receiver)
    | _ => none
  | _ => none

/-- A function is yet to be entered. -/
def Turn.Enters : Turn → Prop
  | .call _ _ _ => True
  | .go _ | .leave _ => False

namespace Frame

variable {f : Frame}

theorem stack_of_pop (h : f.pop = .ok (v, f')) : f.stack = v :: f'.stack := by
  unfold pop at h
  split at h
  · cases h
    assumption
  · cases h

theorem stack_of_popN (h : f.popN n = .ok (args, f')) : f'.stack = f.stack.drop n := by
  unfold popN at h
  split at h
  · cases h
    rfl
  · cases h

theorem careful_call (n : Nat) :
    Careful (f.receiver? w.store (.call n) = some ·) Turn.Enters w (f.call n) := by
  refine .lift fun p popped => .lift fun q top => ?_
  obtain ⟨args, f₁⟩ := p
  obtain ⟨callee, f₂⟩ := q
  have found : f.stack[n]? = some callee := by
    rw [← List.head?_drop, ← stack_of_popN popped, stack_of_pop top]
    rfl
  cases callee with
  | function ref =>
    refine .ask fun function _ => ?_
    cases function with
    | some function => exact (growing_pure _).careful
    | none => exact careful_fail _
  | builtin b => exact (Builtin.careful_call b args).map fun _ => id
  | method ref =>
    refine .ask fun m looked => ?_
    cases m with
    | some m =>
      have receiver : f.receiver? w.store (.call n) = some m.receiver := by
        simp only [receiver?, found, Except.ok.inj looked, Option.map_some]
      rw [receiver]
      simp only [Option.some.injEq]
      exact (Method.careful_call m.receiver m.method args).map fun _ => id
    | none => exact careful_fail _
  | _ => exact careful_fail _

theorem careful_storeSubscript :
    Careful (f.receiver? w.store .storeSubscript = some ·) Turn.Enters w (f.exec .storeSubscript) := by
  refine .lift fun p first => .lift fun q second => .lift fun r _ => ?_
  have receiver : f.receiver? w.store .storeSubscript = some q.1 := by
    simp only [receiver?, stack_of_pop first, List.getElem?_cons_succ, stack_of_pop second,
      List.getElem?_cons_zero]
  rw [receiver]
  simp only [Option.some.injEq]
  exact (Subscript.careful_store q.1 p.1 r.1).map fun _ => id

/-- Whatever an instruction does, a failure comes before any change, and only its receiver changes. -/
theorem careful_exec (i : Instr) :
    Careful (f.receiver? w.store i = some ·) Turn.Enters w (f.exec i) := by
  cases i with
  | call n => exact careful_call n
  | storeSubscript => exact careful_storeSubscript
  | storeName k => exact .lift fun name _ => .lift fun p _ => careful_of_ok rfl id Store.kept_refl
  | loadConst i | loadFast i | storeFast i | dupTop | dupTwo | rotTwo | rotThree | pop | returnValue =>
    exact ((growing_lift _).bind fun _ => growing_pure _).careful
  | loadName i | unpack n | forIter target =>
    exact (growing_get.bind fun _ => (growing_lift _).bind fun _ => growing_pure _).careful
  | loadAttr i =>
    exact ((growing_lift _).bind fun _ => (growing_lift _).bind fun _ =>
      ((Subscript.formed_loadAttribute _ _).growing trivial).bind fun _ => growing_pure _).careful
  | storeAttr i =>
    exact ((growing_lift _).bind fun _ => (growing_lift _).bind fun _ =>
      (growing_lift _).bind fun _ => growing_fail _).careful
  | loadSubscript | compare op =>
    exact ((growing_lift _).bind fun _ => (growing_lift _).bind fun _ =>
      (growing_ask _).bind fun _ => growing_pure _).careful
  | binary op =>
    exact ((growing_lift _).bind fun _ => (growing_lift _).bind fun _ =>
      ((Operator.formed_binary op _ _).growing trivial).bind fun _ => growing_pure _).careful
  | unary op | getIter =>
    exact ((growing_lift _).bind fun _ => (growing_ask _).bind fun _ => growing_pure _).careful
  | buildList n =>
    exact ((growing_lift _).bind fun _ => (growing_list _).bind fun _ => growing_pure _).careful
  | buildTuple n =>
    exact ((growing_lift _).bind fun _ => (growing_tuple _).bind fun _ => growing_pure _).careful
  | buildDict n =>
    exact ((growing_lift _).bind fun _ => (growing_ask _).bind fun _ =>
      (growing_dict _).bind fun _ => growing_pure _).careful
  | makeFunction i =>
    refine .lift fun k _ => ?_
    cases k with
    | literal l => exact careful_fail _
    | code c =>
      exact ((growing_make fun _ => Store.kept_newFunction _).bind fun _ => growing_pure _).careful
  | jump target => exact (growing_pure _).careful
  | popJumpIfFalse target | popJumpIfTrue target | jumpIfFalseOrPop target | jumpIfTrueOrPop target =>
    exact ((growing_lift _).bind fun _ => growing_get.bind fun _ => growing_pure _).careful
  | popIter =>
    dsimp only [exec]
    split
    · exact (growing_pure _).careful
    · exact careful_fail _

end Frame

namespace Machine

variable {m : Machine}

/-- The object that the next step may change. -/
def receiver? (m : Machine) : Option Value :=
  m.frame.code.instructions[m.frame.pc]?.bind (m.frame.receiver? m.world.store)

theorem grows_of_failing {failure : Failure} (last : m.step limit = .inl ⟨.error failure, w⟩) :
    m.world.Grows w := by
  have left : m.worldAfter limit = w := by
    unfold worldAfter
    rw [last]
  cases here : m.frame.code.instructions[m.frame.pc]? with
  | none =>
    rw [worldAfter_stray here] at left
    exact left ▸ World.grows_refl
  | some i =>
    rw [worldAfter_exec here] at left
    have careful := Frame.careful_exec (f := m.frame) (w := m.world) i
    cases done : m.frame.exec i m.world with
    | error e =>
      rw [Eval.after_of_error done] at left
      exact left ▸ careful.failing e.1 e.2 done
    | ok r =>
      obtain ⟨turn, w'⟩ := r
      obtain rfl : w' = w := (Eval.after_of_ok done).symm.trans left
      cases turn with
      | go f =>
        rw [step_of_go m here done] at last
        cases last
      | leave v =>
        rw [step_of_leave m here done] at last
        unfold leave at last
        cases callers : m.callers with
        | nil => rw [callers] at last; cases last
        | cons caller outer => rw [callers] at last; cases last
      | call function args caller => exact careful.early _ w' done trivial

theorem kept_worldAfter (limit : Nat) (m : Machine) :
    m.world.store.Kept (m.receiver? = some ·) (m.worldAfter limit).store := by
  unfold receiver?
  cases here : m.frame.code.instructions[m.frame.pc]? with
  | none =>
    rw [worldAfter_stray here]
    exact Store.kept_refl
  | some i =>
    rw [worldAfter_exec here]
    exact (Frame.careful_exec i).kept

end Machine

/-- A step that fails leaves the globals, the output and every object as they were. Any other step leaves
every object as it was but the list or dict that it stores into or whose method it calls. -/
theorem step_changes_receiver_only (limit : Nat) (m : Machine) :
    (∀ failure w, m.step limit = .inl ⟨.error failure, w⟩ →
      w.globals = m.world.globals ∧ w.output = m.world.output ∧
        m.world.store.Kept (fun _ => False) w.store) ∧
    m.world.store.Kept (m.receiver? = some ·) (m.worldAfter limit).store := by
  refine ⟨fun failure w last => ?_, Machine.kept_worldAfter limit m⟩
  have grows := Machine.grows_of_failing last
  exact ⟨grows.globals, grows.output, grows.store⟩

/-- About to call `sort` on a list that has no order, in a store with another list. -/
def sorting : Machine where
  frame := { code := { name := "", mode := .exec, instructions := #[.call 0] }, stack := [.method 0] }
  world :=
    { store :=
        { lists := #[#[.int 2, .int 1, .text "a"], #[.list 0]]
          methods := #[⟨.list 0, .list .sort⟩] } }

theorem step_changes_receiver_only_sorting : ∃ failure w,
    sorting.step 10 = .inl ⟨.error failure, w⟩ ∧ failure.fault = .unordered "<" "str" "int" ∧
    w.store.lists[0]? = some #[.int 2, .int 1, .text "a"] ∧ w.store.lists[1]? = some #[.list 0] := by
  obtain ⟨failure, w, last, fault⟩ : ∃ failure w, sorting.step 10 = .inl ⟨.error failure, w⟩ ∧
      failure.fault = .unordered "<" "str" "int" :=
    ⟨_, _, rfl, rfl⟩
  have kept := ((step_changes_receiver_only 10 sorting).1 failure w last).2.2
  exact ⟨failure, w, last, fault, kept.lists 0 _ id rfl, kept.lists 1 _ id rfl⟩

end Scratchpad
