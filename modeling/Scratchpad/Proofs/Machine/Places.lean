import Scratchpad.Proofs.Code.Spans
import Scratchpad.Proofs.Machine.Blind
import Scratchpad.Proofs.Machine.Run
import Scratchpad.Proofs.Meaning

/-!
# Places do not matter

Code keeps the place of each instruction in the source for the sake of messages. A run does the
same whatever the places are (`answer_mapSpans`). One instruction does the same in any code where it
finds the same entries (`mirrors_exec`).
-/

namespace Scratchpad

variable {σ : Span → Span}

def Function.mapSpans (σ : Span → Span) (f : Function) : Function :=
  { f with code := f.code.mapSpans σ }

def World.mapSpans (σ : Span → Span) (w : World) : World :=
  w.swap w.globals (w.store.functions.map (·.mapSpans σ))

theorem sameNames_mapSpans (fs : Array Function) : SameNames (fs.map (·.mapSpans σ)) fs := by
  rw [SameNames, Array.map_map]
  rfl

theorem World.truthy_mapSpans (w : World) : (w.mapSpans σ).store.truthy = w.store.truthy := rfl

theorem World.mapSpans_id (w : World) : w.mapSpans id = w := by
  have same : (·.mapSpans id : Function → Function) = id :=
    funext fun f => by rw [Function.mapSpans, f.code.mapSpans_id]; rfl
  rw [mapSpans, same, Array.map_id, swap_self]

/-! ### Instructions -/

/-- `x'` does with other places what `x` does; `v` says what becomes of the result. -/
def Mirrors (σ : Span → Span) (v : α → β) (x : Eval α) (x' : Eval β) : Prop :=
  ∀ w, x' (w.mapSpans σ) = Eval.mapResult v (·.mapSpans σ) (x w)

theorem mirrors_pure {v : α → β} (a : α) : Mirrors σ v (pure a) (pure (v a)) := fun _ => rfl

theorem mirrors_fail {v : α → β} (fault : Fault) : Mirrors σ v (Eval.fail fault) (Eval.fail fault) :=
  fun _ => rfl

theorem mirrors_lift {v : α → β} {x : Except Fault α} {x' : Except Fault β} (h : x' = x.map v) :
    Mirrors σ v (liftM x) (liftM x') := by
  intro w
  rw [h]
  cases x <;> rfl

theorem mirrors_get : Mirrors σ (World.mapSpans σ) (get : Eval World) get := fun _ => rfl

theorem Mirrors.bind {v : α → β} {u : γ → δ} {x : Eval α} {x' : Eval β} {f : α → Eval γ}
    {f' : β → Eval δ} (first : Mirrors σ v x x') (rest : ∀ a, Mirrors σ u (f a) (f' (v a))) :
    Mirrors σ u (x >>= f) (x' >>= f') := by
  intro w
  change (x' (w.mapSpans σ)).bind _ = Eval.mapResult _ _ ((x w).bind _)
  rw [first w]
  match x w with
  | .error (fault, w') => rfl
  | .ok (a, w') => exact rest a w'

theorem Blind.mirrors {x : Eval α} (h : Blind x) : Mirrors σ id x x := by
  intro w
  have swapped := h w w.globals (w.store.functions.map (·.mapSpans σ)) (sameNames_mapSpans _)
  refine swapped.trans ?_
  obtain ⟨globals, functions⟩ := h.kept w
  match done : x w with
  | .error (fault, w') =>
    rw [Eval.after_of_error done] at globals functions
    simp only [Eval.mapResult, World.mapSpans, globals, functions]
  | .ok (a, w') =>
    rw [Eval.after_of_ok done] at globals functions
    simp only [Eval.mapResult, World.mapSpans, globals, functions]

theorem mirrors_newFunction (c : Code) : Mirrors σ id (Eval.make (·.newFunction ⟨c.name, c⟩))
    (Eval.make (·.newFunction ⟨c.name, c.mapSpans σ⟩)) := by
  intro w
  have pushed : (w.mapSpans σ).store.functions.push ⟨c.name, c.mapSpans σ⟩ =
      (w.store.functions.push ⟨c.name, c⟩).map (·.mapSpans σ) := by
    rw [Array.map_push]
    rfl
  have size : (w.mapSpans σ).store.functions.size = w.store.functions.size := Array.size_map
  simp only [Eval.make, Store.newFunction, pushed, size]
  rfl

/-- The entry of the table of constants that an instruction looks up. -/
def Instr.constant? : Instr → Option Nat
  | .loadConst i | .makeFunction i => some i
  | _ => none

/-- The entry of the table of names that an instruction looks up. -/
def Instr.name? : Instr → Option Nat
  | .loadName i | .storeName i | .loadAttr i | .storeAttr i => some i
  | _ => none

/-- `i` finds in `c'` what it finds in `c`, but for the places. -/
structure Instr.Finds (σ : Span → Span) (i : Instr) (c c' : Code) : Prop where
  constants : ∀ k, i.constant? = some k → c'.constants[k]? = c.constants[k]?.map (·.mapSpans σ)
  names : ∀ k, i.name? = some k → c'.names[k]? = c.names[k]?

/-- Code by other code for the same unit. -/
structure Recodes (γ : Code → Code) : Prop where
  name : ∀ c, (γ c).name = c.name
  locals : ∀ c, (γ c).locals = c.locals

def Frame.recode (γ : Code → Code) (f : Frame) : Frame := { f with code := γ f.code }

def Turn.recode (σ : Span → Span) (γ : Code → Code) : Turn → Turn
  | .go f => .go (f.recode γ)
  | .call function args f => .call (function.mapSpans σ) args (f.recode γ)
  | .leave v => .leave v

namespace Frame

variable {γ : Code → Code} (other : Recodes γ) (f : Frame)

include other

theorem underflow_recode : (f.recode γ).underflow = f.underflow :=
  congrArg (fun name => Fault.broken (.stackUnderflow name)) (other.name f.code)

theorem pop_recode : (f.recode γ).pop = f.pop.map fun p => (p.1, p.2.recode γ) := by
  have under := underflow_recode other f
  obtain ⟨code, pc, stack, locals, iterators⟩ := f
  cases stack with
  | nil => exact congrArg Except.error under
  | cons v stack => rfl

theorem popN_recode (n : Nat) :
    (f.recode γ).popN n = (f.popN n).map fun p => (p.1, p.2.recode γ) := by
  by_cases enough : n ≤ f.stack.length
  · rw [popN, popN, if_pos enough]
    exact if_pos enough
  · rw [popN, popN, if_neg enough, underflow_recode other]
    exact if_neg enough

omit other in
theorem name_recode (found : (γ f.code).names[i]? = f.code.names[i]?) :
    (f.recode γ).name i = f.name i := by
  unfold name
  rw [show (f.recode γ).code.names[i]? = _ from found]

omit other in
theorem constant_recode
    (found : (γ f.code).constants[i]? = f.code.constants[i]?.map (·.mapSpans σ)) :
    (f.recode γ).constant i = (f.constant i).map (·.mapSpans σ) := by
  unfold constant
  rw [show (f.recode γ).code.constants[i]? = _ from found]
  cases f.code.constants[i]? <;> rfl

omit other in
theorem loadConst_recode
    (found : (γ f.code).constants[i]? = f.code.constants[i]?.map (·.mapSpans σ)) :
    (f.recode γ).loadConst i = (f.loadConst i).map (·.recode γ) := by
  unfold loadConst
  rw [constant_recode f found]
  cases f.constant i with
  | error fault => rfl
  | ok k =>
    cases k with
    | literal l => rfl
    | code c =>
      simp only [Except.map, bind, Except.bind, Constant.mapSpans_code]
      rfl

omit other in
theorem loadName_recode (found : (γ f.code).names[i]? = f.code.names[i]?) (w : World) :
    (f.recode γ).loadName (w.mapSpans σ) i = (f.loadName w i).map (·.recode γ) := by
  unfold loadName
  rw [name_recode f found]
  cases f.name i with
  | error fault => rfl
  | ok name =>
    simp only [bind, Except.bind, World.mapSpans, World.swap]
    split
    · rfl
    · split <;> rfl

theorem loadFast_recode (i : Nat) : (f.recode γ).loadFast i = (f.loadFast i).map (·.recode γ) := by
  unfold loadFast
  simp only [recode, other.locals]
  split <;> rfl

theorem storeFast_recode (i : Nat) : (f.recode γ).storeFast i = (f.storeFast i).map (·.recode γ) := by
  unfold storeFast
  rw [pop_recode other]
  cases f.pop with
  | error fault => rfl
  | ok p =>
    simp only [bind, Except.bind, Except.map, recode]
    split <;> rfl

theorem unpack_recode (s : Store) (fs : Array Function) (n : Nat) :
    (f.recode γ).unpack (s.swap fs) n = (f.unpack s n).map (·.recode γ) := by
  unfold unpack
  rw [pop_recode other]
  cases f.pop with
  | error fault => rfl
  | ok p =>
    change ((s.items p.1).bind _) = ((s.items p.1).bind _).map _
    cases s.items p.1 with
    | error fault => rfl
    | ok items =>
      simp only [Except.bind]
      split
      · rfl
      · split <;> rfl

theorem shuffle_recode (i : Instr) : (f.recode γ).shuffle i = (f.shuffle i).map (·.recode γ) := by
  have under := congrArg (Except.error (α := Frame)) (underflow_recode other f)
  obtain ⟨code, pc, stack, locals, iterators⟩ := f
  cases i with
  | dupTop =>
    rcases stack with _ | ⟨a, _⟩
    · exact under
    · rfl
  | dupTwo | rotTwo =>
    rcases stack with _ | ⟨a, _ | ⟨b, _⟩⟩
    · exact under
    · exact under
    · rfl
  | rotThree =>
    rcases stack with _ | ⟨a, _ | ⟨b, _ | ⟨c, _⟩⟩⟩
    · exact under
    · exact under
    · exact under
    · rfl
  | _ => rfl

theorem noIterator_recode :
    Fault.broken (.noIterator (f.recode γ).code.name) = .broken (.noIterator f.code.name) :=
  congrArg (fun name => Fault.broken (.noIterator name)) (other.name f.code)

theorem forIter_recode (s : Store) (fs : Array Function) (target : Nat) :
    (f.recode γ).forIter (s.swap fs) target = (f.forIter s target).map (·.recode γ) := by
  have none := noIterator_recode other f
  obtain ⟨code, pc, stack, locals, iterators⟩ := f
  cases iterators with
  | nil => exact congrArg Except.error none
  | cons it outer =>
    have same : (s.swap fs).next? it = s.next? it := rfl
    simp only [forIter, recode, same]
    cases s.next? it <;> rfl

theorem mirrors_pop : Mirrors σ (fun p => (p.1, p.2.recode γ)) (liftM f.pop)
    (liftM (f.recode γ).pop) :=
  mirrors_lift (pop_recode other f)

theorem mirrors_popN (n : Nat) : Mirrors σ (fun p => (p.1, p.2.recode γ)) (liftM (f.popN n))
    (liftM ((f.recode γ).popN n)) :=
  mirrors_lift (popN_recode other f n)

omit other in
theorem mirrors_go : Mirrors σ (Turn.recode σ γ) (pure (.go f)) (pure (.go (f.recode γ))) :=
  mirrors_pure _

omit other in
theorem mirrors_functions (ref : Nat) : Mirrors σ (Option.map (·.mapSpans σ))
    (Eval.ask fun s => .ok s.functions[ref]?) (Eval.ask fun s => .ok s.functions[ref]?) := by
  intro w
  have found : (w.mapSpans σ).store.functions[ref]? = w.store.functions[ref]?.map (·.mapSpans σ) :=
    Array.getElem?_map
  change Except.ok ((w.mapSpans σ).store.functions[ref]?, _) = _
  rw [found]
  rfl

theorem mirrors_call (n : Nat) : Mirrors σ (Turn.recode σ γ) (f.call n) ((f.recode γ).call n) := by
  refine (mirrors_popN other f n).bind fun p => (mirrors_pop other p.2).bind fun q => ?_
  obtain ⟨callee, f'⟩ := q
  cases callee with
  | function ref =>
    refine (mirrors_functions ref).bind fun found => ?_
    cases found with
    | some function => exact mirrors_pure (Turn.call function p.1 f')
    | none => exact mirrors_fail _
  | builtin b =>
    exact (Builtin.formed_call b p.1).blind.mirrors.bind fun v => mirrors_go (f'.push v).next
  | method ref =>
    refine Blind.mirrors (x := Eval.ask fun s => .ok s.methods[ref]?) (blind_ask fun _ _ _ => rfl)
      |>.bind fun found => ?_
    cases found with
    | some m => exact (Method.formed_call _ _ _).blind.mirrors.bind fun v => mirrors_go (f'.push v).next
    | none => exact mirrors_fail _
  | _ => exact mirrors_fail _

omit other in
theorem mirrors_name (found : (γ f.code).names[i]? = f.code.names[i]?) :
    Mirrors σ id (liftM (f.name i)) (liftM ((f.recode γ).name i)) :=
  mirrors_lift (by rw [name_recode f found]; cases f.name i <;> rfl)

omit other in
/-- The value of a computation goes on the stack. -/
theorem mirrors_push {x : Eval Value} (h : Blind x) :
    Mirrors σ (Turn.recode σ γ) (do return .go (f.push (← x)).next)
      (do return .go ((f.recode γ).push (← x)).next) :=
  h.mirrors.bind fun v => mirrors_go (f.push v).next

omit other in
theorem branch_recode (taken : Bool) (target : Nat) :
    (f.recode γ).branch taken target = (f.branch taken target).recode γ := by
  cases taken <;> rfl

/-- An instruction does the same in code where it finds the same. -/
theorem mirrors_exec {i : Instr} (h : i.Finds σ f.code (γ f.code)) :
    Mirrors σ (Turn.recode σ γ) (f.exec i) ((f.recode γ).exec i) := by
  cases i with
  | loadConst i =>
    exact (mirrors_lift (loadConst_recode f (h.constants i rfl))).bind fun f' => mirrors_go f'.next
  | loadName i =>
    exact mirrors_get.bind fun w => (mirrors_lift (loadName_recode f (h.names i rfl) w)).bind fun f' =>
      mirrors_go f'.next
  | storeName i =>
    exact (mirrors_name f (h.names i rfl)).bind fun name => (mirrors_pop other f).bind fun p w => rfl
  | loadFast i => exact (mirrors_lift (loadFast_recode other f i)).bind fun f' => mirrors_go f'.next
  | storeFast i => exact (mirrors_lift (storeFast_recode other f i)).bind fun f' => mirrors_go f'.next
  | loadAttr i =>
    exact (mirrors_name f (h.names i rfl)).bind fun name => (mirrors_pop other f).bind fun p =>
      mirrors_push p.2 (Subscript.formed_loadAttribute _ _).blind
  | storeAttr i =>
    exact (mirrors_name f (h.names i rfl)).bind fun name => (mirrors_pop other f).bind fun p =>
      (mirrors_pop other p.2).bind fun _ => mirrors_fail _
  | loadSubscript =>
    exact (mirrors_pop other f).bind fun p => (mirrors_pop other p.2).bind fun q =>
      mirrors_push q.2 (blind_ask fun s fs same => by rw [Subscript.load_swap same])
  | storeSubscript =>
    exact (mirrors_pop other f).bind fun p => (mirrors_pop other p.2).bind fun q =>
      (mirrors_pop other q.2).bind fun r =>
        (Subscript.formed_store _ _ _).blind.mirrors.bind fun _ => mirrors_go r.2.next
  | binary op =>
    exact (mirrors_pop other f).bind fun p => (mirrors_pop other p.2).bind fun q =>
      mirrors_push q.2 (Operator.formed_binary op _ _).blind
  | unary op =>
    exact (mirrors_pop other f).bind fun p => mirrors_push p.2 (blind_ask fun _ _ _ => rfl)
  | compare op =>
    refine (mirrors_pop other f).bind fun p => (mirrors_pop other p.2).bind fun q => ?_
    refine Blind.mirrors (blind_ask fun s fs _ => ?_) |>.bind fun b => mirrors_go (q.2.push _).next
    rw [Operator.compare_swap]
  | buildList n => exact (mirrors_popN other f n).bind fun p => mirrors_push p.2 (blind_list _)
  | buildTuple n => exact (mirrors_popN other f n).bind fun p => mirrors_push p.2 (blind_tuple _)
  | buildDict n =>
    refine (mirrors_popN other f _).bind fun p => ?_
    refine Blind.mirrors (blind_ask fun s fs _ => ?_) |>.bind fun d => mirrors_push p.2 (blind_dict d)
    rw [buildDict_swap]
  | unpack n =>
    exact mirrors_get.bind fun w =>
      (mirrors_lift (unpack_recode other f w.store _ n)).bind fun f' => mirrors_go f'.next
  | call n => exact mirrors_call other f n
  | makeFunction i =>
    refine (mirrors_lift (constant_recode f (h.constants i rfl))).bind fun k => ?_
    cases k with
    | literal l => exact mirrors_fail _
    | code c =>
      rw [Constant.mapSpans_code]
      exact (mirrors_newFunction c).bind fun v => mirrors_go (f.push v).next
  | pop => exact (mirrors_pop other f).bind fun p => mirrors_go p.2.next
  | dupTop | dupTwo | rotTwo | rotThree =>
    exact (mirrors_lift (shuffle_recode other f _)).bind fun f' => mirrors_go f'.next
  | jump target => exact mirrors_go (f.jump target)
  | popJumpIfFalse target | popJumpIfTrue target =>
    refine (mirrors_pop other f).bind fun p => mirrors_get.bind fun w => ?_
    rw [branch_recode]
    exact mirrors_go _
  | jumpIfFalseOrPop target =>
    refine (mirrors_pop other f).bind fun p => mirrors_get.bind fun w => ?_
    rw [w.truthy_mapSpans]
    split
    · exact mirrors_go p.2.next
    · exact mirrors_go (f.jump target)
  | jumpIfTrueOrPop target =>
    refine (mirrors_pop other f).bind fun p => mirrors_get.bind fun w => ?_
    rw [w.truthy_mapSpans]
    split
    · exact mirrors_go (f.jump target)
    · exact mirrors_go p.2.next
  | getIter =>
    exact (mirrors_pop other f).bind fun p =>
      Blind.mirrors (blind_ask fun _ _ _ => rfl) |>.bind fun it =>
        mirrors_go { p.2 with iterators := it :: p.2.iterators }.next
  | forIter target =>
    exact mirrors_get.bind fun w =>
      (mirrors_lift (forIter_recode other f w.store _ target)).bind fun f' => mirrors_go f'
  | popIter =>
    have none := noIterator_recode other f
    obtain ⟨code, pc, stack, locals, iterators⟩ := f
    cases iterators with
    | nil =>
      intro w
      exact congrArg (fun fault => Except.error (fault, w.mapSpans σ)) none
    | cons it outer => exact mirrors_go (Frame.mk code pc stack locals outer).next
  | returnValue => exact (mirrors_pop other f).bind fun p => mirrors_pure (Turn.leave p.1)

end Frame

/-! ### Runs -/

def Ending.mapSpans (σ : Span → Span) (e : Ending) : Ending :=
  ⟨e.outcome.mapError fun f => { f with span := f.span.map σ }, e.world.mapSpans σ⟩

theorem recodes_mapSpans (σ : Span → Span) : Recodes (CodeOf.mapSpans σ) := ⟨fun _ => rfl, fun _ => rfl⟩

theorem Instr.finds_mapSpans (i : Instr) (c : Code) : i.Finds σ c (c.mapSpans σ) :=
  ⟨fun _ _ => Array.getElem?_map, fun _ _ => rfl⟩

namespace Machine

def mapSpans (σ : Span → Span) (m : Machine) : Machine :=
  ⟨m.frame.recode (CodeOf.mapSpans σ), m.callers.map (·.recode (CodeOf.mapSpans σ)), m.world.mapSpans σ⟩

variable (m : Machine)

theorem blame?_mapSpans (pc : Nat) : (m.mapSpans σ).blame? pc = (m.blame? pc).map σ := by
  have placed : ∀ (c : Code) pc, (c.mapSpans σ).spanAt? pc = (c.spanAt? pc).map σ :=
    fun c pc => Array.getElem?_map
  rw [blame?, blame?, List.map_findSome?]
  simp [mapSpans, Frame.recode, List.findSome?_cons, List.findSome?_map, Function.comp_def, placed]

theorem enter_mapSpans (limit : Nat) (function : Function) (args : List Value) (caller : Frame) :
    (m.mapSpans σ).enter limit (function.mapSpans σ) args (caller.recode (CodeOf.mapSpans σ)) =
      (m.enter limit function args caller).map (·.mapSpans σ) := by
  unfold enter
  rw [show (m.mapSpans σ).callers.length = m.callers.length from List.length_map _]
  change (if args.length ≠ function.code.argCount then _ else _) = _
  split
  · rfl
  · split <;> rfl

theorem step_mapSpans (limit : Nat) :
    (m.mapSpans σ).step limit = (m.step limit).map (·.mapSpans σ) (·.mapSpans σ) := by
  have fails : ∀ (m : Machine) fault pc,
      (m.mapSpans σ).failing fault pc = (m.failing fault pc).mapSpans σ := by
    intro m fault pc
    rw [failing, blame?_mapSpans]
    rfl
  unfold step
  rw [show (m.mapSpans σ).frame.code.instructions[(m.mapSpans σ).frame.pc]? =
    m.frame.code.instructions[m.frame.pc]? from rfl]
  cases m.frame.code.instructions[m.frame.pc]? with
  | none => exact congrArg Sum.inl (fails m _ _)
  | some i =>
    have mirrored : (m.mapSpans σ).frame.exec i (m.mapSpans σ).world = _ :=
      Frame.mirrors_exec (recodes_mapSpans σ) m.frame (i.finds_mapSpans _) m.world
    simp only [mirrored]
    match m.frame.exec i m.world with
    | .error (fault, world) => exact congrArg Sum.inl (fails { m with world } _ _)
    | .ok (turn, world) =>
      cases turn with
      | go frame => rfl
      | leave v =>
        obtain ⟨frame, callers, w⟩ := m
        cases callers <;> rfl
      | call function args caller =>
        have entered : enter { m.mapSpans σ with world := world.mapSpans σ } limit
            (function.mapSpans σ) args (caller.recode (CodeOf.mapSpans σ)) = _ :=
          enter_mapSpans (σ := σ) { m with world } limit function args caller
        simp only [Eval.mapResult, Turn.recode, entered]
        cases { m with world }.enter limit function args caller with
        | error fault => exact congrArg Sum.inl (fails { m with world } _ _)
        | ok next => rfl

theorem run_mapSpans (limit fuel : Nat) :
    (m.mapSpans σ).run limit fuel = (m.run limit fuel).map (·.mapSpans σ) := by
  induction fuel generalizing m with
  | zero => rfl
  | succ fuel ih =>
    rw [run, run, step_mapSpans]
    cases m.step limit with
    | inl ending => rfl
    | inr next => exact ih next

theorem outcome_mapSpans (limit : Nat) :
    (m.mapSpans σ).outcome limit = (m.outcome limit).map (·.mapSpans σ) := by
  cases ended : m.outcome limit with
  | none =>
    rw [outcome_eq_none_iff] at ended
    refine outcome_eq_none_iff.mpr fun fuel => ?_
    rw [run_mapSpans, ended fuel]
    rfl
  | some e =>
    obtain ⟨fuel, ran⟩ := outcome_eq_some_iff.mp ended
    refine outcome_eq_some_iff.mpr ⟨fuel, ?_⟩
    rw [run_mapSpans, ran]
    rfl

theorem answer_mapSpans (limit : Nat) :
    (m.mapSpans σ).answer limit = (m.answer limit).map fun r => (r.1, r.2.mapSpans σ) := by
  rw [answer, answer, outcome_mapSpans]
  cases m.outcome limit with
  | none => rfl
  | some e =>
    obtain ⟨outcome, w⟩ := e
    cases outcome <;> rfl

end Machine

end Scratchpad
