import Scratchpad.Proofs.Code.Tables
import Scratchpad.Proofs.Meaning

/-!
# Following a meaning

`Site.Follows m Q r`: going on from the machine `m` comes to what the meaning `r` says. Where it
gives a value, the machine gets to a place where `Q` holds; where it is a fault, the run fails with
it; where it never ends, neither does the run. Pieces of code that follow their meanings are put
together by `Follows.bind`, and `follows_exec` has the instructions.
-/

namespace Scratchpad

open Machine (Reaches)

/-- An activation of some code, less what changes while it runs. -/
structure Site where
  code : Code
  callers : List Frame
  limit : Nat

namespace Site

variable {site : Site} {m m' : Machine} {s : Scene slots}

def frame (site : Site) (pc : Nat) (stack : List Value) (iters : List Iter) (s : Scene slots) :
    Frame :=
  ⟨site.code, pc, stack, s.locals.toArray, iters⟩

def machine (site : Site) (pc : Nat) (stack : List Value) (iters : List Iter) (s : Scene slots) :
    Machine :=
  ⟨site.frame pc stack iters s, site.callers, s.world⟩

/-- The run from `m` ends with the fault, in the world and with the local variables of `s`. -/
def Fails (site : Site) (m : Machine) (fault : Fault) (s : Scene slots) : Prop :=
  ∃ m' span above f, Reaches site.limit m m' ∧
    m'.step site.limit = .inl ⟨.error ⟨fault, span⟩, s.world⟩ ∧
    m'.frame :: m'.callers = above ++ f :: site.callers ∧ f.locals = s.locals.toArray

def Follows (site : Site) (m : Machine) (Q : α → Scene slots → Machine → Prop) :
    Option (Except Fault α × Scene slots) → Prop
  | some (.ok a, s) => ∃ m', Reaches site.limit m m' ∧ Q a s m'
  | some (.error fault, s) => site.Fails m fault s
  | none => ∀ fuel, m.run site.limit fuel = none

theorem Fails.of_reaches (path : Reaches site.limit m m') (h : site.Fails m' fault s) :
    site.Fails m fault s := by
  obtain ⟨m'', span, above, f, path', last⟩ := h
  exact ⟨m'', span, above, f, path.trans path', last⟩

theorem Follows.of_reaches {Q : α → Scene slots → Machine → Prop} (path : Reaches site.limit m m')
    (h : site.Follows m' Q r) : site.Follows m Q r := by
  match r with
  | some (.ok a, s) =>
    obtain ⟨m'', path', holds⟩ := h
    exact ⟨m'', path.trans path', holds⟩
  | some (.error fault, s) => exact Fails.of_reaches path h
  | none => exact Machine.run_none_of_reaches path h

theorem Follows.of_step {Q : α → Scene slots → Machine → Prop} (next : m.step site.limit = .inr m')
    (h : site.Follows m' Q r) : site.Follows m Q r :=
  h.of_reaches (.single next)

theorem Follows.bind {x : Meaning slots α} {f : α → Meaning slots β}
    {P : α → Scene slots → Machine → Prop} {Q : β → Scene slots → Machine → Prop}
    (first : site.Follows m P (x s))
    (rest : ∀ a s' m', x s = some (.ok a, s') → P a s' m' → site.Follows m' Q (f a s')) :
    site.Follows m Q ((x >>= f) s) := by
  rw [Meaning.bind_apply]
  match given : x s with
  | some (.ok a, s') =>
    rw [given] at first
    obtain ⟨m', path, holds⟩ := first
    exact (rest a s' m' given holds).of_reaches path
  | some (.error fault, s') => rwa [given] at first
  | none => rwa [given] at first

theorem Follows.pure {Q : α → Scene slots → Machine → Prop} (h : Q a s m) :
    site.Follows m Q ((Pure.pure a : Meaning slots α) s) :=
  ⟨m, .refl, h⟩

theorem Follows.andThen {P Q : α → Scene slots → Machine → Prop} (h : site.Follows m P r)
    (further : ∀ a s' m', P a s' m' → ∃ m'', Reaches site.limit m' m'' ∧ Q a s' m'') :
    site.Follows m Q r := by
  match r, h with
  | some (.ok a, s), ⟨m', path, holds⟩ =>
    obtain ⟨m'', path', holds'⟩ := further a s m' holds
    exact ⟨m'', path.trans path', holds'⟩
  | some (.error fault, s), h => exact h
  | none, h => exact h

/-! ### Instructions -/

theorem step_go (here : site.code.instructions[pc]? = some i)
    (does : (site.frame pc stack iters s).exec i s.world = .ok (.go f, w)) :
    (site.machine pc stack iters s).step site.limit = .inr ⟨f, site.callers, w⟩ := by
  unfold frame at does
  unfold Machine.step
  simp only [machine, frame, here, does]

theorem step_leave (here : site.code.instructions[pc]? = some i)
    (does : (site.frame pc stack iters s).exec i s.world = .ok (.leave v, w)) :
    (site.machine pc stack iters s).step site.limit =
      { site.machine pc stack iters s with world := w }.leave v := by
  unfold frame at does
  unfold Machine.step
  simp only [machine, frame, here, does]

theorem fails_here (here : site.code.instructions[pc]? = some i)
    (does : (site.frame pc stack iters s).exec i s.world = .error (fault, w)) :
    site.Fails (site.machine pc stack iters s) fault { s with world := w } := by
  refine ⟨_, (site.machine pc stack iters s).blame? pc, [], _, .refl, ?_, rfl, rfl⟩
  unfold frame at does
  unfold Machine.step
  simp only [machine, frame, here, does]
  rfl

/-- An instruction that asks or changes the world by `x` and puts the answer in a frame. -/
theorem follows_exec {x : Eval α} (next : α → Frame) {Q : α → Scene slots → Machine → Prop}
    (here : site.code.instructions[pc]? = some i)
    (does : (site.frame pc stack iters s).exec i = (do return .go (next (← x))))
    (landed : ∀ a w, Q a { s with world := w } ⟨next a, site.callers, w⟩) :
    site.Follows (site.machine pc stack iters s) Q (Meaning.ofEval x s) := by
  have step := congrFun does s.world
  change _ = (x s.world).bind _ at step
  unfold Meaning.ofEval
  cases done : x s.world with
  | error failed =>
    obtain ⟨fault, w⟩ := failed
    rw [done] at step
    exact fails_here here step
  | ok result =>
    obtain ⟨a, w⟩ := result
    rw [done] at step
    exact ⟨_, .single (step_go here step), landed a w⟩

end Site

/-! ### Calls -/

namespace Frame

/-- What calling a value gives: a value at once, or a function to enter. -/
def callee (v : Value) (args : List Value) : Eval (Value ⊕ Function) :=
  match v with
  | .function ref => do
    match ← Eval.ask fun s => .ok s.functions[ref]? with
    | some function => return .inr function
    | none => Eval.fail (.notCallable v.typeName)
  | .builtin b => return .inl (← b.call args)
  | .method ref => do
    match ← Eval.ask fun s => .ok s.methods[ref]? with
    | some m => return .inl (← Method.call m.receiver m.method args)
    | none => Eval.fail (.notCallable v.typeName)
  | v => Eval.fail (.notCallable v.typeName)

theorem popN_reverse {f : Frame} (h : f.stack = args.reverse ++ rest) :
    f.popN args.length = .ok (args, { f with stack := rest }) := by
  unfold popN
  rw [h, if_pos (by simp)]
  simp

theorem call_eq {f : Frame} (h : f.stack = args.reverse ++ v :: rest) :
    f.call args.length = do
      match ← callee v args with
      | .inl result => return .go ({ f with stack := result :: rest }).next
      | .inr function => return .call function args { f with stack := rest } := by
  unfold call
  rw [popN_reverse h]
  funext w
  cases v with
  | function ref =>
    change (match w.store.functions[ref]? with | some _ => _ | none => _ : Eval Turn) w =
      (match w.store.functions[ref]? with | some _ => _ | none => _ : Eval (Value ⊕ Function)) w >>= _
    cases w.store.functions[ref]? with
    | some function => rfl
    | none => rfl
  | builtin b =>
    change (b.call args w >>= _) = (b.call args w >>= _) >>= _
    cases b.call args w with
    | ok result => rfl
    | error fault => rfl
  | method ref =>
    change (match w.store.methods[ref]? with | some _ => _ | none => _ : Eval Turn) w =
      (match w.store.methods[ref]? with | some _ => _ | none => _ : Eval (Value ⊕ Function)) w >>= _
    cases w.store.methods[ref]? with
    | some m =>
      change (Method.call m.receiver m.method args w >>= _) =
        (Method.call m.receiver m.method args w >>= _) >>= _
      cases Method.call m.receiver m.method args w with
      | ok result => rfl
      | error fault => rfl
    | none => rfl
  | _ => rfl

end Frame

namespace Machine

/-- Runs a function from its first instruction, with one call less to spare. -/
noncomputable def entering (calls : Nat) (function : Function) (args : List Value) (w : World) :
    Option (Except Fault Value × World) :=
  if args.length ≠ function.code.argCount then
    some (.error (.functionArity function.name function.code.argCount args.length), w)
  else if calls = 0 then some (.error .tooManyCalls, w)
  else answer (calls - 1) ⟨.enter function.code args, [], w⟩

/-- What a call comes to, whoever makes it. -/
noncomputable def invoking (calls : Nat) (v : Value) (args : List Value) (w : World) :
    Option (Except Fault Value × World) :=
  match Frame.callee v args w with
  | .error (fault, w) => some (.error fault, w)
  | .ok (.inl result, w) => some (.ok result, w)
  | .ok (.inr function, w) => entering calls function args w

end Machine

namespace Site

variable {site : Site} {s : Scene slots}

theorem step_call {s : Scene slots} (here : site.code.instructions[pc]? = some i)
    (does : (site.frame pc stack iters s).exec i s.world = .ok (.call function args caller, w)) :
    (site.machine pc stack iters s).step site.limit =
      match Machine.enter ⟨site.frame pc stack iters s, site.callers, w⟩ site.limit function args
        caller with
      | .error fault =>
        .inl (Machine.failing ⟨site.frame pc stack iters s, site.callers, w⟩ fault pc)
      | .ok next => .inr next := by
  cases entered : Machine.enter ⟨site.frame pc stack iters s, site.callers, w⟩ site.limit function args caller with
  | error | ok =>
    unfold frame at does entered
    unfold Machine.step
    simp only [machine, frame, here, does, entered]

/-- An activation that called a function waits for its value. -/
theorem follows_entering {w : World} (here : site.code.instructions[pc]? = some i)
    (does : (site.frame pc stack iters s).exec i s.world =
      .ok (.call function args (site.frame pc rest iters s), w)) :
    site.Follows (site.machine pc stack iters s)
      (fun v s' m' => m' = site.machine (pc + 1) (v :: rest) iters s')
      (Meaning.ofWorld (Machine.entering (site.limit - site.callers.length) function args)
        { s with world := w }) := by
  have step := step_call here does
  unfold Machine.enter at step
  unfold Meaning.ofWorld Machine.entering
  by_cases arity : args.length ≠ function.code.argCount
  · rw [if_pos arity] at step ⊢
    exact ⟨_, _, [], _, .refl, step, rfl, rfl⟩
  rw [if_neg arity] at step ⊢
  by_cases deep : site.limit ≤ site.callers.length
  · rw [if_pos deep] at step
    rw [if_pos (by omega)]
    exact ⟨_, _, [], _, .refl, step, rfl, rfl⟩
  rw [if_neg deep] at step
  have left : site.limit - site.callers.length - 1 =
      site.limit - (site.frame pc rest iters s :: site.callers).length := by
    rw [List.length_cons]
    omega
  rw [if_neg (by omega), left]
  refine .of_step step ?_
  unfold Machine.answer
  match ended : Machine.outcome _ ⟨.enter function.code args, [], w⟩ with
  | none => exact fun fuel => Machine.run_under_never ended
  | some ⟨.ok v, world⟩ => exact ⟨_, Machine.returns_under ended, rfl⟩
  | some ⟨.error ⟨fault, span⟩, world⟩ =>
    obtain ⟨m', span', path, last⟩ := Machine.fails_under ended
    exact ⟨_, span', m'.frame :: m'.callers, _, path, last, rfl, rfl⟩

theorem follows_invoking (here : site.code.instructions[pc]? = some (.call args.length)) :
    site.Follows (site.machine pc (args.reverse ++ v :: rest) iters s)
      (fun v s' m' => m' = site.machine (pc + 1) (v :: rest) iters s')
      (Meaning.ofWorld (Machine.invoking (site.limit - site.callers.length) v args) s) := by
  have does := congrFun (Frame.call_eq (f := site.frame pc (args.reverse ++ v :: rest) iters s) rfl)
    s.world
  change (site.frame pc (args.reverse ++ v :: rest) iters s).exec (.call args.length) s.world =
    (Frame.callee v args s.world).bind _ at does
  unfold Meaning.ofWorld Machine.invoking
  match called : Frame.callee v args s.world with
  | .error (fault, w) =>
    rw [called] at does
    exact fails_here here does
  | .ok (.inl value, w) =>
    rw [called] at does
    exact ⟨_, .single (step_go here does), rfl⟩
  | .ok (.inr function, w) =>
    rw [called] at does
    exact follows_entering here does

/-- What follows a meaning to an end has its answer. -/
theorem Follows.answer {Q : Value → Scene slots → Machine → Prop} (h : site.Follows m Q r)
    (ends : ∀ v s' m', Q v s' m' → m'.step site.limit = .inl ⟨.ok v, s'.world⟩) :
    m.answer site.limit = r.map fun (result, s') => (result, s'.world) := by
  unfold Machine.answer
  match r with
  | some (.ok v, s') =>
    obtain ⟨m', path, holds⟩ := h
    rw [Machine.outcome_eq_some_iff.mpr (Machine.run_to_end path (ends v s' m' holds))]
    rfl
  | some (.error fault, s') =>
    obtain ⟨m', span, above, f, path, last, _⟩ := h
    rw [Machine.outcome_eq_some_iff.mpr (Machine.run_to_end path last)]
    rfl
  | none =>
    rw [Machine.outcome_eq_none_iff.mpr h]
    rfl

/-- The code that `Machine.calling` runs makes the call and gives its value. -/
theorem answer_calling (calls : Nat) (v : Value) (args : List Value) (w : World) :
    (Machine.calling v args w).answer calls = Machine.invoking calls v args w := by
  let stub : Site := ⟨(Machine.calling v args w).frame.code, [], calls⟩
  have follows : stub.Follows (stub.machine 0 (args.reverse ++ [v]) [] ⟨#v[], w⟩) _
      (Meaning.ofWorld (Machine.invoking calls v args) ⟨#v[], w⟩) :=
    follows_invoking rfl
  have same := follows.answer fun v s' m' reached => by rw [reached]; exact step_leave rfl rfl
  rw [Meaning.ofWorld, Option.map_map] at same
  exact same.trans Option.map_id'

theorem follows_call (here : site.code.instructions[pc]? = some (.call args.length)) :
    site.Follows (site.machine pc (args.reverse ++ v :: rest) iters s)
      (fun v s' m' => m' = site.machine (pc + 1) (v :: rest) iters s')
      (Meaning.call (site.limit - site.callers.length) v args s) := by
  unfold Meaning.call
  rw [funext (answer_calling _ v args)]
  exact follows_invoking here

end Site

end Scratchpad
