import Scratchpad.Proofs.Machine.Ready
import Scratchpad.Proofs.Meaning.Safe
import Scratchpad.Proofs.Meaning.Statement

/-!
# Compiled code is safe

The run of lowered code comes to what its unit means (`answer_body`, `answer_value`), and meanings
are safe; so are calls, by induction on how deep they may go (`safe_calling`). A machine that breaks
its own rules would end its run with a fault that no meaning has, so none that compiled code gets to
does (`compiled_code_is_safe`).
-/

namespace Scratchpad

open Lower

namespace Meaning

/-- The statements of a unit; one that does not return gives nothing. -/
noncomputable def body (c : Context) (calls : Nat) (ids : List NodeId) : Meaning c.slots Value := do
  match ← all (Meaning.perform c calls c.tree.size) ids with
  | .result v => return v
  | _ => return .none

theorem safe_body (called : ∀ v args, Safe (call calls v args : Meaning c.slots Value))
    (ids : List NodeId) : Safe (body c calls ids) := by
  refine (safe_all (safe_perform calls called _) ids).bind fun flow => ?_
  cases flow <;> exact safe_pure _

end Meaning

namespace Site

variable {c : Context} {code : Code} {limit : Nat}

theorem ends_here {site : Site} {s : Scene slots} (alone : site.callers = [])
    (here : site.code.instructions[pc]? = some .returnValue) :
    (site.machine pc (v :: stack) iters s).step site.limit = .inl ⟨.ok v, s.world⟩ := by
  rw [step_leave here rfl]
  simp [machine, Machine.leave, alone]

/-- Finished code has the whole segment, its tables and the local variables of its unit. -/
theorem finished (made : code = finish c name argCount seg t) :
    Placed code 0 0 seg ∧ t.Le code.tables ∧ code.locals = c.locals.toArray := by
  rw [made]
  exact ⟨placed_finish c name argCount seg t, .refl t, rfl⟩

/-- The run of statements ends where they end. -/
theorem answer_body {ids : List NodeId} (does : Does c none (.body ids) {} 0 seg t)
    (last : constant (.literal .none) t = .ok (j, t'))
    (made : code = finish c name argCount
      (seg ++ [.op (.loadConst j) span] ++ [.op .returnValue span]) t') (s : Scene c.slots) :
    (Site.machine ⟨code, [], limit⟩ 0 [] [] s).answer limit =
      (Meaning.body c limit ids s).map fun (r, s') => (r, s'.world) := by
  let site : Site := ⟨code, [], limit⟩
  obtain ⟨placed, tables, unit⟩ : Placed site.code 0 0 _ ∧ t'.Le site.code.tables ∧
      site.code.locals = c.locals.toArray := finished made
  simp only [List.append_assoc, List.cons_append, List.nil_append, placed_append,
    placed_cons] at placed
  obtain ⟨first, load, leave, _⟩ := placed
  obtain ⟨le, entry⟩ := constant_ok last
  have fits : ∀ id ∈ ids, c.tree.Fits c.tree.size id := fun id mem => (does.shaped id mem).fits
  have performs := performs_of_does unit does (le.trans tables) first fits [] s nofun
  have follows : site.Follows (site.machine 0 [] [] s)
      (fun v s' m' => m'.step site.limit = .inl ⟨.ok v, s'.world⟩) (Meaning.body c limit ids s) := by
    refine performs.bind fun flow s' m' _ lands => ?_
    cases flow with
    | next =>
      rw [lands]
      refine (moves_literal load (tables.constants entry)).follows (f := pure) (fun v s'' => ?_)
      exact .pure (ends_here rfl leave)
    | leave | again => obtain ⟨l, none, _⟩ := lands; cases none
    | result v =>
      obtain ⟨pc, iters, rfl, here⟩ := lands
      exact .pure (ends_here rfl here)
  exact follows.answer fun _ _ _ => id

/-- The run of an expression ends with its value. -/
theorem answer_value {id : NodeId} (made : Makes c (.value id) {} 0 seg t)
    (whole : code = finish c name argCount (seg ++ [.op .returnValue span]) t)
    (s : Scene c.slots) :
    (Site.machine ⟨code, [], limit⟩ 0 [] [] s).answer limit =
      (Meaning.value c limit c.tree.size id s).map fun (r, s') => (r, s'.world) := by
  let site : Site := ⟨code, [], limit⟩
  obtain ⟨placed, tables, unit⟩ : Placed site.code 0 0 _ ∧ t.Le site.code.tables ∧
      site.code.locals = c.locals.toArray := finished whole
  simp only [placed_append, placed_cons] at placed
  obtain ⟨first, leave, _⟩ := placed
  have fits : ∀ x ∈ [id], c.tree.Fits c.tree.size x := fun x mem => (made.shaped x mem).fits
  have means := means_of_makes unit made tables first fits [] [] s
  refine means.answer fun v s' m' reached => ?_
  rw [reached]
  exact ends_here rfl leave

end Site

namespace Machine

/-- The same of a computation that has nothing to do with local variables. -/
def Safe (x : World → Option (Except Fault Value × World)) : Prop :=
  ∀ w r w', w.Knows Lowered → x w = some (r, w') → w'.Knows Lowered ∧ Plain r

theorem Safe.ofWorld {x : World → Option (Except Fault Value × World)} (h : Safe x) :
    Meaning.Safe (Meaning.ofWorld x : Meaning slots Value) := by
  intro s r s' known ended
  obtain ⟨⟨r', w'⟩, answered, same⟩ := Option.map_eq_some_iff.mp ended
  cases same
  exact h s.world _ w' known answered

/-- Code that does what a safe meaning says is safe to enter. -/
theorem Safe.of_meaning {c : Context} {x : Meaning c.slots Value} {code : Code}
    (safe : Meaning.Safe x) (unit : code.locals = c.locals.toArray)
    (same : ∀ s, (Site.machine ⟨code, [], limit⟩ 0 [] [] s).answer limit =
      (x s).map fun (r, s') => (r, s'.world)) (args : List Value) :
    Safe fun w => answer limit ⟨.enter code args, [], w⟩ := by
  intro w r w' known ended
  have size : (Frame.enter code args).locals.size = c.slots := by simp [Frame.enter, unit]
  have ended := (same ⟨⟨_, size⟩, w⟩).symm.trans ended
  obtain ⟨⟨r', s'⟩, answered, eq⟩ := Option.map_eq_some_iff.mp ended
  cases eq
  exact safe _ _ s' known answered

theorem safe_lowered {code : Code} (h : Lowered code) (args : List Value)
    (called : ∀ v args, Safe fun w => (calling v args w).answer limit) :
    Safe fun w => answer limit ⟨.enter code args, [], w⟩ := by
  have called : ∀ {slots} v args, Meaning.Safe (Meaning.call limit v args : Meaning slots Value) :=
    fun v args => (called v args).ofWorld
  cases h with
  | body does last =>
    exact .of_meaning (Meaning.safe_body called _) rfl (Site.answer_body does last rfl) args
  | value made =>
    exact .of_meaning (Meaning.safe_value limit called _ _) rfl (Site.answer_value made rfl) args

theorem keeps_callee (v : Value) (args : List Value) :
    Keeps Lowered (Frame.callee v args) fun found => ∀ f, found = .inr f → Lowered f.code := by
  cases v with
  | function ref =>
    refine (keeps_functions ref).bind fun found all => ?_
    cases found with
    | some function => exact keeps_pure (by rintro _ ⟨⟩; exact all function rfl)
    | none => exact keeps_fail _
  | builtin b => exact (Builtin.formed_call b args).steady.keeps.bind fun _ _ => keeps_pure nofun
  | method ref =>
    refine (steady_ask fun _ => plain_ok _).keeps.bind fun found _ => ?_
    cases found with
    | some m => exact (Method.formed_call _ _ _).steady.keeps.bind fun _ _ => keeps_pure nofun
    | none => exact keeps_fail _
  | _ => exact keeps_fail _

theorem steady_callee (v : Value) (args : List Value) : Steady (Frame.callee v args) := by
  cases v with
  | function ref =>
    refine (steady_ask fun _ => plain_ok _).bind fun found => ?_
    cases found with
    | some function => exact steady_pure _
    | none => exact steady_fail nofun
  | builtin b => exact (Builtin.formed_call b args).steady.bind fun _ => steady_pure _
  | method ref =>
    refine (steady_ask fun _ => plain_ok _).bind fun found => ?_
    cases found with
    | some m => exact (Method.formed_call _ _ _).steady.bind fun _ => steady_pure _
    | none => exact steady_fail nofun
  | _ => exact steady_fail nofun

theorem safe_entering {function : Function} (h : Lowered function.code) (args : List Value)
    (called : ∀ less < calls, ∀ v args, Safe fun w => (calling v args w).answer less) :
    Safe (entering calls function args) := by
  intro w r w' known ended
  unfold entering at ended
  split at ended
  · cases ended
    exact ⟨known, plain_error nofun⟩
  split at ended
  · cases ended
    exact ⟨known, plain_error nofun⟩
  · exact safe_lowered h args (called (calls - 1) (by omega)) w r w' known ended

/-- A function that is called has one call less to spare, which the induction is on. -/
theorem safe_calling (calls : Nat) (v : Value) (args : List Value) :
    Safe fun w => (calling v args w).answer calls := by
  induction calls using Nat.strongRecOn generalizing v args with
  | ind calls ih =>
    intro w r w' known ended
    replace ended := (Site.answer_calling calls v args w).symm.trans ended
    unfold invoking at ended
    have steady := steady_callee v args
    match found : Frame.callee v args w with
    | .error (fault, w₁) =>
      have plain := steady.plain w fault w₁ found
      have after := steady.knows known
      rw [found] at ended
      rw [Eval.after_of_error found] at after
      cases ended
      exact ⟨after, plain_error plain⟩
    | .ok (.inl result, w₁) =>
      obtain ⟨known, _⟩ := keeps_callee v args _ _ _ known found
      rw [found] at ended
      cases ended
      exact ⟨known, plain_ok _⟩
    | .ok (.inr function, w₁) =>
      obtain ⟨known, lowered⟩ := keeps_callee v args _ _ _ known found
      rw [found] at ended
      exact safe_entering (lowered function rfl) args ih _ _ _ known ended

theorem plain_failure {code : Code} {m : Machine} {failure : Failure} (lowered : Lowered code)
    (known : w.Knows Lowered) (path : Reaches limit ⟨.enter code [], [], w⟩ m)
    (failed : m.step limit = .inl ⟨.error failure, w'⟩) : failure.fault.kind ≠ .systemError := by
  have ended := outcome_eq_some_iff.mpr (run_to_end path failed)
  have answered : answer limit ⟨.enter code [], [], w⟩ = some (.error failure.fault, w') := by
    rw [answer, ended]
    rfl
  exact (safe_lowered lowered [] (safe_calling limit) w _ w' known answered).2 _ rfl

end Machine

open Machine (Reaches)

/-- However compiled code runs, in a world whose functions have compiled code: at every point there
is an instruction, with the operands, iterators and table entries that it needs. So no run ends with
a fault of the machine's own, and a fault has the place of the instruction that failed. -/
theorem compiled_code_is_safe {tree : Tree} {mode : Mode} {code : Code} {w : World}
    (compiled : Code.ofTree tree mode = .ok code) (functions : w.Knows Compiled) (limit : Nat) :
    (∀ m, Reaches limit { frame := .enter code [], world := w } m → m.Ready) ∧
      ∀ fuel failure w', code.run limit fuel w = some ⟨.error failure, w'⟩ →
        failure.fault.kind ≠ .systemError ∧
        ∃ m, Reaches limit { frame := .enter code [], world := w } m ∧
          m.step limit = .inl ⟨.error failure, w'⟩ ∧
          failure.span = m.frame.code.spanAt? m.frame.pc ∧ failure.span.isSome := by
  have lowered := lowered_of_ofTree compiled
  have known : w.Knows Lowered := fun f mem => (functions f mem).lowered
  have ready : ∀ m, Reaches limit { frame := .enter code [], world := w } m → m.Ready :=
    fun m path => Machine.ready_of_step fun failure w' => Machine.plain_failure lowered known path
  refine ⟨ready, fun fuel failure w' ran => ?_⟩
  obtain ⟨m, path, failed⟩ := Machine.last_of_run ran
  refine ⟨Machine.plain_failure lowered known path failed, m, path, failed, ?_⟩
  have start : Machine.Knows Compiled { frame := .enter code [], world := w } :=
    ⟨.whole compiled, by simp, functions⟩
  have here := (start.reaches (fun _ _ => .inner) path).frame.lowered.spans_size
  obtain ⟨i, found, _⟩ := ready m path
  have inside := (Array.getElem?_eq_some_iff.mp found).1
  have placed : m.frame.code.spanAt? m.frame.pc = some (m.frame.code.spans[m.frame.pc]) :=
    Array.getElem?_eq_getElem (by omega)
  have blamed := (Machine.span_of_step found failed).trans (Machine.blame?_of_span placed)
  exact ⟨blamed.trans placed.symm, by rw [blamed]; rfl⟩

/-- A module with `def f(x): return 1 // x`, the division on its second line. -/
def dividing : Tree where
  nodes := #[⟨.literal (.int 1), {}⟩, ⟨.name "x", {}⟩, ⟨.binary 0 .floorDiv 1, ⟨2, 12, 21, 27⟩⟩,
    ⟨.returnStmt (some 2), {}⟩, ⟨.functionDef "f" ["x"] [3], {}⟩]
  root := .module [4]

/-- The expression `f(0)`. -/
def dividingByZero : Tree where
  nodes := #[⟨.name "f", {}⟩, ⟨.literal (.int 0), {}⟩, ⟨.call 0 [1], ⟨1, 1, 0, 4⟩⟩]
  root := .expression 2

/-- The world once the module has run. -/
def afterDividing (f : Code) : World where
  globals := ⟨[("f", .function 0)]⟩
  store.functions := #[⟨"f", f⟩]

theorem dividing_is_safe : ∃ outer f code,
    Code.ofTree dividing .exec = .ok outer ∧ outer.constants[0]? = some (.code f) ∧
    Code.ofTree dividingByZero .eval = .ok code ∧
    (∀ m, Reaches 10 { frame := .enter code [], world := afterDividing f } m → m.Ready) ∧
    ∃ m, Reaches 10 { frame := .enter code [], world := afterDividing f } m ∧
      m.frame.code.spanAt? m.frame.pc = some ⟨2, 12, 21, 27⟩ := by
  obtain ⟨outer, f, code, w', made, inside, compiled, ran⟩ : ∃ outer f code w',
      Code.ofTree dividing .exec = .ok outer ∧ outer.constants[0]? = some (.code f) ∧
      Code.ofTree dividingByZero .eval = .ok code ∧
      code.run 10 20 (afterDividing f) =
        some ⟨.error ⟨.divisionByZero .integer, some ⟨2, 12, 21, 27⟩⟩, w'⟩ :=
    ⟨_, _, _, _, by cbv, by cbv, by cbv, by cbv⟩
  have functions : (afterDividing f).Knows Compiled := by
    intro function mem
    obtain rfl : function = ⟨"f", f⟩ := by simpa [afterDividing] using mem
    exact .inner (.whole made) (Array.mem_of_getElem? inside)
  obtain ⟨ready, blamed⟩ := compiled_code_is_safe compiled functions 10
  obtain ⟨_, m, path, _, span, _⟩ := blamed 20 _ w' ran
  exact ⟨outer, f, code, made, inside, compiled, ready, m, path, span.symm⟩

end Scratchpad
