import Scratchpad.Proofs.Machine.Blame
import Scratchpad.Proofs.Machine.Places

/-!
# Code with the same beginning

Two codes that begin alike run in step as long as they are in their beginnings (`Twins.step`). If
the one stays at the end of its beginning for ever, the other ends every run that it ends, at the
same place of the source (`Twins.run`).
-/

namespace Scratchpad

/-! ### Codes that begin alike -/

/-- The first `n` instructions of `c` stand in `c'` too, at the same places of the source, find the
same there, and lead no further. -/
structure CodeOf.Begins (n : Nat) (c c' : Code) : Prop where
  name : c'.name = c.name
  locals : c'.locals = c.locals
  instructions : ∀ pc < n, c'.instructions[pc]? = c.instructions[pc]?
  spans : ∀ pc < n, c'.spanAt? pc = c.spanAt? pc
  finds : ∀ pc < n, ∀ i, c.instructions[pc]? = some i → i.Finds id c c'
  inside : ∀ pc < n, ∀ i, c.instructions[pc]? = some i → ∀ target, i.target? = some target → target ≤ n

open Classical in
/-- Exchanges one code for another. -/
noncomputable def CodeOf.exchange (c c' : Code) (k : Code) : Code := if k = c then c' else k

theorem CodeOf.Begins.recodes {c c' : Code} (h : c.Begins n c') : Recodes (c.exchange c') := by
  constructor <;> intro k <;> unfold exchange <;> split
  · subst k
    exact h.name
  · rfl
  · subst k
    exact h.locals
  · rfl

theorem Frame.recode_exchange {f : Frame} {c c' : Code} (h : f.code = c) :
    f.recode (c.exchange c') = { f with code := c' } := by
  rw [recode, CodeOf.exchange, if_pos h]

namespace Machine

variable {n limit : Nat} {c c' : Code} {m m' : Machine} {i : Instr} {w : World}

section

variable (m : Machine) (here : m.frame.code.instructions[m.frame.pc]? = some i)

include here

theorem step_of_fault (done : m.frame.exec i m.world = .error (fault, w)) :
    m.step limit = .inl ({ m with world := w }.failing fault m.frame.pc) := by
  simp only [step, here, done]

theorem step_of_go (done : m.frame.exec i m.world = .ok (.go f, w)) :
    m.step limit = .inr { m with frame := f, world := w } := by
  simp only [step, here, done]

theorem step_of_leave (done : m.frame.exec i m.world = .ok (.leave v, w)) :
    m.step limit = { m with world := w }.leave v := by
  simp only [step, here, done]

theorem step_of_refusal (done : m.frame.exec i m.world = .ok (.call function args f, w))
    (refused : { m with world := w }.enter limit function args f = .error fault) :
    m.step limit = .inl ({ m with world := w }.failing fault m.frame.pc) := by
  simp only [step, here, done, refused]

theorem step_of_entry (done : m.frame.exec i m.world = .ok (.call function args f, w))
    (entered : { m with world := w }.enter limit function args f = .ok m') :
    m.step limit = .inr m' := by
  simp only [step, here, done, entered]

end

theorem step_of_stray (m : Machine) (here : m.frame.code.instructions[m.frame.pc]? = none) :
    m.step limit =
      .inl (m.failing (.broken (.strayPointer m.frame.pc m.frame.code.name)) (m.frame.pc - 1)) := by
  simp only [step, here]

/-- Two machines that differ in the code at the bottom, which is at its beginning. -/
inductive Twins (n : Nat) (c c' : Code) : Machine → Machine → Prop
  | alone (f : Frame) (w : World) (code : f.code = c) (le : f.pc ≤ n) :
      Twins n c c' ⟨f, [], w⟩ ⟨{ f with code := c' }, [], w⟩
  | above (f : Frame) (callers : List Frame) (bottom : Frame) (w : World) (code : bottom.code = c)
      (lt : bottom.pc < n) :
      Twins n c c' ⟨f, callers ++ [bottom], w⟩ ⟨f, callers ++ [{ bottom with code := c' }], w⟩

/-- Both end in the same way, or go on as twins. -/
def Twins.Step (n : Nat) (c c' : Code) (r r' : Ending ⊕ Machine) : Prop :=
  (∃ e, r = .inl e ∧ r' = .inl e) ∨ ∃ m m', r = .inr m ∧ r' = .inr m' ∧ Twins n c c' m m'

/-- A code that begins as `c` does what `c` does there. -/
theorem exec_of_begins {f : Frame} (begins : f.code.Begins n c') (lt : f.pc < n)
    (here : f.code.instructions[f.pc]? = some i) (w : World) :
    ({ f with code := c' } : Frame).exec i w =
      Eval.mapResult (Turn.recode id (f.code.exchange c')) id (f.exec i w) := by
  have finds : i.Finds id f.code (f.code.exchange c' f.code) := by
    rw [CodeOf.exchange, if_pos rfl]
    exact begins.finds f.pc lt i here
  have mirrored := Frame.mirrors_exec begins.recodes f finds w
  simp only [World.mapSpans_id, Frame.recode_exchange rfl] at mirrored
  exact mirrored

theorem enter_caller (f g : Frame) (callers callers' : List Frame) (w : World) (caller caller' : Frame)
    (same : callers'.length = callers.length) :
    enter ⟨g, callers', w⟩ limit function args caller' =
      (enter ⟨f, callers, w⟩ limit function args caller).map fun m =>
        ⟨m.frame, caller' :: callers', m.world⟩ := by
  unfold enter
  dsimp only
  rw [same]
  split
  · rfl
  · split <;> rfl

theorem step_alone (f : Frame) (begins : f.code.Begins n c') (lt : f.pc < n) (w : World) :
    Twins.Step n f.code c' (step limit ⟨f, [], w⟩) (step limit ⟨{ f with code := c' }, [], w⟩) := by
  let m : Machine := ⟨f, [], w⟩
  let m' : Machine := ⟨{ f with code := c' }, [], w⟩
  have blamed (w' : World) (fault : Fault) {pc : Nat} (lt : pc < n) :
      { m' with world := w' }.failing fault pc = { m with world := w' }.failing fault pc := by
    simp [m, m', failing, blame?, begins.spans pc lt]
  have same : c'.instructions[f.pc]? = f.code.instructions[f.pc]? := begins.instructions f.pc lt
  cases here : f.code.instructions[f.pc]? with
  | none =>
    have there : step limit m' = _ := (step_of_stray m' (same.trans here)).trans
      (congrArg Sum.inl (blamed w _ (Nat.lt_of_le_of_lt (Nat.sub_le f.pc 1) lt)))
    refine .inl ⟨_, step_of_stray m here, there.trans ?_⟩
    simp only [m, m', begins.name]
  | some i =>
    have does := exec_of_begins begins lt here w
    cases done : f.exec i w with
    | error failed =>
      obtain ⟨fault, w'⟩ := failed
      rw [done] at does
      have there : step limit m' = _ := step_of_fault m' (same.trans here) does
      exact .inl ⟨_, step_of_fault m here done, there.trans (congrArg Sum.inl (blamed w' fault lt))⟩
    | ok r =>
      obtain ⟨turn, w'⟩ := r
      have leads := Frame.leads_of_exec done
      rw [done] at does
      cases turn with
      | leave v =>
        exact .inl ⟨⟨.ok v, w'⟩, step_of_leave m here done, step_of_leave m' (same.trans here) does⟩
      | go f' =>
        simp only [Eval.mapResult, Turn.recode, Frame.recode_exchange leads.1] at does
        refine .inr ⟨_, _, step_of_go m here done, step_of_go m' (same.trans here) does,
          .alone f' w' leads.1 ?_⟩
        rcases leads.2 with next | jumps
        · omega
        · exact begins.inside f.pc lt i here _ jumps
      | call function args f' =>
        have whole : function.mapSpans id = function := by
          rw [Function.mapSpans, function.code.mapSpans_id]
        simp only [Eval.mapResult, Turn.recode, whole, Frame.recode_exchange leads.2.1] at does
        have entering : { m' with world := w' }.enter limit function args { f' with code := c' } = _ :=
          enter_caller f { f with code := c' } [] [] w' f' _ rfl
        cases entered : enter ⟨f, [], w'⟩ limit function args f' with
        | error fault =>
          rw [entered] at entering
          have there := step_of_refusal m' (same.trans here) does entering
          exact .inl ⟨_, step_of_refusal m here done entered,
            there.trans (congrArg Sum.inl (blamed w' fault lt))⟩
        | ok next =>
          rw [entered] at entering
          refine .inr ⟨_, _, step_of_entry m here done entered,
            step_of_entry m' (same.trans here) does entering, ?_⟩
          rw [enter_ok entered]
          exact .above _ [] f' w' leads.2.1 (leads.2.2 ▸ lt)

theorem step_above (begins : c.Begins n c') (f : Frame) (callers : List Frame) (bottom : Frame)
    (w : World) (code : bottom.code = c) (lt : bottom.pc < n) :
    Twins.Step n c c' (step limit ⟨f, callers ++ [bottom], w⟩)
      (step limit ⟨f, callers ++ [{ bottom with code := c' }], w⟩) := by
  let m : Machine := ⟨f, callers ++ [bottom], w⟩
  let m' : Machine := ⟨f, callers ++ [{ bottom with code := c' }], w⟩
  have blamed (w' : World) (fault : Fault) (pc : Nat) :
      { m' with world := w' }.failing fault pc = { m with world := w' }.failing fault pc := by
    simp [m, m', failing, blame?, List.findSome?_cons, List.findSome?_append, begins.spans _ lt, code]
  cases here : f.code.instructions[f.pc]? with
  | none =>
    have there : step limit m' = _ := step_of_stray m' here
    exact .inl ⟨_, step_of_stray m here, there.trans (congrArg Sum.inl (blamed w _ _))⟩
  | some i =>
    cases done : f.exec i w with
    | error failed =>
      obtain ⟨fault, w'⟩ := failed
      have there : step limit m' = _ := step_of_fault m' here done
      exact .inl ⟨_, step_of_fault m here done, there.trans (congrArg Sum.inl (blamed w' fault _))⟩
    | ok r =>
      obtain ⟨turn, w'⟩ := r
      cases turn with
      | leave v =>
        refine .inr ?_
        cases callers with
        | nil =>
          exact ⟨_, _, step_of_leave m here done, step_of_leave m' here done,
            .alone (bottom.push v).next w' code lt⟩
        | cons caller callers =>
          exact ⟨_, _, step_of_leave m here done, step_of_leave m' here done,
            .above (caller.push v).next callers bottom w' code lt⟩
      | go f' =>
        exact .inr ⟨_, _, step_of_go m here done, step_of_go m' here done,
          .above f' callers bottom w' code lt⟩
      | call function args f' =>
        have entering : { m' with world := w' }.enter limit function args f' = _ :=
          enter_caller f f (callers ++ [bottom]) _ w' f' f' (by simp [m'])
        cases entered : enter ⟨f, callers ++ [bottom], w'⟩ limit function args f' with
        | error fault =>
          rw [entered] at entering
          have there := step_of_refusal m' here done entering
          exact .inl ⟨_, step_of_refusal m here done entered,
            there.trans (congrArg Sum.inl (blamed w' fault _))⟩
        | ok next =>
          rw [entered] at entering
          refine .inr ⟨_, _, step_of_entry m here done entered, step_of_entry m' here done entering, ?_⟩
          rw [enter_ok entered]
          exact .above _ (f' :: callers) bottom w' code lt

/-- Twins go on in step, unless the code at the bottom is at the end of its beginning. -/
theorem Twins.step (begins : c.Begins n c') (h : Twins n c c' m m')
    (inside : m.callers = [] → m.frame.pc < n) :
    Twins.Step n c c' (m.step limit) (m'.step limit) := by
  cases h with
  | alone f w code le =>
    subst code
    exact step_alone f begins (inside rfl) w
  | above f callers bottom w code lt => exact step_above begins f callers bottom w code lt

/-- If the one stays at the end of its beginning, the other ends as it does. -/
theorem Twins.run (begins : c.Begins n c') (stays : c.instructions[n]? = some (.jump n))
    (h : Twins n c c' m m') (ran : m.run limit fuel = some e) : m'.run limit fuel = some e := by
  induction fuel generalizing m m' with
  | zero => cases ran
  | succ fuel ih =>
    by_cases inside : m.callers = [] → m.frame.pc < n
    · rw [Machine.run] at ran ⊢
      have both : Twins.Step n c c' (m.step limit) (m'.step limit) := h.step begins inside
      rcases both with ⟨e', ends, ends'⟩ | ⟨next, next', goes, goes', twins⟩
      · rw [ends] at ran
        rw [ends']
        exact ran
      · rw [goes] at ran
        rw [goes']
        exact ih twins ran
    · cases h with
      | above f callers bottom w code lt => exact (inside fun none => by simp at none).elim
      | alone f w code le =>
        have last : f.pc = n := Nat.le_antisymm le (Nat.not_lt.mp fun lt => inside fun _ => lt)
        have here : f.code.instructions[f.pc]? = some (.jump n) := by rw [code, last]; exact stays
        have again : Machine.step limit ⟨f, [], w⟩ = .inr ⟨f, [], w⟩ := by
          rw [step_of_go ⟨f, [], w⟩ here rfl]
          simp [Frame.jump, ← last]
        rw [Machine.run, again] at ran
        exact run_succ (ih (.alone f w code le) ran)

end Machine

end Scratchpad
