import Mathlib
import Scratchpad.Machine

/-!
# Runs

What one machine reaches, what a run comes to when fuel is no matter, and how a run shows to the
callers that wait below it: `step_under` says it for one instruction, and the rest follows.
-/

namespace Scratchpad

section

open Classical

/-- What attempts with ever more fuel come to; `none` if none of them succeeds. -/
noncomputable def eventually (attempt : Nat → Option α) : Option α :=
  (Nat.rfindOpt attempt).toOption

theorem eventually_eq_none_iff {attempt : Nat → Option α} :
    eventually attempt = none ↔ ∀ fuel, attempt fuel = none := by
  rw [eventually, Part.toOption_eq_none_iff, Nat.rfindOpt_dom]
  simp [Option.eq_none_iff_forall_not_mem]

theorem eventually_eq_some_iff {attempt : Nat → Option α}
    (more : ∀ fuel a, attempt fuel = some a → attempt (fuel + 1) = some a) :
    eventually attempt = some a ↔ ∃ fuel, attempt fuel = some a := by
  have mono : ∀ {a : α} {n m : Nat}, n ≤ m → a ∈ attempt n → a ∈ attempt m := by
    intro a n m le got
    induction le with
    | refl => exact got
    | step _ ih => exact more _ a ih
  rw [← Option.mem_def, eventually, Part.mem_toOption, Nat.rfindOpt_mono mono]
  rfl

end

namespace Machine

/-- `m` goes on to `m'`, in any number of instructions. -/
abbrev Reaches (limit : Nat) : Machine → Machine → Prop :=
  Relation.ReflTransGen fun m m' => m.step limit = .inr m'

/-- What a run comes to with as much fuel as it needs; `none` if it never ends. -/
noncomputable def outcome (limit : Nat) (m : Machine) : Option Ending :=
  eventually fun fuel => m.run limit fuel

/-- A run that gets to `m'` ends as it does from there, with no more fuel. -/
theorem run_of_reaches (path : Reaches limit m m') (h : run limit fuel m = some e) :
    ∃ left ≤ fuel, run limit left m' = some e := by
  induction path using Relation.ReflTransGen.head_induction_on generalizing fuel with
  | refl => exact ⟨fuel, Nat.le_refl _, h⟩
  | head first _ ih =>
    cases fuel with
    | zero => cases h
    | succ fuel =>
      rw [run, first] at h
      obtain ⟨left, le, ended⟩ := ih h
      exact ⟨left, Nat.le_succ_of_le le, ended⟩

theorem run_none_of_reaches (path : Reaches limit m m') (h : ∀ fuel, run limit fuel m' = none)
    (fuel : Nat) : run limit fuel m = none := by
  cases ended : run limit fuel m with
  | none => rfl
  | some e =>
    obtain ⟨left, _, ended'⟩ := run_of_reaches path ended
    rw [h left] at ended'
    cases ended'

theorem run_of_step (next : step limit m = .inr m') (h : run limit fuel m = some e) :
    ∃ left < fuel, run limit left m' = some e := by
  cases fuel with
  | zero => cases h
  | succ fuel =>
    rw [run, next] at h
    exact ⟨fuel, Nat.lt_succ_self fuel, h⟩

theorem run_to_end (path : Reaches limit m m') (last : step limit m' = .inl e) :
    ∃ fuel, run limit fuel m = some e := by
  induction path using Relation.ReflTransGen.head_induction_on with
  | refl => exact ⟨1, by rw [run, last]⟩
  | head first _ ih =>
    obtain ⟨fuel, ended⟩ := ih
    exact ⟨fuel + 1, by rw [run, first]; exact ended⟩

/-- The last instruction of a run that ended. -/
theorem last_of_run (h : run limit fuel m = some e) :
    ∃ m', Reaches limit m m' ∧ step limit m' = .inl e := by
  induction fuel generalizing m with
  | zero => cases h
  | succ fuel ih =>
    rw [run] at h
    cases next : step limit m with
    | inl ending =>
      rw [next] at h
      cases h
      exact ⟨m, .refl, next⟩
    | inr m₁ =>
      rw [next] at h
      obtain ⟨m', path, last⟩ := ih h
      exact ⟨m', .head next path, last⟩

theorem run_succ (h : run limit fuel m = some e) : run limit (fuel + 1) m = some e := by
  induction fuel generalizing m with
  | zero => cases h
  | succ fuel ih =>
    rw [run] at h ⊢
    cases next : step limit m with
    | inl ending => rw [next] at h; exact h
    | inr m' => rw [next] at h; exact ih h

theorem outcome_eq_some_iff : outcome limit m = some e ↔ ∃ fuel, run limit fuel m = some e :=
  eventually_eq_some_iff fun _ _ => run_succ

theorem outcome_eq_none_iff : outcome limit m = none ↔ ∀ fuel, run limit fuel m = none :=
  eventually_eq_none_iff

/-! ### Callers that wait -/

/-- The machine with more callers below its own. -/
def under (m : Machine) (base : List Frame) : Machine := { m with callers := m.callers ++ base }

theorem enter_ok {m : Machine} (h : m.enter limit function args caller = .ok m') :
    m' = ⟨.enter function.code args, caller :: m.callers, m.world⟩ := by
  unfold enter at h
  split at h
  · cases h
  · split at h <;> cases h
    rfl

theorem enter_under (frame : Frame) (callers base : List Frame) (w : World) (caller : Frame) :
    enter ⟨frame, callers ++ base, w⟩ limit function args caller =
      (enter ⟨frame, callers, w⟩ (limit - base.length) function args caller).map (·.under base) := by
  unfold enter
  split
  · rfl
  · have same : limit ≤ (callers ++ base).length ↔ limit - base.length ≤ callers.length := by
      rw [List.length_append]
      omega
    simp only [same]
    split <;> rfl

/-- How a step of `m` shows when the callers `base` wait below: a value that would end the run is
handed to the latest of them. -/
inductive ShowsAbove (base : List Frame) (m : Machine) : Ending ⊕ Machine → Ending ⊕ Machine → Prop
  | goes (m' : Machine) : ShowsAbove base m (.inr m') (.inr (m'.under base))
  | fails (fault : Fault) (span span' : Option Span) (w : World) :
      ShowsAbove base m (.inl ⟨.error ⟨fault, span⟩, w⟩) (.inl ⟨.error ⟨fault, span'⟩, w⟩)
  | leaves (v : Value) (w : World) :
      ShowsAbove base m (.inl ⟨.ok v, w⟩) ({ m with callers := base, world := w }.leave v)

theorem step_under (limit : Nat) (m : Machine) (base : List Frame) :
    ShowsAbove base m (m.step (limit - base.length)) ((m.under base).step limit) := by
  unfold step
  have sameFrame : (m.under base).frame = m.frame := rfl
  have sameWorld : (m.under base).world = m.world := rfl
  rw [sameFrame, sameWorld]
  cases m.frame.code.instructions[m.frame.pc]? with
  | none => exact .fails _ _ _ _
  | some i =>
    dsimp only
    cases m.frame.exec i m.world with
    | error fault => exact .fails _ _ _ _
    | ok done =>
      obtain ⟨turn, world⟩ := done
      cases turn with
      | go frame => exact .goes { m with frame, world }
      | leave v =>
        obtain ⟨frame, callers, w⟩ := m
        cases callers with
        | nil => exact .leaves v world
        | cons caller callers => exact .goes _
      | call function args caller =>
        dsimp only
        rw [show (m.under base).callers = m.callers ++ base from rfl, enter_under]
        cases enter { m with world := world } (limit - base.length) function args caller with
        | error fault => exact .fails _ _ _ _
        | ok next => exact .goes next

theorem step_under_goes {m m' : Machine} {base : List Frame}
    (h : step (limit - base.length) m = .inr m') : step limit (m.under base) = .inr (m'.under base) := by
  have shown := step_under limit m base
  rw [h] at shown
  generalize step limit (m.under base) = result at shown ⊢
  cases shown
  rfl

theorem step_under_fails {m : Machine} {base : List Frame}
    (h : step (limit - base.length) m = .inl ⟨.error ⟨fault, span⟩, w⟩) :
    ∃ span', step limit (m.under base) = .inl ⟨.error ⟨fault, span'⟩, w⟩ := by
  have shown := step_under limit m base
  rw [h] at shown
  generalize step limit (m.under base) = result at shown ⊢
  cases shown
  exact ⟨_, rfl⟩

theorem step_under_leaves {m : Machine} {base : List Frame}
    (h : step (limit - base.length) m = .inl ⟨.ok v, w⟩) :
    step limit (m.under base) = { m with callers := base, world := w }.leave v := by
  have shown := step_under limit m base
  rw [h] at shown
  generalize step limit (m.under base) = result at shown ⊢
  cases shown
  rfl

theorem reaches_under {m m' : Machine} {base : List Frame}
    (path : Reaches (limit - base.length) m m') : Reaches limit (m.under base) (m'.under base) := by
  induction path with
  | refl => exact .refl
  | tail _ last ih => exact ih.tail (step_under_goes last)

/-- A run that never ends does not get back to who waits below. -/
theorem run_under_never {m : Machine} {base : List Frame}
    (h : outcome (limit - base.length) m = none) : run limit fuel (m.under base) = none := by
  rw [outcome_eq_none_iff] at h
  induction fuel generalizing m with
  | zero => rfl
  | succ fuel ih =>
    cases next : step (limit - base.length) m with
    | inl ending =>
      have ended := h 1
      rw [run, next] at ended
      cases ended
    | inr m' =>
      rw [run, step_under_goes next]
      refine ih fun left => ?_
      have later := h (left + 1)
      rwa [run, next] at later

theorem fails_under {m : Machine} {base : List Frame}
    (h : outcome (limit - base.length) m = some ⟨.error ⟨fault, span⟩, w⟩) :
    ∃ (m' : Machine) (span' : Option Span), Reaches limit (m.under base) (m'.under base) ∧
      step limit (m'.under base) = .inl ⟨.error ⟨fault, span'⟩, w⟩ := by
  obtain ⟨fuel, ended⟩ := outcome_eq_some_iff.mp h
  obtain ⟨m', path, last⟩ := last_of_run ended
  obtain ⟨span', shown⟩ := step_under_fails last
  exact ⟨m', span', reaches_under path, shown⟩

/-- A run that ends with a value hands it to the caller that waits below. -/
theorem returns_under {m : Machine} {caller : Frame} {callers : List Frame}
    (h : outcome (limit - (caller :: callers).length) m = some ⟨.ok v, w⟩) :
    Reaches limit (m.under (caller :: callers)) ⟨(caller.push v).next, callers, w⟩ := by
  obtain ⟨fuel, ended⟩ := outcome_eq_some_iff.mp h
  obtain ⟨m', path, last⟩ := last_of_run ended
  exact (reaches_under path).tail (step_under_leaves last)

end Machine

end Scratchpad
