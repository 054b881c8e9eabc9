import Scratchpad.Proofs.Machine.Spares
import Scratchpad.Proofs.Runner

/-!
# What is left under the name of the result

The entry for the result is taken away before code runs and after it. A runner that has no code to
run, because its source is not valid, leaves the world as it was, and an entry that was there with
it (`result_kept_by_syntaxError`). So of a sequence of runs only one in which no code ran at all
leaves an entry, and no run sees one from before (`results_do_not_leak`).
-/

namespace Scratchpad.Runner

/-- What a run says of itself: a value, none, or why there is none. -/
abbrev Outcome := Except RunError (Option Value)

variable {r : Runner} {w w' : World} {result : RunResult}

theorem withoutResult_idem (w : World) : withoutResult (withoutResult w) = withoutResult w := by
  simp [withoutResult, Globals.erase]

theorem unbound_withoutResult (w : World) :
    (withoutResult w).globals.get? Surface.resultName = none :=
  Globals.get?_erase_self

/-- To take the entry away first makes no other difference. -/
theorem run_withoutResult (r : Runner) (fuel : Nat) (w : World) :
    r.run fuel (withoutResult w) =
      (r.run fuel w).map fun x => { x with world := withoutResult x.world } := by
  unfold run
  cases r.ensureCode with
  | error e => rfl
  | ok made =>
    obtain ⟨c, r'⟩ := made
    dsimp only
    rw [withoutResult_idem]
    cases c.run r'.config.maxRecursionDepth fuel (withoutResult w) with
    | none => rfl
    | some ending =>
      change some _ = some _
      simp only [withoutResult_idem]

/-- The source was refused: there was no code to run. -/
def Outcome.isInvalid : Outcome → Bool
  | .error (.invalid _) => true
  | _ => false

/-- One run leaves no entry, or did nothing. -/
theorem residue_of_run (ran : r.run fuel w = some result) :
    result.world.globals.get? Surface.resultName = none ∨
      Outcome.isInvalid result.outcome = true ∧ result.world = w := by
  unfold run at ran
  cases made : r.ensureCode with
  | error e =>
    rw [made] at ran
    cases ran
    exact .inr ⟨rfl, rfl⟩
  | ok made' =>
    obtain ⟨c, r'⟩ := made'
    rw [made] at ran
    obtain ⟨ending, -, rest⟩ := Option.bind_eq_some_iff.mp ran
    cases rest
    exact .inl (unbound_withoutResult ending.world)

/-- Runs one runner after the other in the same world, each with its fuel. -/
def runAll : List (Runner × Nat) → World → Option (List Outcome × World)
  | [], w => some ([], w)
  | (r, fuel) :: others, w =>
    (r.run fuel w).bind fun result =>
      (runAll others result.world).map fun (outcomes, w) => (result.outcome :: outcomes, w)

theorem runAll_withoutResult (runs : List (Runner × Nat)) (w : World) :
    runAll runs (withoutResult w) =
      (runAll runs w).map fun (outcomes, w) => (outcomes, withoutResult w) := by
  induction runs generalizing w with
  | nil => rfl
  | cons first others ih =>
    obtain ⟨r, fuel⟩ := first
    rw [runAll, runAll, run_withoutResult]
    cases r.run fuel w with
    | none => rfl
    | some result =>
      simp only [Option.map_some, Option.bind_some, ih result.world]
      cases runAll others result.world <;> rfl

theorem residue_of_runAll {runs : List (Runner × Nat)} {outcomes : List Outcome}
    (ran : runAll runs w = some (outcomes, w')) :
    w'.globals.get? Surface.resultName = none ∨
      (∀ x ∈ outcomes, Outcome.isInvalid x = true) ∧ w' = w := by
  induction runs generalizing w outcomes with
  | nil =>
    cases ran
    exact .inr ⟨fun _ mem => (List.not_mem_nil mem).elim, rfl⟩
  | cons first others ih =>
    obtain ⟨r, fuel⟩ := first
    obtain ⟨result, one, ran⟩ := Option.bind_eq_some_iff.mp ran
    obtain ⟨⟨rest, w₁⟩, more, same⟩ := Option.map_eq_some_iff.mp ran
    cases same
    rcases ih more with gone | ⟨invalid, rfl⟩
    · exact .inl gone
    · rcases residue_of_run one with gone | ⟨refused, unchanged⟩
      · exact .inl gone
      · exact .inr ⟨List.forall_mem_cons.mpr ⟨refused, invalid⟩, unchanged⟩

/-- Whatever runs one after the other in a world, with any source, mode, return mode and code: what
each run comes to does not depend on a result that was there before, and no result is there at the
end, unless every single source was refused, which leaves the world as it was. -/
theorem results_do_not_leak (runs : List (Runner × Nat)) (w : World) :
    runAll runs (withoutResult w) =
      (runAll runs w).map (fun (outcomes, w) => (outcomes, withoutResult w)) ∧
    ∀ outcomes w', runAll runs w = some (outcomes, w') →
      w'.globals.get? Surface.resultName = none ∨
        (∀ x ∈ outcomes, Outcome.isInvalid x = true) ∧ w' = w :=
  ⟨runAll_withoutResult runs w, fun _ _ => residue_of_runAll⟩

/-- A world in which a result was left behind. -/
def staleWorld : World := { globals := ⟨[(Surface.resultName, .int 99)]⟩ }

/-- A source that is refused, and one that runs. -/
def refusedThenRun : List (Runner × Nat) := [({ source := "(" }, 0), ({ source := "x = 1" }, 20)]

theorem results_do_not_leak_refusedThenRun :
    ∃ outcomes w', runAll refusedThenRun staleWorld = some (outcomes, w') ∧
      outcomes.map Outcome.isInvalid = [true, false] ∧ w'.globals.get? Surface.resultName = none := by
  have shape : (runAll refusedThenRun staleWorld).map (fun ran => ran.1.map Outcome.isInvalid) =
      some [true, false] := by decide +kernel
  obtain ⟨⟨outcomes, w'⟩, ran, kinds⟩ := Option.map_eq_some_iff.mp shape
  refine ⟨outcomes, w', ran, kinds, ?_⟩
  rcases (results_do_not_leak refusedThenRun staleWorld).2 _ _ ran with gone | ⟨invalid, -⟩
  · exact gone
  · have last : false ∈ outcomes.map Outcome.isInvalid := by simp [kinds]
    obtain ⟨x, listed, valid⟩ := List.mem_map.mp last
    simp [invalid x listed] at valid

/-- A source that is not valid leaves the entry where it was. -/
theorem result_kept_by_syntaxError : ∃ result, run { source := "(" } 0 staleWorld = some result ∧
    result.world.globals.get? Surface.resultName = some (.int 99) := by
  refine ⟨⟨.error (.invalid (.lexical ⟨.unclosedBracket, ⟨1, 1, 0, 1⟩⟩)), { source := "(" }, staleWorld⟩,
    ?_, ?_⟩
  · cbv
  · rfl

end Scratchpad.Runner
