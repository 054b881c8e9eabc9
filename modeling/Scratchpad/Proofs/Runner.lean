import Scratchpad.Proofs.Code.Tables
import Scratchpad.Proofs.Machine.Run
import Scratchpad.Runner

/-! What a run of a new runner comes to, from its tree and its code. -/

namespace Scratchpad.Runner

variable {r : Runner} {t : Tree} {c : Code} {w : World}

/-- Nothing was parsed or compiled yet. -/
def IsNew (r : Runner) : Prop := r.tree = none ∧ r.code = none

theorem ensureCode_new (new : r.IsNew)
    (parsed : Tree.ofSource r.mode r.flags (.ofList (Text.dedent r.source.toList)) = .ok t)
    (compiled : Code.ofTree (r.surfaced t) r.mode = .ok c) :
    r.ensureCode = .ok (c, { r with tree := some t, code := some c }) := by
  have tree : r.ensureTree = .ok (t, { r with tree := some t }) := by
    simp only [ensureTree, new.1, parsed]
    rfl
  simp only [ensureCode, new.2, tree]
  change (Code.ofTree (r.surfaced t) r.mode >>= _) = _
  rw [compiled]
  rfl

/-- A new runner that compiles has a tree and a code. -/
theorem code_of_compile (new : r.IsNew) (h : r.compile = .ok r') :
    ∃ t c, Tree.ofSource r.mode r.flags (.ofList (Text.dedent r.source.toList)) = .ok t ∧
      Code.ofTree (r.surfaced t) r.mode = .ok c := by
  obtain ⟨⟨t, r₁⟩, tree, h⟩ := except_bind_ok h
  obtain ⟨c, compiled, -⟩ := except_bind_ok h
  simp only [ensureTree, new.1] at tree
  obtain ⟨t', parsed, same⟩ := except_bind_ok tree
  cases same
  exact ⟨t, c, parsed, compiled⟩

theorem run_of_code (ensured : r.ensureCode = .ok (c, r'))
    (ran : c.run r'.config.maxRecursionDepth fuel (withoutResult w) = some ⟨.ok v, w'⟩) :
    r.run fuel w = some ⟨.ok (surfacedValue c v w'), r', withoutResult w'⟩ := by
  simp only [run, ensured, ran]
  rfl

/-- What a run of the code says of itself. -/
def surfacedOutcome (c : Code) (e : Ending) : Except RunError (Option Value) :=
  (e.outcome.map fun v => surfacedValue c v e.world).mapError .failed

/-- A run comes to the outcome and leaves the world `w'`. -/
def Ends (r : Runner) (w : World) (outcome : Except RunError (Option Value)) (w' : World) : Prop :=
  ∃ fuel r', r.run fuel w = some ⟨outcome, r', w'⟩

theorem ends_iff (ensured : r.ensureCode = .ok (c, r')) :
    r.Ends w outcome w' ↔ ∃ e,
      Machine.outcome r'.config.maxRecursionDepth ⟨.enter c [], [], withoutResult w⟩ = some e ∧
        surfacedOutcome c e = outcome ∧ withoutResult e.world = w' := by
  have ran (fuel : Nat) : r.run fuel w =
      (c.run r'.config.maxRecursionDepth fuel (withoutResult w)).map fun e =>
        ⟨surfacedOutcome c e, r', withoutResult e.world⟩ := by
    simp only [run, ensured]
    cases c.run r'.config.maxRecursionDepth fuel (withoutResult w) with
    | none => rfl
    | some e =>
      obtain ⟨result, w₁⟩ := e
      cases result <;> rfl
  simp only [Ends, ran, Machine.outcome_eq_some_iff]
  constructor
  · rintro ⟨fuel, _, ended⟩
    obtain ⟨e, done, same⟩ := Option.map_eq_some_iff.mp ended
    cases same
    exact ⟨e, ⟨fuel, done⟩, rfl, rfl⟩
  · rintro ⟨e, ⟨fuel, done⟩, rfl, rfl⟩
    exact ⟨fuel, r', by rw [show c.run _ fuel _ = some e from done]; rfl⟩

end Scratchpad.Runner
