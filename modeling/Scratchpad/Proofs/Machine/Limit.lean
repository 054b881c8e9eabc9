import Scratchpad.Proofs.Machine.Run

/-!
# The limit on calls

The limit is asked about in one place, where a function is entered. So a run that was not refused a
call there does the same under any larger limit (`run_more`), and no more functions are active than
the limit allows (`calls_le_limit`).
-/

namespace Scratchpad

/-- A call was refused because too many were active. -/
def Ending.Refused (e : Ending) : Prop := ∃ span, e.outcome = .error ⟨.tooManyCalls, span⟩

namespace Machine

variable {m m' : Machine} {limit limit' : Nat}

theorem enter_more (le : limit ≤ limit') (function : Function) (args : List Value) (caller : Frame) :
    m.enter limit function args caller = .error .tooManyCalls ∨
      m.enter limit' function args caller = m.enter limit function args caller := by
  unfold enter
  by_cases arity : args.length ≠ function.code.argCount
  · right
    rw [if_pos arity, if_pos arity]
  · rw [if_neg arity, if_neg arity]
    by_cases deep : limit ≤ m.callers.length
    · left
      rw [if_pos deep]
    · right
      by_cases deep' : limit' ≤ m.callers.length
      · omega
      · rw [if_neg deep, if_neg deep']

/-- A step under a larger limit is the same step, unless a call was refused. -/
theorem step_more (le : limit ≤ limit') (m : Machine) :
    (∃ e, m.step limit = .inl e ∧ e.Refused) ∨ m.step limit' = m.step limit := by
  unfold step
  cases m.frame.code.instructions[m.frame.pc]? with
  | none => exact .inr rfl
  | some i =>
    dsimp only
    cases m.frame.exec i m.world with
    | error fault => exact .inr rfl
    | ok done =>
      obtain ⟨turn, world⟩ := done
      cases turn with
      | go frame => exact .inr rfl
      | leave v => exact .inr rfl
      | call function args caller =>
        dsimp only
        have entered : _ ∨ _ := enter_more (m := { m with world }) le function args caller
        rcases entered with refused | same
        · left
          rw [refused]
          exact ⟨_, rfl, _, rfl⟩
        · right
          rw [same]

theorem run_more (le : limit ≤ limit') (ran : m.run limit fuel = some e) (through : ¬ e.Refused) :
    m.run limit' fuel = some e := by
  induction fuel generalizing m with
  | zero => cases ran
  | succ fuel ih =>
    rw [run] at ran ⊢
    rcases step_more le m with ⟨e', refused, cut⟩ | same
    · rw [refused] at ran
      cases ran
      exact absurd cut through
    · rw [same]
      cases next : m.step limit with
      | inl ending =>
        rw [next] at ran
        exact ran
      | inr m₁ =>
        rw [next] at ran
        exact ih ran

theorem calls_le_of_enter {function : Function} {args : List Value} {caller : Frame}
    (entered : m.enter limit function args caller = .ok m') : m'.callers.length ≤ limit := by
  unfold enter at entered
  split at entered
  · cases entered
  · split at entered
    · cases entered
    · cases entered
      simp only [List.length_cons]
      omega

/-- A return gives a call back, and only a call that the limit allows takes one more. -/
theorem calls_le_of_step (within : m.callers.length ≤ limit) (next : m.step limit = .inr m') :
    m'.callers.length ≤ limit := by
  unfold step at next
  split at next
  · cases next
  · split at next
    · cases next
    · cases next
      exact within
    · unfold leave at next
      split at next
      · cases next
      · rename_i callers waiting
        cases next
        have shorter : m.callers.length = callers.length + 1 := by rw [show m.callers = _ from waiting]; rfl
        change callers.length ≤ limit
        omega
    · split at next
      · cases next
      · rename_i entered
        cases next
        exact calls_le_of_enter entered

theorem calls_le_limit (within : m.callers.length ≤ limit) (path : Reaches limit m m') :
    m'.callers.length ≤ limit := by
  induction path with
  | refl => exact within
  | tail _ next ih => exact calls_le_of_step ih next

end Machine

/-- The limit on calls only cuts runs short: a run that was not refused a call ends in the same way
under every larger limit, with the same value or fault and in the same world; and at no point are
more functions active than the limit. -/
theorem limit_only_cuts (c : Code) (w : World) {limit limit' : Nat} (le : limit ≤ limit') :
    (∀ fuel e, c.run limit fuel w = some e → ¬ e.Refused → c.run limit' fuel w = some e) ∧
      ∀ m, Machine.Reaches limit { frame := .enter c [], world := w } m → m.callers.length ≤ limit := by
  constructor
  · intro fuel e ran through
    exact Machine.run_more le ran through
  · intro m path
    have start : ([] : List Frame).length ≤ limit := Nat.zero_le limit
    exact Machine.calls_le_limit start path

/-- Code that defines `f` by `def f(n): return n and f(n - 1)` and calls it with `depth`. -/
def countingDown (depth : Int64) : Code where
  name := "<module>"
  mode := .eval
  instructions := #[.makeFunction 0, .storeName 0, .loadName 0, .loadConst 1, .call 1, .returnValue]
  names := #["f"]
  constants := #[.code
    { name := "f"
      mode := .exec
      instructions := #[.loadFast 0, .jumpIfFalseOrPop 7, .loadName 0, .loadFast 0, .loadConst 0,
        .binary .sub, .call 1, .returnValue]
      constants := #[.literal (.int 1)]
      names := #["f"]
      locals := #["n"]
      argCount := 1 },
    .literal (.int depth)]

/-- Three calls deep, the run ends alike under the limits 3 and 200, and is refused a call under 2. -/
theorem limit_only_cuts_countingDown :
    (∃ w, (countingDown 2).run 3 40 {} = some ⟨.ok (.int 0), w⟩ ∧
      (countingDown 2).run 200 40 {} = some ⟨.ok (.int 0), w⟩) ∧
    ∃ e, (countingDown 2).run 2 40 {} = some e ∧ e.Refused := by
  obtain ⟨w, ran⟩ : ∃ w, (countingDown 2).run 3 40 {} = some ⟨.ok (.int 0), w⟩ := ⟨_, by cbv⟩
  obtain ⟨w', cut⟩ : ∃ w, (countingDown 2).run 2 40 {} = some ⟨.error ⟨.tooManyCalls, none⟩, w⟩ :=
    ⟨_, by cbv⟩
  refine ⟨⟨w, ran, ?_⟩, _, cut, none, rfl⟩
  apply (limit_only_cuts (countingDown 2) {} (by decide : 3 ≤ 200)).1 40 _ ran
  rintro ⟨span, failed⟩
  cases failed

end Scratchpad
