import Scratchpad.Proofs.Code.Surfaced
import Scratchpad.Proofs.Runner.Modes
import Scratchpad.Proofs.Token.Names

/-!
# Surfacing a value changes nothing else

Whatever the return mode, a run prints the same, fails with the same fault and leaves the same world;
what it surfaces is the value of the last expression, or that of the names last assigned, or nothing
(`surfacing_is_transparent`). That holds where no function at hand stores under the name of the result.
No source can make one that does, but code that was made by hand can (`strayResult_surfaces`).
-/

namespace Scratchpad

open Lower

theorem Tree.Forest.ordered {t : Tree} (h : t.Forest) : t.Ordered where
  earlier := h.earlier
  resolves _ mem := h.resolves _ (List.mem_append_right _ mem)
  apart body _ mem := h.apart_of_before body mem

/-- No source has a name like that of the result. -/
theorem Tree.unnamed_of_ofSource {t : Tree} (h : Tree.ofSource mode flags source = .ok t) :
    t.Names (· ≠ Surface.resultName) := by
  obtain ⟨tokens, read⟩ := tokens_of_ofSource h
  rw [ofSource_eq read, ofTokens_within] at h
  obtain ⟨-, s', rooted⟩ := rooted_of_within h
  rintro id kind found _ mem rfl
  have listed := names_of_rooted rooted rfl id kind found _ mem
  have spelled := Token.chars_of_name read listed '<' (by decide)
  exact absurd spelled (by decide)

theorem Tree.ordered_of_ofSource {t : Tree} (h : Tree.ofSource .exec flags source = .ok t) :
    t.Ordered := by
  obtain ⟨tokens, read⟩ := tokens_of_ofSource h
  rw [ofSource_eq read, ofTokens_within] at h
  obtain ⟨-, s', rooted⟩ := rooted_of_within h
  exact (forest_of_rooted rooted rfl).ordered

namespace Runner

variable {r r' : Runner} {k : Code} {w w' : World}

theorem ends_failed_iff (ensured : r.ensureCode = .ok (k, r')) :
    (∃ span, r.Ends w (.error (.failed ⟨fault, span⟩)) w') ↔
      ∃ w₁, Machine.answer r'.config.maxRecursionDepth ⟨.enter k [], [], withoutResult w⟩ =
        some (.error fault, w₁) ∧ withoutResult w₁ = w' := by
  simp only [ends_iff ensured, Machine.answer, Option.map_eq_some_iff]
  constructor
  · rintro ⟨span, ⟨outcome, w₁⟩, ran, same, rfl⟩
    cases outcome with
    | ok v => cases same
    | error f =>
      cases same
      exact ⟨w₁, ⟨_, ran, rfl⟩, rfl⟩
  · rintro ⟨w₁, ⟨⟨outcome, w₂⟩, ran, same⟩, rfl⟩
    cases outcome with
    | ok v => cases same
    | error f =>
      cases same
      exact ⟨f.span, _, ran, rfl, rfl⟩

theorem ends_ok_iff (ensured : r.ensureCode = .ok (k, r')) (mode : k.mode = .exec) :
    r.Ends w (.ok v) w' ↔
      ∃ u w₁, Machine.answer r'.config.maxRecursionDepth ⟨.enter k [], [], withoutResult w⟩ =
        some (.ok u, w₁) ∧ w₁.globals.get? Surface.resultName = v ∧ withoutResult w₁ = w' := by
  simp only [ends_iff ensured, Machine.answer, Option.map_eq_some_iff]
  constructor
  · rintro ⟨⟨outcome, w₁⟩, ran, same, rfl⟩
    cases outcome with
    | error f => cases same
    | ok u =>
      simp only [surfacedOutcome, surfacedValue, mode, Except.map, Except.mapError, Except.ok.injEq] at same
      exact ⟨u, w₁, ⟨_, ran, rfl⟩, same, rfl⟩
  · rintro ⟨u, w₁, ⟨⟨outcome, w₂⟩, ran, same⟩, rfl, rfl⟩
    cases outcome with
    | error f => cases same
    | ok u' =>
      cases same
      refine ⟨_, ran, ?_, rfl⟩
      simp [surfacedOutcome, surfacedValue, mode, Except.map, Except.mapError]

/-- A runner for statements that no semicolon keeps quiet. -/
def loud (source : String) (flags : Flags) (limit : Nat) (mode : ReturnMode) : Runner where
  source := source
  flags := flags
  config := { maxRecursionDepth := limit, returnMode := mode, quietTrailingSemicolon := false }

/-- What is surfaced of a program that was started in `w` and ended in `w'`: nothing, the value of the
last expression, which is evaluated after all else, or the value that each of the names has at last. -/
def Surfaced (t : Tree) (limit : Nat) (w w' : World) : Surface.Origin → Option Value → Prop
  | .nothing, given => given = none
  | .value e, given => ∃ v s s', given = some v ∧
      Meaning.statements t limit t.body.dropLast ⟨#v[], w⟩ = some (.ok (), s) ∧
      Meaning.value (.top t) limit t.size e s = some (.ok v, s') ∧ s'.world = w'
  | .bound names, given => names ≠ [] ∧ ∃ v, given = some v ∧
      ∀ name ∈ names, w'.globals.get? name = some v

section

variable {source : String} {flags : Flags} {limit : Nat} {mode : ReturnMode} {t : Tree}

/-- A program leaves the name of the result unbound, if no function at hand stores under it. -/
theorem unbound_of_statements (unnamed : t.Names (· ≠ Surface.resultName))
    (compiled : Code.ofTree t .exec = .ok k) (spared : w.Knows (CodeOf.Spares Surface.resultName))
    (ended : Meaning.statements t limit t.body ⟨#v[], withoutResult w⟩ = some (x, s)) :
    s.world.globals.get? Surface.resultName = none := by
  have answer := Surface.answer_statements (codeFor_of_ofTree compiled) limit (withoutResult w)
  rw [ended] at answer
  obtain ⟨e, outcome, given⟩ := Option.map_eq_some_iff.mp answer
  obtain ⟨fuel, ran⟩ := Machine.outcome_eq_some_iff.mp outcome
  have spares : Machine.Spares Surface.resultName ⟨.enter k [], [], withoutResult w⟩ :=
    ⟨⟨spares_of_ofTree unnamed compiled, by simp, spared⟩, Globals.get?_erase_self⟩
  have world : e.world = s.world := congrArg Prod.snd given
  rw [← world]
  exact Machine.unbound_of_run spares ran

/-- The code that a runner for statements runs. -/
theorem code_of_loud (compiles : ∃ r, (loud source flags limit mode).compile = .ok r) :
    ∃ t k r, Tree.ofSource .exec flags (.ofList (Text.dedent source.toList)) = .ok t ∧
      Code.ofTree ((Surface.capture? mode t).getD t) .exec = .ok k ∧
      (loud source flags limit mode).ensureCode = .ok (k, r) ∧ r.config.maxRecursionDepth = limit ∧
      k.mode = .exec := by
  obtain ⟨r, compiled⟩ := compiles
  obtain ⟨t, k, parsed, made⟩ := code_of_compile ⟨rfl, rfl⟩ compiled
  have ensured := ensureCode_new ⟨rfl, rfl⟩ parsed made
  rw [surfaced_loud rfl rfl] at made
  exact ⟨t, k, _, parsed, made, ensured, rfl, (codeFor_of_ofTree made).mode⟩

theorem withoutResult_leaving (s : Scene 0) (v : Option Value) :
    withoutResult (s.leaving v).world = withoutResult s.world := by
  cases v with
  | none => rfl
  | some v => simp [Scene.leaving, withoutResult, Globals.erase_insert]

theorem get?_leaving {s : Scene 0} (unbound : s.world.globals.get? Surface.resultName = none)
    (v : Option Value) : (s.leaving v).world.globals.get? Surface.resultName = v := by
  cases v with
  | none => exact unbound
  | some v => exact Globals.get?_insert_self

theorem withoutResult_unbound (unbound : w.globals.get? Surface.resultName = none) :
    withoutResult w = w := by
  unfold withoutResult
  rw [Globals.erase_of_unbound unbound]

theorem surfaced_of_gives {s : Scene 0} {source : Surface.Origin} {v : Option Value}
    (h : Meaning.Gives t limit ⟨#v[], w⟩ s source v) : Surfaced t limit w s.world source v := by
  cases source with
  | nothing => exact h
  | value e =>
    obtain ⟨v, s₁, same, first, second⟩ := h
    exact ⟨v, s₁, s, same, first, second, rfl⟩
  | bound names => exact h

end

/-- Surfacing is transparent. If a source compiles for all three return modes, and no function in the
world stores under the name of the result, a run in one of the modes fails with a fault just if the run
that surfaces nothing does, ends well just if that does, and leaves the same world with the same text
printed; and what it surfaces is `Surfaced`. -/
theorem surfacing_is_transparent {source : String} {flags : Flags} {limit : Nat} {w : World}
    (compiles : ∀ mode, ∃ r, (loud source flags limit mode).compile = .ok r)
    (spared : ∀ f ∈ w.store.functions, f.code.Spares Surface.resultName) :
    ∃ t, Tree.ofSource .exec flags (.ofList (Text.dedent source.toList)) = .ok t ∧ ∀ mode w',
      (∀ fault, (∃ span, (loud source flags limit mode).Ends w (.error (.failed ⟨fault, span⟩)) w') ↔
        ∃ span, (loud source flags limit .none).Ends w (.error (.failed ⟨fault, span⟩)) w') ∧
      ((∃ v, (loud source flags limit mode).Ends w (.ok v) w') ↔
        (loud source flags limit .none).Ends w (.ok none) w') ∧
      ∀ v, (loud source flags limit mode).Ends w (.ok v) w' →
        Surfaced t limit (withoutResult w) w' (Surface.origin mode t) v := by
  obtain ⟨t, k₀, r₀, parsed, made₀, ensured₀, limit₀, exec₀⟩ := code_of_loud (compiles .none)
  refine ⟨t, parsed, fun mode w' => ?_⟩
  obtain ⟨t', k, r, parsed', made, ensured, limit', exec⟩ := code_of_loud (compiles mode)
  cases parsed.symm.trans parsed'
  have ordered := Tree.ordered_of_ofSource parsed
  have answer := Surface.answer_surfaced ordered made limit (withoutResult w)
  have answer₀ := Surface.answer_surfaced ordered made₀ limit (withoutResult w)
  rw [Surface.capture?_none] at made₀
  have surfaces := Surface.surfaces_origin ordered (body_shaped made₀) mode limit ⟨#v[], withoutResult w⟩
  have unbound {x s} (ended : Meaning.statements t limit t.body ⟨#v[], withoutResult w⟩ = some (x, s)) :=
    unbound_of_statements (Tree.unnamed_of_ofSource parsed) made₀ spared ended
  simp only [ends_failed_iff ensured, ends_failed_iff ensured₀, ends_ok_iff ensured exec,
    ends_ok_iff ensured₀ exec₀, limit', limit₀, answer, answer₀]
  rw [show Meaning.surfacing t limit (Surface.origin .none t) = Meaning.statements t limit t.body from rfl]
  generalize Meaning.statements t limit t.body ⟨#v[], withoutResult w⟩ = first at surfaces unbound ⊢
  generalize Meaning.surfacing t limit (Surface.origin mode t) ⟨#v[], withoutResult w⟩ = second at surfaces ⊢
  cases surfaces with
  | never => simp
  | fails fault s => simp [Except.map]
  | @gives s v holds =>
    have none := unbound rfl
    simp only [Option.map_some, Except.map, Option.some.injEq, Prod.mk.injEq, reduceCtorEq, false_and,
      exists_false, Except.ok.injEq]
    refine ⟨fun _ => trivial, ?_, ?_⟩
    · constructor
      · rintro ⟨_, _, _, ⟨rfl, rfl⟩, -, rfl⟩
        exact ⟨_, _, ⟨rfl, rfl⟩, none, (withoutResult_leaving s v).symm⟩
      · rintro ⟨_, _, ⟨rfl, rfl⟩, -, rfl⟩
        exact ⟨_, _, _, ⟨rfl, rfl⟩, rfl, withoutResult_leaving s v⟩
    · rintro _ ⟨_, _, ⟨rfl, rfl⟩, rfl, rfl⟩
      rw [get?_leaving none, withoutResult_leaving, withoutResult_unbound none]
      exact surfaced_of_gives holds

/-- A chain of assignments whose last one counts on. -/
def counting : String := "x = y = 1\nx += y + 1"

theorem surfacing_is_transparent_counting :
    ∃ w', (loud counting {} 10 .lastExprOrAssign).Ends {} (.ok (some (.int 3))) w' ∧
      (loud counting {} 10 .none).Ends {} (.ok none) w' := by
  have compiles : ∀ mode, ∃ r, (loud counting {} 10 mode).compile = .ok r := by
    intro mode
    have ok : (loud counting {} 10 mode).compile.isOk = true := by cases mode <;> decide +kernel
    cases made : (loud counting {} 10 mode).compile with
    | ok r => exact ⟨r, rfl⟩
    | error e =>
      rw [made] at ok
      cases ok
  have ran : ((loud counting {} 10 .lastExprOrAssign).run 30 {}).map (·.outcome.toOption) =
      some (some (some (.int 3))) := by decide +kernel
  obtain ⟨⟨outcome, r, w'⟩, ran, given⟩ := Option.map_eq_some_iff.mp ran
  cases outcome with
  | error e => cases given
  | ok v =>
    cases given
    obtain ⟨t, -, same⟩ := surfacing_is_transparent compiles (w := {}) (by simp)
    exact ⟨w', ⟨30, r, ran⟩, (same .lastExprOrAssign w').2.1.mp ⟨_, 30, r, ran⟩⟩

/-- A function that was not made from a source: it stores under the name of the result. -/
def strayWorld : World where
  globals := ⟨[("f", .function 0)]⟩
  store.functions := #[⟨"f", { name := "f", mode := .exec, constants := #[.literal (.int 5)]
                               instructions := #[.loadConst 0, .storeName 0, .loadConst 0, .returnValue]
                               names := #[Surface.resultName] }⟩]

/-- With such a function a value is surfaced where there is none. -/
theorem strayResult_surfaces :
    ∃ w', (loud "f()\npass" {} 10 .none).Ends strayWorld (.ok (some (.int 5))) w' := by
  have ran : ((loud "f()\npass" {} 10 .none).run 30 strayWorld).map (·.outcome.toOption) =
      some (some (some (.int 5))) := by decide +kernel
  obtain ⟨⟨outcome, r, w'⟩, ran, given⟩ := Option.map_eq_some_iff.mp ran
  cases outcome with
  | error e => cases given
  | ok v =>
    cases given
    exact ⟨w', 30, r, ran⟩

end Runner

end Scratchpad
