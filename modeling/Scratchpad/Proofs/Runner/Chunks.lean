import Scratchpad.Proofs.Code.Joined
import Scratchpad.Proofs.Meaning.Elsewhere
import Scratchpad.Proofs.Runner.Surfacing
import Scratchpad.Proofs.Tree.Beside.Module

/-!
# Chunk by chunk

Two chunks evaluated one after the other come to what they come to as one: the same text is printed,
the same value surfaced or the same fault raised, and the same names and objects are left. Only places
in the source differ (`chunks_agree`). That holds where no function at hand stores under the name of the
result; with one that was made by hand, the value of a chunk can be taken for that of the next
(`strayResult_outlives`).
-/

namespace Scratchpad

open Lower

/-- The statements of a tree of both do what those of the first do and then those of the second. -/
theorem Meaning.statements_joined {t₁ t₂ t : Tree} (joins : t₁.Joins t₂ t)
    (first : Code.ofTree t₁ .exec = .ok k₁) (second : Code.ofTree t₂ .exec = .ok k₂)
    (whole : Code.ofTree t .exec = .ok k) (calls : Nat) (s : Scene 0) :
    movedTo Tree.noPlace (statements t calls t.body s) =
      movedTo Tree.noPlace ((do statements t₁ calls t₁.body; statements t₂ calls t₂.body : Meaning 0 Unit) s) := by
  have first := codeFor_of_ofTree first
  have second := codeFor_of_ofTree second
  have whole := codeFor_of_ofTree whole
  have finite {t : Tree} {k : Code} (made : CodeFor t t.body k) (x : NodeId) (mem : x ∈ t.body) : t.Finite x :=
    (made.shaped x mem).finite
  -- places aside, what both trees have stands in a third
  have there := reflects_statements whole t.embeds_erased (finite whole) rfl calls
  have here := (reflects_statements first joins.embeds_first (finite first) rfl calls).bind
    fun _ => reflects_statements second joins.embeds_second (finite second) rfl calls
  have shaped := (first.copied joins.embeds_first (finite first) rfl).shaped
  rw [List.map_id] at there here shaped
  have apart := statements_append shaped calls (t₂.body.map (t₁.size + ·))
  rw [← joins.body] at apart
  exact (there s).symm.trans (apart ▸ here s)

namespace Token

theorem Joins.significant (h : Joins ts₁ ts₂ ts) : significant ts = significant ts₁ ++ significant ts₂ := by
  have dedents (n : Nat) : Token.significant (List.replicate n .dedent) = [] :=
    significant_layout fun t mem => by rw [(List.mem_replicate.mp mem).2]; rfl
  rcases h with rfl | ⟨lines, n, -, rfl, rfl⟩
  · exact significant_append ts₁ ts₂
  · have newline : Token.significant (.newline :: List.replicate n .dedent) = [] := dedents n
    rw [significant_append, significant_append, significant_append, dedents, newline]

end Token

/-! ### What evaluating comes to -/

/-- Evaluating a chunk comes to the outcome and leaves the world `w'`. -/
def Evaluates (source : String) (config : Config) (w : World) (outcome : Except RunError (Option Value))
    (w' : World) : Prop :=
  ∃ fuel r, evaluate source config fuel w = some ⟨outcome, r, w'⟩

/-- One chunk after another in the same world, the second only if the first did not fail. -/
inductive InTurn (source₁ source₂ : String) (config : Config) (w : World) :
    Except RunError (Option Value) → World → Prop
  | fails (first : Evaluates source₁ config w (.error e) w') : InTurn source₁ source₂ config w (.error e) w'
  | goesOn (first : Evaluates source₁ config w (.ok v) w₁) (second : Evaluates source₂ config w₁ outcome w') :
      InTurn source₁ source₂ config w outcome w'

/-- The same error, at no place. -/
def RunError.unplaced : RunError → RunError
  | .invalid e => .invalid e
  | .failed f => .failed { f with span := none }

/-- It ends with the outcome and the world but for places. -/
def PlacesAside (ends : Except RunError (Option Value) → World → Prop)
    (o : Except RunError (Option Value)) (u : World) : Prop :=
  ∃ outcome w', ends outcome w' ∧ outcome.mapError RunError.unplaced = o ∧ w'.mapSpans Tree.noPlace = u

theorem placesAside_inTurn_iff :
    PlacesAside (InTurn source₁ source₂ config w) o u ↔
      (∃ e w', Evaluates source₁ config w (.error e) w' ∧ .error e.unplaced = o ∧
        w'.mapSpans Tree.noPlace = u) ∨
      ∃ v w₁, Evaluates source₁ config w (.ok v) w₁ ∧ PlacesAside (Evaluates source₂ config w₁) o u := by
  constructor
  · rintro ⟨_, w', ended, same, rfl⟩
    cases ended with
    | fails first => exact .inl ⟨_, w', first, same, rfl⟩
    | goesOn first second => exact .inr ⟨_, _, first, _, w', second, same, rfl⟩
  · rintro (⟨e, w', first, same, rfl⟩ | ⟨v, w₁, first, outcome, w', second, same, rfl⟩)
    · exact ⟨_, w', .fails first, same, rfl⟩
    · exact ⟨outcome, w', .goesOn first second, same, rfl⟩

theorem Evaluates.unique {outcome outcome' : Except RunError (Option Value)} {w w₁ w₂ : World}
    (h : Evaluates source config w outcome w₁) (h' : Evaluates source config w outcome' w₂) :
    outcome = outcome' ∧ w₁ = w₂ := by
  cases ensured : Runner.ensureCode { source, config } with
  | error e =>
    obtain ⟨fuel, r, ran⟩ := h
    obtain ⟨fuel', r', ran'⟩ := h'
    simp only [evaluate, Runner.run, ensured, Option.some.injEq, RunResult.mk.injEq] at ran ran'
    exact ⟨ran.1.symm.trans ran'.1, ran.2.2.symm.trans ran'.2.2⟩
  | ok made =>
    obtain ⟨e, ran, rfl, rfl⟩ := (Runner.ends_iff ensured).mp h
    obtain ⟨e', ran', rfl, rfl⟩ := (Runner.ends_iff ensured).mp h'
    cases ran.symm.trans ran'
    exact ⟨rfl, rfl⟩

namespace Runner

variable {r r' : Runner} {t : Tree} {k : Code} {source : String} {config : Config}

/-- What is told of statements that came to `x`, if they surfaced `v`. -/
def told (x : Except Fault α) (v : Option Value) : Except RunError (Option Value) :=
  (x.map fun _ => v).mapError fun f => .failed ⟨f, none⟩

abbrev resultOf (w : World) : Option Value := w.globals.get? Surface.resultName

theorem unplaced_ends_iff (ensured : r.ensureCode = .ok (k, r')) (mode : k.mode = .exec) (w w' : World)
    (o : Except RunError (Option Value)) :
    (∃ outcome, r.Ends w outcome w' ∧ outcome.mapError RunError.unplaced = o) ↔
      ∃ x w₁, Machine.answer r'.config.maxRecursionDepth ⟨.enter k [], [], withoutResult w⟩ = some (x, w₁) ∧
        told x (resultOf w₁) = o ∧ withoutResult w₁ = w' := by
  have same (e : Ending) : (surfacedOutcome k e).mapError RunError.unplaced =
      told (e.outcome.mapError (·.fault)) (resultOf e.world) := by
    obtain ⟨outcome, w⟩ := e
    cases outcome <;>
      simp [surfacedOutcome, surfacedValue, mode, told, Except.map, Except.mapError, RunError.unplaced]
  simp only [ends_iff ensured, Machine.answer, Option.map_eq_some_iff]
  constructor
  · rintro ⟨o, ⟨e, ran, rfl, rfl⟩, rfl⟩
    exact ⟨_, _, ⟨e, ran, rfl⟩, (same e).symm, rfl⟩
  · rintro ⟨_, _, ⟨e, ran, given⟩, rfl, rfl⟩
    cases given
    exact ⟨_, ⟨e, ran, rfl, rfl⟩, same e⟩

/-- What a run comes to, places aside, is a matter of what its statements mean, places aside. -/
theorem placesAside_ends_iff (ensured : r.ensureCode = .ok (k, r')) (made : Code.ofTree t .exec = .ok k)
    (w u : World) (o : Except RunError (Option Value)) :
    PlacesAside (r.Ends w) o u ↔ ∃ x s,
      Meaning.movedTo Tree.noPlace
          (Meaning.statements t r'.config.maxRecursionDepth t.body ⟨#v[], withoutResult w⟩) = some (x, s) ∧
        told x (resultOf s.world) = o ∧ withoutResult s.world = u := by
  have ends (w' : World) := unplaced_ends_iff ensured (codeFor_of_ofTree made).mode w w' o
  simp only [Surface.answer_statements (codeFor_of_ofTree made), Option.map_eq_some_iff] at ends
  simp only [Meaning.movedTo, Option.map_eq_some_iff]
  constructor
  · rintro ⟨outcome, w', ended, same, rfl⟩
    obtain ⟨_, _, ⟨⟨x, s⟩, ran, given⟩, rfl, rfl⟩ := (ends w').mp ⟨outcome, ended, same⟩
    cases given
    exact ⟨x, _, ⟨_, ran, rfl⟩, by cases x <;> rfl, rfl⟩
  · rintro ⟨_, _, ⟨⟨x, s⟩, ran, given⟩, same, rfl⟩
    cases given
    obtain ⟨outcome, ended, same⟩ := (ends _).mpr ⟨_, _, ⟨_, ran, rfl⟩, by rw [← same]; cases x <;> rfl, rfl⟩
    exact ⟨outcome, _, ended, same, rfl⟩

/-! ### Chunks -/

/-- What a chunk is to surface. -/
def asked (r : Runner) : ReturnMode := if r.isQuieted then .none else r.config.returnMode

theorem surfaced_exec (mode : r.mode = .exec) (t : Tree) :
    r.surfaced t = (Surface.capture? r.asked t).getD t := by
  unfold surfaced asked
  cases r.isQuieted with
  | true => simp [mode, Surface.capture?_none]
  | false => simp [mode]

section Chunk

variable (kept : Text.dedent source.toList = source.toList)

include kept

theorem code_of_chunk (compiled : compile { source, config } = .ok r) :
    ∃ t k, Tree.ofSource .exec {} source = .ok t ∧
      Code.ofTree ((Surface.capture? (asked { source, config }) t).getD t) .exec = .ok k := by
  obtain ⟨t, k, parsed, made⟩ := code_of_compile ⟨rfl, rfl⟩ compiled
  rw [surfaced_exec rfl] at made
  rw [kept, String.ofList_toList] at parsed
  exact ⟨t, k, parsed, made⟩

variable (parsed : Tree.ofSource .exec {} source = .ok t)
  (made : Code.ofTree ((Surface.capture? (asked { source, config }) t).getD t) .exec = .ok k)

include parsed made

theorem ensureCode_chunk : ensureCode { source, config } =
    .ok (k, { source, config, tree := some t, code := some k }) := by
  rw [← surfaced_exec rfl] at made
  have dedented : Tree.ofSource .exec {} (.ofList (Text.dedent source.toList)) = .ok t := by
    rw [kept, String.ofList_toList, parsed]
  exact ensureCode_new ⟨rfl, rfl⟩ dedented made

theorem compile_chunk : ∃ r, compile { source, config } = .ok r := by
  rw [← surfaced_exec rfl] at made
  have dedented : Tree.ofSource .exec {} (.ofList (Text.dedent source.toList)) = .ok t := by
    rw [kept, String.ofList_toList, parsed]
  have tree : ensureTree { source, config } = .ok (t, { source, config, tree := some t }) :=
    except_bind_of_ok dedented rfl
  exact ⟨_, except_bind_of_ok tree (except_bind_of_ok made rfl)⟩

/-- A first chunk does what its statements mean, whatever value it surfaces. -/
theorem first_ends_iff {w : World} (plain : Code.ofTree t .exec = .ok k₀)
    (spared : ∀ f ∈ w.store.functions, f.code.Spares Surface.resultName) :
    ∃ v, ∀ w' o, (∃ outcome, Evaluates source config w outcome w' ∧ outcome.mapError RunError.unplaced = o) ↔
      ∃ x s, Meaning.statements t config.maxRecursionDepth t.body ⟨#v[], withoutResult w⟩ = some (x, s) ∧
        told x v = o ∧ withoutResult s.world = w' := by
  have ordered := Tree.ordered_of_ofSource parsed
  have ends := unplaced_ends_iff (ensureCode_chunk kept parsed made) (codeFor_of_ofTree made).mode w
  have surfaces := Surface.surfaces_origin ordered (body_shaped plain) (asked { source, config })
    config.maxRecursionDepth ⟨#v[], withoutResult w⟩
  have unbound {x s}
      (ended : Meaning.statements t config.maxRecursionDepth t.body ⟨#v[], withoutResult w⟩ = some (x, s)) :=
    unbound_of_statements (Tree.unnamed_of_ofSource parsed) plain spared ended
  simp only [Surface.answer_surfaced ordered made] at ends
  change ∃ v, ∀ w' o, (∃ outcome, Ends { source, config } w outcome w' ∧ _) ↔ _
  simp only [ends]
  generalize Meaning.statements t config.maxRecursionDepth t.body ⟨#v[], withoutResult w⟩ = first
    at surfaces unbound ⊢
  generalize Meaning.surfacing t config.maxRecursionDepth _ ⟨#v[], withoutResult w⟩ = second at surfaces ⊢
  cases surfaces with
  | never => exact ⟨none, by simp⟩
  | fails fault s => exact ⟨none, by simp [told, Except.map]⟩
  | @gives s v holds =>
    refine ⟨v, fun w' o => ?_⟩
    simp [told, Except.map, resultOf, get?_leaving (unbound rfl), withoutResult_leaving]

end Chunk

/-- Two chunks in turn do what their statements mean one after the other. -/
theorem placesAside_inTurn {x y : Meaning 0 Unit} {s₀ : Scene 0} {w : World} {v : Option Value}
    (first : ∀ w' o,
      (∃ outcome, Evaluates source₁ config w outcome w' ∧ outcome.mapError RunError.unplaced = o) ↔
        ∃ r s, x s₀ = some (r, s) ∧ told r v = o ∧ withoutResult s.world = w')
    (clean : ∀ s, x s₀ = some (.ok (), s) → withoutResult s.world = s.world)
    (second : ∀ w₁ u o, PlacesAside (Evaluates source₂ config w₁) o u ↔
      ∃ r s, Meaning.movedTo Tree.noPlace (y ⟨#v[], withoutResult w₁⟩) = some (r, s) ∧
        told r (resultOf s.world) = o ∧ withoutResult s.world = u)
    (u : World) (o : Except RunError (Option Value)) :
    PlacesAside (InTurn source₁ source₂ config w) o u ↔
      ∃ r s, Meaning.movedTo Tree.noPlace ((do x; y : Meaning 0 Unit) s₀) = some (r, s) ∧
        told r (resultOf s.world) = o ∧ withoutResult s.world = u := by
  rw [placesAside_inTurn_iff, Meaning.bind_apply]
  have came {outcome w'} (ended : Evaluates source₁ config w outcome w') := (first w' _).mp ⟨_, ended, rfl⟩
  rcases given : x s₀ with _ | ⟨fault | _, s⟩ <;> rw [given] at came
  · -- the first never ends
    constructor
    · rintro (⟨_, _, ended, -⟩ | ⟨_, _, ended, -⟩) <;> obtain ⟨_, _, none, -⟩ := came ended <;> cases none
    · rintro ⟨_, _, none, -⟩
      cases none
  · -- the first fails
    constructor
    · rintro (⟨e, _, ended, rfl, rfl⟩ | ⟨_, _, ended, -⟩) <;> obtain ⟨_, _, same, said, rfl⟩ := came ended <;>
        cases same
      · exact ⟨.error fault, _, rfl, said, rfl⟩
      · cases said
    · rintro ⟨_, _, same, rfl, rfl⟩
      cases same
      obtain ⟨outcome, ended, said⟩ := (first _ _).mpr ⟨_, s, given, rfl, rfl⟩
      cases outcome with
      | ok => cases said
      | error e => exact .inl ⟨e, _, ended, said, rfl⟩
  · -- the second starts where the first ended
    have start : (⟨#v[], withoutResult s.world⟩ : Scene 0) = s := by
      rw [clean s given, ← s.locals.eq_empty]
    have later := second (withoutResult s.world) u o
    rw [show withoutResult (withoutResult s.world) = _ from congrArg withoutResult (clean s given), start] at later
    constructor
    · rintro (⟨_, _, ended, -⟩ | ⟨_, _, ended, rest⟩) <;> obtain ⟨_, _, same, said, rfl⟩ := came ended <;>
        cases same
      · cases said
      · exact later.mp rest
    · intro means
      obtain ⟨outcome, ended, said⟩ := (first _ _).mpr ⟨_, s, given, rfl, rfl⟩
      cases outcome with
      | ok v' => exact .inr ⟨v', _, ended, later.mpr means⟩
      | error => cases said

section Both

variable {source₁ source₂ : String} {t₁ t₂ : Tree} (kept₁ : Text.dedent source₁.toList = source₁.toList)
  (kept₂ : Text.dedent source₂.toList = source₂.toList) (parsed₁ : Tree.ofSource .exec {} source₁ = .ok t₁)
  (parsed₂ : Tree.ofSource .exec {} source₂ = .ok t₂) (nonempty : t₂.body ≠ [])

include kept₁ kept₂ parsed₁ parsed₂ nonempty

/-- Whether the chunks are quiet as one is a matter of the second. -/
theorem isQuiet_joined :
    Quiet.isQuiet (source₁ ++ "\n" ++ source₂).toList = Quiet.isQuiet source₂.toList := by
  obtain ⟨tokens₁, tokens₂, tokens, read₁, read₂, read, joins, t, mem, inLine⟩ :=
    Tree.tokens_joined rfl kept₁ kept₂ parsed₁ parsed₂ nonempty
  have both : (source₁ ++ "\n" ++ source₂).toList = source₁.toList ++ '\n' :: source₂.toList := by simp
  have some : t ∈ Token.significant (tokens₂.map (·.token)) :=
    List.mem_filter.mpr ⟨mem, by rw [inLine]; rfl⟩
  rw [both, Token.isQuiet_of_tokenize read, Token.isQuiet_of_tokenize read₂, joins.significant,
    List.getLast?_append_of_ne_nil _ (List.ne_nil_of_mem some)]

end Both

/-- Evaluating chunk by chunk comes to the same as evaluating the whole. If two chunks without a margin
compile, the second has a statement, and no function in the world stores under the name of the result, they
compile as one; and places aside, the one ends with an outcome and a world just if the two in turn do. -/
theorem chunks_agree {source₁ source₂ : String} {config : Config} {w : World} {t₂ : Tree}
    (kept₁ : Text.dedent source₁.toList = source₁.toList)
    (kept₂ : Text.dedent source₂.toList = source₂.toList)
    (compiled₁ : compile { source := source₁, config } = .ok r₁)
    (compiled₂ : compile { source := source₂, config } = .ok r₂)
    (parsed₂ : Tree.ofSource .exec {} source₂ = .ok t₂) (nonempty : t₂.body ≠ [])
    (spared : ∀ f ∈ w.store.functions, f.code.Spares Surface.resultName) :
    (∃ r, compile { source := source₁ ++ "\n" ++ source₂, config } = .ok r) ∧
      ∀ o u, PlacesAside (Evaluates (source₁ ++ "\n" ++ source₂) config w) o u ↔
        PlacesAside (InTurn source₁ source₂ config w) o u := by
  obtain ⟨t₁, k₁, parsed₁, made₁⟩ := code_of_chunk kept₁ compiled₁
  obtain ⟨_, k₂, parsed, made₂⟩ := code_of_chunk kept₂ compiled₂
  cases parsed₂.symm.trans parsed
  obtain ⟨t, parsed, joins⟩ := Tree.ofSource_joined rfl kept₁ kept₂ parsed₁ parsed₂ nonempty
  have kept : Text.dedent (source₁ ++ "\n" ++ source₂).toList = (source₁ ++ "\n" ++ source₂).toList := by
    simpa using Text.dedent_joined kept₁ kept₂
  have same : asked { source := source₁ ++ "\n" ++ source₂, config } = asked { source := source₂, config } := by
    unfold asked isQuieted
    rw [isQuiet_joined kept₁ kept₂ parsed₁ parsed₂ nonempty]
  -- the whole surfaces what the second does
  have surfaced := joins.surfaced nonempty (asked { source := source₂, config })
  obtain ⟨k₀, plain⟩ := Surface.compiles_unsurfaced (Tree.ordered_of_ofSource parsed₁) _ made₁
  obtain ⟨k, made⟩ := compiles_joined surfaced plain made₂
  have made' := made
  rw [← same] at made'
  refine ⟨compile_chunk kept parsed made', fun o u => ?_⟩
  obtain ⟨v, first⟩ := first_ends_iff kept₁ parsed₁ made₁ plain spared
  have clean (s : Scene 0)
      (ended : Meaning.statements t₁ config.maxRecursionDepth t₁.body ⟨#v[], withoutResult w⟩ =
        some (.ok (), s)) : withoutResult s.world = s.world :=
    withoutResult_unbound
      (unbound_of_statements (Tree.unnamed_of_ofSource parsed₁) plain spared ended)
  have second (w₁ : World) := placesAside_ends_iff (ensureCode_chunk kept₂ parsed₂ made₂) made₂ w₁
  have whole := placesAside_ends_iff (ensureCode_chunk kept parsed made') made w u o
  rw [Meaning.statements_joined surfaced plain made₂ made] at whole
  exact whole.trans (placesAside_inTurn first clean second u o).symm

theorem ok_of_toOption {x : Except ε α} (h : x.toOption = some a) : x = .ok a := by
  cases x with
  | error e => cases h
  | ok b => cases h; rfl

/-- A chunk that ends inside a block. -/
def defining : String := "x = 1;\ndef f():\n    pass"

def calling : String := "while x < 3:\n    x += 1\n    f()\nx"

theorem chunks_agree_defining :
    ∃ u, PlacesAside (Evaluates (defining ++ "\n" ++ calling) {} {}) (.ok (some (.int 3))) u ∧
      PlacesAside (InTurn defining calling {} {}) (.ok (some (.int 3))) u := by
  have compiles₁ : (compile { source := defining }).toOption.isSome = true := by decide +kernel
  have compiles₂ : (compile { source := calling }).toOption.isSome = true := by decide +kernel
  have reads : (Tree.ofSource .exec {} calling).toOption.map (·.body.length) = some 2 := by decide +kernel
  have ran : (evaluate (defining ++ "\n" ++ calling) {} 100 {}).map (·.outcome.toOption) =
      some (some (some (.int 3))) := by decide +kernel
  obtain ⟨r₁, compiled₁⟩ := Option.isSome_iff_exists.mp compiles₁
  obtain ⟨r₂, compiled₂⟩ := Option.isSome_iff_exists.mp compiles₂
  obtain ⟨t, parsed, two⟩ := Option.map_eq_some_iff.mp reads
  have nonempty : t.body ≠ [] := List.ne_nil_of_length_pos (by omega)
  obtain ⟨⟨outcome, r, w'⟩, ran, given⟩ := Option.map_eq_some_iff.mp ran
  cases outcome with
  | error e => cases given
  | ok v =>
    cases given
    obtain ⟨-, agree⟩ := chunks_agree (w := {}) (by decide +kernel) (by decide +kernel)
      (ok_of_toOption compiled₁) (ok_of_toOption compiled₂) (ok_of_toOption parsed) nonempty (by simp)
    have whole : PlacesAside (Evaluates (defining ++ "\n" ++ calling) {} {}) (.ok (some (.int 3))) _ :=
      ⟨_, w', ⟨100, r, ran⟩, rfl, rfl⟩
    exact ⟨_, whole, (agree _ _).mp whole⟩

/-- With a function that stores under the name of the result, the one chunk surfaces what the two in turn
do not. -/
theorem strayResult_outlives :
    (∃ w', Evaluates ("f()" ++ "\n" ++ "pass") {} strayWorld (.ok (some (.int 5))) w') ∧
      ∀ outcome w', InTurn "f()" "pass" {} strayWorld outcome w' → outcome = .ok none := by
  have ran : (evaluate ("f()" ++ "\n" ++ "pass") {} 30 strayWorld).map (·.outcome.toOption) =
      some (some (some (.int 5))) := by decide +kernel
  have turns : ((evaluate "f()" {} 30 strayWorld).bind fun a =>
      (evaluate "pass" {} 30 a.world).map fun b => (a.outcome.isOk, b.outcome.toOption)) = some (true, some none) := by
    decide +kernel
  obtain ⟨a, first, rest⟩ := Option.bind_eq_some_iff.mp turns
  obtain ⟨b, second, given⟩ := Option.map_eq_some_iff.mp rest
  obtain ⟨goes, nothing⟩ := Prod.mk.inj given
  refine ⟨?_, fun outcome w' ended => ?_⟩
  · obtain ⟨⟨outcome, r, w'⟩, ran, given⟩ := Option.map_eq_some_iff.mp ran
    exact ⟨w', 30, r, ok_of_toOption given ▸ ran⟩
  · cases ended with
    | fails failed =>
      have same := (failed.unique ⟨30, a.runner, first⟩).1
      rw [← same] at goes
      cases goes
    | goesOn first' second' =>
      obtain ⟨-, rfl⟩ := first'.unique ⟨30, a.runner, first⟩
      exact (second'.unique ⟨30, b.runner, second⟩).1.trans (ok_of_toOption nothing)

end Runner

end Scratchpad
