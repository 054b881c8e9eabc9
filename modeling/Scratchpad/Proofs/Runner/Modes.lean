import Scratchpad.Proofs.Code.Beginning
import Scratchpad.Proofs.Code.Compiled
import Scratchpad.Proofs.Machine.Safety
import Scratchpad.Proofs.Machine.Shared
import Scratchpad.Proofs.Machine.Spares
import Scratchpad.Proofs.Runner
import Scratchpad.Proofs.Tree.Modes
import Scratchpad.Proofs.Tree.Surface

/-!
# The value of an expression in both modes

In `eval` mode the code of an expression returns its value, in `exec` mode it stores it where it is
picked up after the run. Both codes begin with the expression, so a run of the one ends as a run of
the other does, and fails at the same place (`runs_agree`).
-/

namespace Scratchpad

namespace Lower

section

variable {c c' : Context} {id : NodeId} {s rest : Segment} {t t' : Tables}
  (lowered : expression c room span 0 id {} = .ok (s, t)) (le : t.Le t') (locals : c'.locals = c.locals)

include lowered le locals

/-- Code that starts with an expression does first what it means. -/
theorem follows_first (name : String) (limit : Nat) (scene : Scene c.slots) :
    let site : Site := ⟨finish c' name 0 (s ++ rest) t', [], limit⟩
    site.Follows (site.machine 0 [] [] scene) (fun v s' m' => m' = site.machine s.length [v] [] s')
      (Meaning.value c limit c.tree.size id scene) := by
  intro site
  have placed := (placed_append.mp (placed_finish c' name 0 (s ++ rest) t')).1
  have unit : site.code.locals = c.locals.toArray := by rw [← locals]; rfl
  have made := expression_makes c room span 0 id {} s t lowered
  have fits : ∀ x ∈ [id], c.tree.Fits c.tree.size x := fun x mem => (made.shaped x mem).fits
  have means := Site.means_of_makes unit made le placed fits [] [] scene
  rwa [Nat.zero_add] at means

end

/-- All code that starts with an expression fails where the expression does. -/
theorem fails_alike {c : Context} {id : NodeId} {s : Segment} {t : Tables}
    (lowered : expression c room span 0 id {} = .ok (s, t)) (name : String) (limit : Nat)
    {scene scene' : Scene c.slots}
    (fails : Meaning.value c limit c.tree.size id scene = some (.error fault, scene')) :
    ∃ place, ∀ {c' : Context} {rest t'}, t.Le t' → c'.locals = c.locals →
      let site : Site := ⟨finish c' name 0 (s ++ rest) t', [], limit⟩
      (site.machine 0 [] [] scene).outcome limit =
        some ⟨.error ⟨fault, place⟩, scene'.world⟩ := by
  have bounded : Segment.Bounded t s.length s := by
    have makes := (expression_makes c room span 0 id {} s t lowered).bounded
    simpa [Part.slack] using makes
  -- code that waits behind the expression fails, and the others with it
  let waiting : Site := ⟨finish c name 0 (s ++ [.op (.jump s.length) {}]) t, [], limit⟩
  have follows : waiting.Follows _ _ _ := follows_first lowered (.refl t) rfl name limit scene
  rw [fails] at follows
  obtain ⟨m, place, -, -, path, last, -⟩ := follows
  obtain ⟨fuel, ran⟩ := Machine.run_to_end path last
  refine ⟨place, fun {c' rest t'} le locals => Machine.outcome_eq_some_iff.mpr ⟨fuel, ?_⟩⟩
  have twins : Machine.Twins s.length waiting.code (finish c' name 0 (s ++ rest) t')
      (waiting.machine 0 [] [] scene) (Site.machine ⟨_, [], limit⟩ 0 [] [] scene) :=
    .alone (waiting.frame 0 [] [] scene) scene.world rfl (Nat.zero_le _)
  refine twins.run (begins_finish bounded le locals name 0 {}) ?_ ran
  simp [finish, Item.instr]

/-- The end of code that stores the value on the stack. -/
theorem ends_of_store {c : Context} (s : Segment) {s' : Segment} {t t₁ t₂ : Tables} (top : c.locals = [])
    (stored : storeName c span name t = .ok (s', t₁))
    (last : constant (.literal .none) t₁ = .ok (j, t₂)) (limit : Nat) (v : Value)
    (scene : Scene 0) :
    let site : Site :=
      ⟨finish c unit 0 (s ++ (s' ++ [.op (.loadConst j) {}, .op .returnValue {}])) t₂, [], limit⟩
    ∃ m, Machine.Reaches limit (site.machine s.length [v] [] scene) m ∧
      m.step limit = .inl ⟨.ok .none,
        { scene.world with globals := scene.world.globals.insert name v }⟩ := by
  intro site
  obtain ⟨tree, mode, isFunction, _⟩ := c
  cases top
  have placed : Placed site.code 0 0 _ := placed_finish _ unit 0 _ t₂
  simp only [placed_append, placed_cons, Nat.zero_add] at placed
  obtain ⟨-, store, load, leave, -⟩ := placed
  obtain ⟨le, entry⟩ := constant_ok last
  have assigned : site.Moves _ _ [v] _ _ := Site.moves_assign (storeName_ok stored) le store
  obtain ⟨_, path, rfl⟩ := assigned [] [] scene
  have loaded : site.Moves _ _ [] _ (pure .none : Meaning 0 Value) := Site.moves_literal load entry
  obtain ⟨_, path', rfl⟩ := loaded [] [] _
  exact ⟨_, path.trans path', Site.ends_here rfl leave⟩

/-- The second run comes to the same as the first, but for the value, which it leaves under a name. -/
inductive Surfaces (name : String) : Option Ending → Option Ending → Prop
  | never : Surfaces name none none
  | fails (f : Failure) (w : World) : Surfaces name (some ⟨.error f, w⟩) (some ⟨.error f, w⟩)
  | gives (v : Value) (w : World) : Surfaces name (some ⟨.ok v, w⟩)
      (some ⟨.ok .none, { w with globals := w.globals.insert name v }⟩)

/-- The code of one expression in `eval` mode, and one that stores its value in `exec` mode, come to
the same. -/
theorem outcomes_agree {tree tree' : Tree} {id : NodeId} {s s' : Segment} {t t₁ t₂ : Tables}
    (lowered : expression ⟨tree, .eval, false, []⟩ room span 0 id {} = .ok (s, t))
    (stored : storeName ⟨tree', .exec, false, []⟩ place name t = .ok (s', t₁))
    (last : constant (.literal .none) t₁ = .ok (j, t₂)) (limit : Nat) (w : World) :
    let k := finish ⟨tree, .eval, false, []⟩ unit 0 (s ++ [.op .returnValue {}]) t
    let k' := finish ⟨tree', .exec, false, []⟩ unit 0
      (s ++ (s' ++ [.op (.loadConst j) {}, .op .returnValue {}])) t₂
    let started (k : Code) : Machine := ⟨.enter k [], [], w⟩
    Surfaces name ((started k).outcome limit) ((started k').outcome limit) := by
  intro k k' started
  have le : t.Le t₂ := (storeName_ok stored).le.trans (constant_ok last).1
  let site : Site := ⟨k, [], limit⟩
  let site' : Site := ⟨k', [], limit⟩
  have follows : site.Follows (started k) _ _ := follows_first lowered (.refl t) rfl unit limit ⟨#v[], w⟩
  have locals : Context.locals ⟨tree', .exec, false, []⟩ = [] := rfl
  have follows' : site'.Follows (started k') _ _ := follows_first lowered le locals unit limit ⟨#v[], w⟩
  cases means : Meaning.value ⟨tree, .eval, false, []⟩ limit tree.size id ⟨#v[], w⟩ with
  | none =>
    rw [means] at follows follows'
    rw [Machine.outcome_eq_none_iff.mpr follows, Machine.outcome_eq_none_iff.mpr follows']
    exact .never
  | some r =>
    obtain ⟨r, scene⟩ := r
    cases r with
    | error fault =>
      obtain ⟨place, fails⟩ := fails_alike lowered unit limit means
      have first : (started k).outcome limit = _ := fails (.refl t) rfl
      have second : (started k').outcome limit = _ := fails le locals
      rw [first, second]
      exact .fails ⟨fault, place⟩ scene.world
    | ok v =>
      rw [means] at follows follows'
      obtain ⟨_, path, rfl⟩ := follows
      obtain ⟨_, path', rfl⟩ := follows'
      have leave : k.instructions[s.length]? = some .returnValue := by simp [k, finish, Item.instr]
      obtain ⟨m, stores, last⟩ := ends_of_store s rfl stored last limit v scene
      have ends := Machine.outcome_eq_some_iff.mpr
        (Machine.run_to_end path (Site.ends_here rfl leave))
      have ends' := Machine.outcome_eq_some_iff.mpr (Machine.run_to_end (path'.trans stores) last)
      rw [show (started k).outcome limit = _ from ends, show (started k').outcome limit = _ from ends']
      exact .gives v scene.world

end Lower

open Lower in
/-- The code of a tree with one expression, and of the module that stores its value. -/
theorem codes_agree {t t' : Tree} {id last : NodeId} {code code' : Code} (root : t.root = .expression id)
    (kept : ∀ x < t.size, t'.get? x = t.get? x) (size : t.size ≤ t'.size) (root' : t'.root = .module [last])
    (assigns : t'.get? last = some ⟨.assign [target] id, span⟩)
    (names : t'.get? target = some ⟨.name name, place⟩)
    (compiled : Code.ofTree t .eval = .ok code) (compiled' : Code.ofTree t' .exec = .ok code') :
    ∃ s tables s' t₁ j t₂,
      expression ⟨t, .eval, false, []⟩ maxNesting {} 0 id {} = .ok (s, tables) ∧
      storeName ⟨t', .exec, false, []⟩ place name tables = .ok (s', t₁) ∧
      constant (.literal .none) t₁ = .ok (j, t₂) ∧
      code = finish ⟨t, .eval, false, []⟩ "<module>" 0 (s ++ [.op .returnValue {}]) tables ∧
      code' = finish ⟨t', .exec, false, []⟩ "<module>" 0
        (s ++ (s' ++ [.op (.loadConst j) {}, .op .returnValue {}])) t₂ := by
  rcases ofTree_made compiled with ⟨-, id', s, tables, top, lowered, whole⟩ | ⟨other, -⟩
  swap; exact absurd rfl other
  cases root.symm.trans top
  rcases ofTree_made compiled' with ⟨none, -⟩ | ⟨-, _, t₁, j, t₂, lowered', none, whole'⟩
  · cases none
  rw [Tree.body, root'] at lowered'
  obtain ⟨s₁, t₃, s₂, value, stored, rfl⟩ := assign_ok assigns (sequence_one lowered')
  have surfaced := store_name_ok names stored
  -- the expression stands in both trees, with a level more around it in the second
  have within : t.Embeds _ _ _ t' := Tree.embeds_apart t.size size fun x lt _ => kept x lt
  have fits := ((expression_makes _ _ _ _ _ _ _ _ lowered).shaped id List.mem_cons_self).fits
  have apart : ¬ Relation.ReflTransGen t.Mentions id t.size := fun path =>
    Nat.lt_irrefl _ (Tree.Finite.lt ⟨_, fits.below path⟩)
  have locals : Context.locals ⟨t', .exec, false, []⟩ = Context.locals ⟨t, .eval, false, []⟩ := rfl
  have there := alike_copy within ⟨⟨_, fits⟩, apart⟩ ⟨_, fits⟩
  have copied := (expression_follows locals (Nat.le_refl _) False.elim (Likeness.like there) {} {}
    fun _ => rfl).same lowered
  have itself := alike_copy t'.embeds_refl trivial ⟨_, (there.symm (Q := flip _) fun place => place).fits⟩
  have wider := (expression_follows rfl (Nat.le_succ _) False.elim (Likeness.like itself) span {}
    fun _ => rfl).same value
  cases copied.symm.trans wider
  exact ⟨s, tables, s₂, t₁, j, t₂, lowered, surfaced, none, whole, by simpa using whole'⟩

namespace Runner

theorem surfaced_eval (r : Runner) (t : Tree) (mode : r.mode = .eval) : r.surfaced t = t := by
  simp [surfaced, mode]

theorem surfaced_loud {r : Runner} {t : Tree} (mode : r.mode = .exec)
    (loud : r.config.quietTrailingSemicolon = false) :
    r.surfaced t = (Surface.capture? r.config.returnMode t).getD t := by
  simp [surfaced, isQuieted, mode, loud]

theorem ends_of_surfaces {code code' : Code} (mode : code.mode = .eval) (mode' : code'.mode = .exec)
    {first second : Option Ending} (h : Lower.Surfaces Surface.resultName first second) :
    (∃ e, first = some e ∧ surfacedOutcome code e = outcome ∧ withoutResult e.world = w) ↔
      ∃ e, second = some e ∧ surfacedOutcome code' e = outcome ∧ withoutResult e.world = w := by
  cases h with
  | never => simp
  | fails f w₁ => simp [surfacedOutcome, Except.map]
  | gives v w₁ =>
    simp [surfacedOutcome, surfacedValue, mode, mode', withoutResult, Except.map,
      Globals.get?_insert_self, Globals.erase_insert]

/-- The module that an expression is, with its value surfaced. -/
theorem surfaced_expression (r : Runner) (t : Tree) (e : NodeId) (mode : r.mode = .exec)
    (loud : r.config.quietTrailingSemicolon = false) (last : r.config.returnMode = .lastExpr)
    (span : Span) :
    let t' := r.surfaced ⟨t.nodes.push ⟨.exprStmt e, span⟩, .module [t.size]⟩
    (∀ x < t.size, t'.get? x = t.get? x) ∧ t.size ≤ t'.size ∧ t'.root = .module [t.size] ∧
      t'.get? t.size = some ⟨.assign [t.size + 1] e, span⟩ ∧
      t'.get? (t.size + 1) = some ⟨.name Surface.resultName, {}⟩ := by
  intro t'
  let m : Tree := ⟨t.nodes.push ⟨.exprStmt e, span⟩, .module [t.size]⟩
  have grown : m.size = t.size + 1 := Array.size_push _
  have here : m.get? t.size = some ⟨.exprStmt e, span⟩ := Array.getElem?_push_size
  have captured : Surface.capture? .lastExpr m = some (Surface.ofExpr m t.size e) :=
    Surface.capture?_exprStmt rfl here (by decide)
  have same : t' = Surface.ofExpr m t.size e := by
    rw [show t' = r.surfaced m from rfl, surfaced_loud mode loud, last, captured]
    rfl
  have known : t.size < m.size := grown ▸ Nat.lt_succ_self _
  obtain ⟨redone, added⟩ := Surface.redone_ofExpr known e
  rw [grown] at redone added
  rw [same]
  refine ⟨fun x lt => ?_, Nat.le_trans (Nat.le_of_lt known) redone.size, redone.root,
    redone.here here, added⟩
  rw [redone.same x (Nat.lt_trans lt known) (Nat.ne_of_lt lt)]
  exact (Array.getElem?_push_lt lt).trans (Array.getElem?_eq_getElem lt).symm

/-- An expression comes to the same in `eval` mode and, with its value surfaced, in `exec` mode: the
value or the fault and its place, what was printed, and the names and objects that are left. -/
theorem runs_agree {source : String} {flags : Flags} {config config' : Config}
    (limits : config'.maxRecursionDepth = config.maxRecursionDepth)
    (last : config'.returnMode = .lastExpr) (loud : config'.quietTrailingSemicolon = false)
    (compiled : compile { source, mode := .eval, flags, config } = .ok r)
    (compiled' : compile { source, mode := .exec, flags, config := config' } = .ok r')
    (w : World) (outcome : Except RunError (Option Value)) (w' : World) :
    Ends { source, mode := .eval, flags, config } w outcome w' ↔
      Ends { source, mode := .exec, flags, config := config' } w outcome w' := by
  obtain ⟨t, code, parsed, made⟩ := code_of_compile ⟨rfl, rfl⟩ compiled
  obtain ⟨t', code', parsed', made'⟩ := code_of_compile ⟨rfl, rfl⟩ compiled'
  -- the module is the expression and one statement around it
  obtain ⟨tokens, read⟩ := tokens_of_ofSource parsed
  obtain ⟨e, span, top, whole, -⟩ := exec_of_eval tokens ((ofSource_eq read .eval).symm.trans parsed)
  cases ((ofSource_eq read .exec).trans whole).symm.trans parsed'
  rw [ends_iff (ensureCode_new ⟨rfl, rfl⟩ parsed made), ends_iff (ensureCode_new ⟨rfl, rfl⟩ parsed' made')]
  rw [surfaced_eval _ _ rfl] at made
  obtain ⟨kept, size, root, assigns, names⟩ :=
    surfaced_expression { source, mode := .exec, flags, config := config' } t e rfl loud last span
  obtain ⟨s, tables, s', t₁, j, t₂, lowered, stored, none, rfl, rfl⟩ :=
    codes_agree top kept size root assigns names made made'
  refine ends_of_surfaces rfl rfl ?_
  rw [limits]
  exact Lower.outcomes_agree lowered stored none config.maxRecursionDepth (withoutResult w)

/-- A call that may fail in more than one way. -/
def printing : Runner := { source := "print(x := 7 // y)", mode := .eval }

def surfacing : Runner := { printing with mode := .exec, config.quietTrailingSemicolon := false }

theorem runs_agree_printing :
    ∃ r r', printing.compile = .ok r ∧ surfacing.compile = .ok r' ∧
      ∀ w outcome w', printing.Ends w outcome w' ↔ surfacing.Ends w outcome w' := by
  have compiles : printing.compile.isOk = true := by decide +kernel
  have compiles' : surfacing.compile.isOk = true := by decide +kernel
  cases compiled : printing.compile with
  | error e =>
    rw [compiled] at compiles
    cases compiles
  | ok r =>
    cases compiled' : surfacing.compile with
    | error e =>
      rw [compiled'] at compiles'
      cases compiles'
    | ok r' => exact ⟨r, r', rfl, rfl, runs_agree rfl rfl rfl compiled compiled'⟩

end Runner

end Scratchpad
