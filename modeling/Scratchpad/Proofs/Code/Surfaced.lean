import Scratchpad.Proofs.Code.Compiled
import Scratchpad.Proofs.Machine.Safety
import Scratchpad.Proofs.Meaning.Surfaced

/-!
# Code that surfaces a value

The code of a tree with its value surfaced does, wherever it stands, what the tree means without,
and leaves the value under the name of the result (`runs_surfaced`, `answer_surfaced`).
-/

namespace Scratchpad

open Lower

/-- Nodes mention earlier ones only, and no statement at the top gets to the last one. -/
structure Tree.Ordered (t : Tree) : Prop where
  earlier : ∀ id kind, t.kind? id = some kind → ∀ child ∈ kind.children, child < id
  resolves : ∀ id ∈ t.body, id < t.size
  apart : ∀ {before last}, t.body = before ++ [last] → ∀ x ∈ before,
    ¬ Relation.ReflTransGen t.Mentions x last

namespace Tree.Ordered

variable {t : Tree} {id last : NodeId}

theorem finite (h : t.Ordered) (known : id < t.size) : t.Finite id := by
  induction id using Nat.strongRecOn with
  | ind id ih =>
    obtain ⟨n, found⟩ : ∃ n, t.get? id = some n := ⟨_, Array.getElem?_eq_getElem known⟩
    have kind : t.kind? id = some n.kind := by rw [kind?, found]; rfl
    refine .intro kind fun child mem => ?_
    have lt := h.earlier id n.kind kind child mem
    exact ih child lt (Nat.lt_trans lt known)

theorem le_of_path (h : t.Ordered) (path : Relation.ReflTransGen t.Mentions id last) : last ≤ id := by
  induction path with
  | refl => exact Nat.le_refl id
  | tail _ step ih =>
    obtain ⟨kind, found, mem⟩ := step
    exact Nat.le_trans (Nat.le_of_lt (h.earlier _ kind found _ mem)) ih

/-- What hangs on a node is finite and does not get to it. -/
theorem below (h : t.Ordered) (found : t.kind? last = some kind) (mem : id ∈ kind.children) :
    t.Finite id ∧ ¬ Relation.ReflTransGen t.Mentions id last := by
  have lt := h.earlier last kind found id mem
  refine ⟨h.finite (Nat.lt_trans lt (kind?_lt found)), fun path => ?_⟩
  exact Nat.lt_irrefl last (Nat.lt_of_le_of_lt (h.le_of_path path) lt)

theorem ahead {before : List NodeId} (h : t.Ordered) (body : t.body = before ++ [last])
    (mem : id ∈ before) :
    t.Finite id ∧ ¬ Relation.ReflTransGen t.Mentions id last :=
  ⟨h.finite (h.resolves id (by simp [body, mem])), h.apart body id mem⟩

end Tree.Ordered

namespace Lower

theorem sequence_append {lower : Nat → α → Lower Segment} {as bs : List α} {t t' : Tables}
    {s : Segment} (h : sequence lower pos (as ++ bs) t = .ok (s, t')) :
    ∃ s₁ t₁ s₂, sequence lower pos as t = .ok (s₁, t₁) ∧
      sequence lower (pos + s₁.length) bs t₁ = .ok (s₂, t') ∧ s = s₁ ++ s₂ := by
  induction as generalizing pos t s with
  | nil => exact ⟨[], t, s, rfl, h, rfl⟩
  | cons a as ih =>
    obtain ⟨first, t₁, made, h⟩ := bind_ok h
    obtain ⟨others, t₂, rest, h⟩ := bind_ok h
    obtain ⟨rfl, rfl⟩ := pure_ok h
    obtain ⟨s₁, t₃, s₂, done, done', rfl⟩ := ih rest
    refine ⟨first ++ s₁, t₃, s₂, ?_, ?_, by simp⟩
    · exact except_bind_of_ok made (except_bind_of_ok done rfl)
    · rwa [List.length_append, ← Nat.add_assoc]

/-- What statements at the top are made into. -/
def CodeFor (t : Tree) (ids : List NodeId) (k : Code) : Prop :=
  ∃ s tables j tables', sequence (statement maxNesting (.top t) none {}) 0 ids {} = .ok (s, tables) ∧
    constant (.literal .none) tables = .ok (j, tables') ∧
    k = finish (.top t) "<module>" 0 (s ++ [.op (.loadConst j) {}] ++ [.op .returnValue {}]) tables'

theorem codeFor_of_ofTree {t : Tree} (compiled : Code.ofTree t .exec = .ok k) : CodeFor t t.body k := by
  rcases ofTree_made compiled with ⟨none, -⟩ | ⟨-, made⟩
  · cases none
  · exact made

theorem CodeFor.mode (made : CodeFor t ids k) : k.mode = .exec := by
  obtain ⟨_, _, _, _, -, -, rfl⟩ := made
  rfl

theorem CodeFor.shaped (made : CodeFor t ids k) : ∀ id ∈ ids, Shaped t (.statement false false) id := by
  obtain ⟨_, _, _, _, lowered, -, -⟩ := made
  exact (sequence_does (statement_does (Nat.le_refl _)) lowered).shaped

theorem body_shaped {t : Tree} (compiled : Code.ofTree t .exec = .ok k) :
    ∀ id ∈ t.body, Shaped t (.statement false false) id :=
  (codeFor_of_ofTree compiled).shaped

section

variable {t t' : Tree} {D : NodeId → Prop} (h : t.Embeds id id D t') (finite : ∀ {id}, D id → t.Finite id)

include h finite

/-- What was lowered in a tree is lowered the same in one that it was taken from. -/
theorem sequence_back {ids : List NodeId} {tables tables' : Tables} {s : Segment} (all : ∀ id ∈ ids, D id)
    (lowered : sequence (statement room (.top t') loop span) pos ids tables = .ok (s, tables')) :
    sequence (statement room (.top t) loop span) pos ids tables = .ok (s, tables') := by
  have same : Context.Same (.top t') (.top t) := ⟨rfl, rfl, rfl⟩
  rw [← List.map_id' ids] at lowered ⊢
  exact (block_follows (statement_follows (Nat.le_refl room) False.elim) same loop loop rfl (fun _ => rfl)
    (fun x mem => like_taken h (all x mem) (finite (all x mem))) span span fun _ => rfl).same lowered

theorem expression_back {id : NodeId} {tables tables' : Tables} {s : Segment} (mem : D id)
    (lowered : expression (.top t') room span pos id tables = .ok (s, tables')) :
    expression (.top t) room span pos id tables = .ok (s, tables') := by
  have names : (Context.top t).locals = (Context.top t').locals := rfl
  exact (expression_follows names (Nat.le_refl room) False.elim (like_taken h mem (finite mem)) span span
    fun _ => rfl).same lowered

end

/-- An operation on a name loads it first. -/
theorem binary_name_ok {c : Context} {id left : NodeId} {t t' : Tables} {s : Segment}
    (found : c.tree.get? id = some ⟨.binary left op right, span⟩)
    (named : c.tree.get? left = some ⟨.name name, place⟩)
    (h : expression c (room + 1) around pos id t = .ok (s, t')) :
    ∃ s₁ t₁ s₂, loadName c place name t = .ok (s₁, t₁) ∧
      expression c room span (pos + s₁.length) right t₁ = .ok (s₂, t') ∧
      s = s₁ ++ (s₂ ++ [.op (.binary op) span]) := by
  unfold expression at h
  obtain ⟨n, t₁, resolved, h⟩ := bind_ok h
  obtain ⟨known, rfl⟩ := node_ok resolved
  cases found.symm.trans known
  obtain ⟨walk, t₂, walked, rest⟩ := bind_ok h
  unfold spine at walked
  generalize c.tree.size = size at walked
  cases size with
  | zero => exact (fail_ok walked).elim
  | succ size =>
    obtain ⟨n, t₃, resolved, walked⟩ := bind_ok walked
    obtain ⟨known, rfl⟩ := node_ok resolved
    cases named.symm.trans known
    unfold spine at walked
    obtain ⟨rfl, rfl⟩ := pure_ok walked
    obtain ⟨s₁, t₄, loaded, rest⟩ := bind_ok rest
    obtain ⟨done, t₅, operated, rest⟩ := bind_ok rest
    obtain ⟨s₃, t₆, operation, operated⟩ := bind_ok operated
    obtain ⟨s₂, t₇, value, operation⟩ := bind_ok operation
    obtain ⟨rfl, rfl⟩ := pure_ok operation
    obtain ⟨rfl, rfl⟩ := pure_ok operated
    obtain ⟨rfl, rfl⟩ := pure_ok rest
    exact ⟨s₁, t₄, s₂, loaded, value, rfl⟩

end Lower

namespace Site

variable {site : Site} {t : Tree} {ids : List NodeId}

/-- From `pos` to `stop` the code does `x`, with nothing on the stack and outside any loop. -/
def Runs (site : Site) (pos stop : Nat) (x : Meaning 0 Unit) : Prop :=
  ∀ s, site.Follows (site.machine pos [] [] s) (fun _ s' m' => m' = site.machine stop [] [] s') (x s)

theorem Runs.andThen {x y : Meaning 0 Unit} (first : site.Runs pos mid x) (rest : site.Runs mid stop y) :
    site.Runs pos stop (do x; y) := by
  intro s
  refine (first s).bind ?_
  rintro _ s' m' - rfl
  exact rest s'

theorem Moves.runs {x : Meaning 0 Unit} (h : site.Moves pos stop [] (fun _ => []) x) :
    site.Runs pos stop x :=
  fun s => h [] [] s

/-- What a module comes to. -/
theorem Runs.answer {x : Meaning 0 Unit} (h : site.Runs 0 stop x) (alone : site.callers = [])
    (placed : Placed site.code 0 stop [.op (.loadConst j) {}, .op .returnValue {}])
    (entry : site.code.constants[j]? = some (.literal .none)) (s : Scene 0) :
    (site.machine 0 [] [] s).answer site.limit =
      (x s).map fun (r, s') => (r.map fun _ => Value.none, s'.world) := by
  obtain ⟨load, rest⟩ := placed_cons.mp placed
  obtain ⟨leave, -⟩ := placed_cons.mp rest
  have loaded : site.Moves _ _ [] _ (pure .none : Meaning 0 Value) := moves_literal load entry
  have follows : site.Follows (site.machine 0 [] [] s)
      (fun v s' m' => m'.step site.limit = .inl ⟨.ok v, s'.world⟩)
      ((do x; pure Value.none : Meaning 0 Value) s) := by
    refine (h s).bind ?_
    rintro _ s' m' - rfl
    have ends : site.Follows (site.machine stop [] [] s') _ ((pure Value.none >>= pure : Meaning 0 Value) s') :=
      loaded.follows (Q := fun v s' m' => m'.step site.limit = .inl ⟨.ok v, s'.world⟩)
        fun v s' => .pure (ends_here alone leave)
    rwa [bind_pure] at ends
  rw [follows.answer fun _ _ _ => id, Meaning.bind_apply]
  rcases x s with _ | ⟨_ | _, s'⟩
  · rfl
  · rfl
  · rfl

variable {tables tables' : Tables} {seg : Segment} (alone : site.callers = [])
  (locals : site.code.locals = #[]) (le : tables'.Le site.code.tables)
  (placed : Placed site.code 0 pos seg)

include alone locals le placed

theorem runs_statements (does : Does (.top t) none (.body ids) tables pos seg tables') :
    site.Runs pos (pos + seg.length) (Meaning.statements t site.limit ids) := by
  intro s
  have shaped := does.shaped
  have fits : ∀ id ∈ ids, t.Fits t.size id := fun id mem => (shaped id mem).fits
  have stays : Meaning.Leads (Meaning.Flow.Stays false)
      (Meaning.all (Meaning.perform (.top t) site.limit t.size) ids) :=
    Meaning.stays_all fun id mem => Meaning.stays_perform (c := .top t) (shaped id mem) _ _
  have follows := performs_of_does locals does le placed fits [] s (by rintro l ⟨⟩)
  rw [alone] at follows
  refine follows.bind fun flow s' m' given lands => .pure ?_
  cases flow with
  | next => exact lands
  | leave | again => cases stays s _ s' given
  | result v => exact (stays s _ s' given).elim

omit alone in
/-- Copies of a value for names. -/
theorem moves_names {span : Span} (stores : Stores (.top t) (.copies span ids) tables pos seg tables')
    (named : List.Forall₂ (fun id name => t.kind? id = some (.name name)) ids names) (v : Value) :
    site.Moves pos (pos + seg.length) [v] (fun _ => [])
      (names.forM (Context.assign (.top t) · v) : Meaning 0 Unit) := by
  have fits : ∀ id ∈ ids, t.Fits 1 id := by
    intro id mem
    obtain ⟨i, lt, rfl⟩ := List.getElem_of_mem mem
    have kind := named.get lt (named.length_eq ▸ lt)
    exact ⟨_, kind, by simp [NodeKind.children]⟩
  rw [← Meaning.forM_store (site.limit - site.callers.length) fits named]
  exact keeps_of_stores locals stores le placed fits v

end Site

namespace Surface

variable {t t' : Tree} {before : List NodeId} {last : NodeId} {mode : ReturnMode}

/-- Without statements there is no value. -/
theorem capture?_empty (mode : ReturnMode) (empty : t.body = []) :
    capture? mode t = none ∧ origin mode t = .nothing := by
  constructor
  · simp [capture?, empty]
  · cases mode <;> simp [origin, lastKind?, empty]

theorem capture?_none : capture? .none t = none := by
  unfold capture?
  cases t.body.getLast? with
  | none => rfl
  | some last => cases t.get? last <;> simp

theorem Captured.redone (h : Captured t last span kind source t') (known : last < t.size) :
    ∃ kind', Redone t t' last kind' := by
  cases h with
  | expression e => exact ⟨_, (redone_ofExpr known e).1⟩
  | assignment _ _ made => exact ⟨_, (redone_ofAssign? known made).1⟩
  | augmented named made => exact ⟨_, (redone_ofAugAssign? known named made).1⟩

theorem root_surfaced (ordered : t.Ordered) (mode : ReturnMode) :
    ((capture? mode t).getD t).root = t.root := by
  rcases List.eq_nil_or_concat' t.body with empty | ⟨before, last, body⟩
  · rw [(capture?_empty mode empty).1]
    rfl
  have known := ordered.resolves last (by simp [body])
  obtain ⟨⟨kind, span⟩, found⟩ : ∃ n, t.get? last = some n := ⟨_, Array.getElem?_eq_getElem known⟩
  rcases capture?_cases mode (by simp [body]) found with ⟨none, -⟩ | ⟨t', some, captured⟩
  · rw [none]
    rfl
  rw [some, Option.getD_some]
  obtain ⟨_, redone⟩ := captured.redone known
  exact redone.root

theorem body_surfaced (ordered : t.Ordered) (mode : ReturnMode) :
    ((capture? mode t).getD t).body = t.body := by
  rw [Tree.body, root_surfaced ordered]
  rfl

theorem Redone.embeds (h : Redone t t' last kind) :
    t.Embeds id id (fun id => t.Finite id ∧ ¬ Relation.ReflTransGen t.Mentions id last) t' :=
  Tree.embeds_apart last h.size h.same

/-- The names that an assignment binds are names in the new tree too. -/
theorem Redone.named (h : Redone t t' last kind') (ordered : t.Ordered) (found : t.kind? last = some kind)
    {ids : List NodeId} (below : ∀ x ∈ ids, x ∈ kind.children)
    (named : List.Forall₂ (fun id name => t.kind? id = some (.name name)) ids names)
    (added : t'.kind? target = some (.name name)) :
    List.Forall₂ (fun id name => t'.kind? id = some (.name name)) (ids ++ [target]) (names ++ [name]) := by
  refine List.rel_append ?_ (.cons added .nil)
  refine (List.forall₂_iff_zip.mpr ⟨named.length_eq, fun {id n} mem => ?_⟩)
  have kind := List.forall₂_zip named mem
  have child := below id (List.of_mem_zip mem).1
  obtain ⟨finite, apart⟩ := ordered.below found child
  have other : id ≠ last := fun same => apart (same ▸ .refl)
  rwa [Tree.kind?, h.same id finite.lt other]

section

variable {site : Site} {tables tables' : Tables} {seg : Segment} (alone : site.callers = [])
  (locals : site.code.locals = #[]) (le : tables'.Le site.code.tables)
  (placed : Placed site.code 0 pos seg)

include alone locals le placed

/-- An operand of the last statement has the value that it has without surfacing. -/
theorem moves_operand {e : NodeId} (h : Redone t t' last kind') (ordered : t.Ordered)
    (found : t.kind? last = some kind) (child : e ∈ kind.children)
    (lowered : expression (.top t') room span pos e tables = .ok (seg, tables')) :
    site.Moves pos (pos + seg.length) [] (fun v => [v]) (Meaning.value (.top t) site.limit t.size e) := by
  have below := ordered.below found child
  have made := expression_makes _ _ _ _ _ _ _ _ (expression_back h.embeds And.left below lowered)
  have fits : ∀ x ∈ [e], t.Fits t.size x := fun x mem => (made.shaped x mem).fits
  have means := Site.means_of_makes locals made le placed fits
  rwa [alone] at means

/-- Wherever the code of the surfaced tree stands, it does what the tree means, and leaves the value. -/
theorem runs_surfaced (ordered : t.Ordered)
    (lowered : sequence (statement maxNesting (.top ((capture? mode t).getD t)) none {}) pos t.body tables =
      .ok (seg, tables')) :
    site.Runs pos (pos + seg.length) (Meaning.surfacing t site.limit (origin mode t)) := by
  have plain (none : capture? mode t = none) (nothing : origin mode t = .nothing) :
      site.Runs pos (pos + seg.length) (Meaning.surfacing t site.limit (origin mode t)) := by
    rw [none, Option.getD_none] at lowered
    rw [nothing]
    exact Site.runs_statements alone locals le placed (sequence_does (statement_does (Nat.le_refl _)) lowered)
  rcases List.eq_nil_or_concat' t.body with empty | ⟨before, last, body⟩
  · obtain ⟨none, nothing⟩ := capture?_empty mode empty
    exact plain none nothing
  have known := ordered.resolves last (by simp [body])
  obtain ⟨⟨kind, span⟩, found⟩ : ∃ n, t.get? last = some n := ⟨_, Array.getElem?_eq_getElem known⟩
  rcases capture?_cases mode (by simp [body]) found with ⟨none, nothing⟩ | ⟨t', surfaced, captured⟩
  · exact plain none nothing
  rw [surfaced, Option.getD_some, body] at lowered
  obtain ⟨s₁, t₁, s₂, first, second, rfl⟩ := sequence_append lowered
  replace second := sequence_one second
  obtain ⟨placed₁, placed₂⟩ := placed_append.mp placed
  have le₁ : t₁.Le site.code.tables := (statement_does (Nat.le_refl _) _ _ _ _ _ _ _ _ second).le.trans le
  have fits := (ordered.finite known).choose_spec.size
  have kind' : t.kind? last = some kind := kind?_of_get? found
  -- the statements before stand in the tree as it was
  have early {t' : Tree} {kind' : NodeKind} (h : Redone t t' last kind')
      (first : sequence (statement maxNesting (.top t') none {}) pos before tables = .ok (s₁, t₁)) :
      Does (.top t) none (.body before) tables pos s₁ t₁ :=
    sequence_does (statement_does (Nat.le_refl _))
      (sequence_back h.embeds And.left (fun x mem => ordered.ahead body mem) first)
  generalize origin mode t = from' at captured ⊢
  cases captured with
  | expression e =>
    obtain ⟨redone, added⟩ := redone_ofExpr known e
    have does := early redone first
    obtain ⟨s₃, t₃, s₄, value, stored, rfl⟩ := assign_ok (redone.here found) second
    obtain ⟨placed₃, placed₄⟩ := placed_append.mp placed₂
    have store := storeName_ok (store_name_ok added stored)
    have operand := moves_operand alone locals (store.le.trans le) placed₃ redone ordered kind'
      List.mem_cons_self value
    have assign (v : Value) : site.Moves _ _ [v] (fun _ => [])
        (Context.assign (.top t) resultName v : Meaning 0 Unit) :=
      Site.moves_assign (c := .top (ofExpr t last e)) store le placed₄
    have runs := (Site.runs_statements alone locals le₁ placed₁ does).andThen (operand.bind assign).runs
    rw [Meaning.surfacing, body, List.dropLast_concat]
    simpa only [List.length_append, Nat.add_assoc] using runs
  | @assignment names e _ targets nonempty named made =>
    obtain ⟨redone, added⟩ := redone_ofAssign? known made
    have does := early redone first
    obtain ⟨s₃, t₃, s₄, value, stored, rfl⟩ := assign_ok (redone.here found) second
    obtain ⟨placed₃, placed₄⟩ := placed_append.mp placed₂
    have stores := storeAll_stores (by simp) stored
    have named' := redone.named ordered kind' (fun x => List.mem_append_left [e]) named (kind?_of_get? added)
    have operand := moves_operand alone locals (stores.le.trans le) placed₃ redone ordered kind'
      (List.mem_append_right targets List.mem_cons_self) value
    have assign (v : Value) : site.Moves _ _ [v] (fun _ => [])
        ((names ++ [resultName]).forM (Context.assign (.top t) · v) : Meaning 0 Unit) :=
      Site.moves_names locals le placed₄ stores named' v
    have runs := (Site.runs_statements alone locals le₁ placed₁ does).andThen (operand.bind assign).runs
    have some : names ≠ [] := fun empty => by
      subst empty
      exact nonempty (List.forall₂_nil_right_iff.mp named)
    rw [Meaning.surfacing_bound body does.shaped some (Meaning.perform_assign found fits named)]
    simpa only [List.length_append, Nat.add_assoc] using runs
  | @augmented target name place op e _ named made =>
    obtain ⟨redone, current, combined, added⟩ := redone_ofAugAssign? known named made
    have does := early redone first
    obtain ⟨s₃, t₃, s₄, value, stored, rfl⟩ := assign_ok (redone.here found) second
    obtain ⟨s₅, t₅, s₆, loaded, operand, rfl⟩ := binary_name_ok combined current value
    have stores := storeAll_stores (by simp) stored
    have listed : List.Forall₂ (fun id name => t.kind? id = some (.name name)) [target] [name] :=
      .cons (kind?_of_get? named) .nil
    have named' := redone.named ordered kind' (by simp [NodeKind.children]) listed (kind?_of_get? added)
    simp only [placed_append, placed_cons] at placed₂
    obtain ⟨⟨placed₅, placed₆, here, -⟩, placed₄⟩ := placed₂
    have le₃ := stores.le.trans le
    have le₅ := (expression_makes _ _ _ _ _ _ _ _ operand).le.trans le₃
    have load : site.Moves _ _ [] (fun v => [v]) (Context.load (.top t) name : Meaning 0 Value) :=
      Site.moves_load locals (loadName_ok loaded) le₅ placed₅
    have value := moves_operand alone locals le₃ placed₆ redone ordered kind'
      (List.mem_cons_of_mem _ List.mem_cons_self) operand
    have combine := load.bind fun old => (value.above [old]).bind fun v => Site.moves_binary here
    have assign (v : Value) : site.Moves _ _ [v] (fun _ => [])
        (([name] ++ [resultName]).forM (Context.assign (.top t) · v) : Meaning 0 Unit) :=
      Site.moves_names locals le placed₄ stores named' v
    have combined : site.Moves _ (pos + s₁.length + (s₅ ++ (s₆ ++ [Item.op (.binary op) span])).length) []
        (fun v => [v]) _ := combine.ends (by simp; omega)
    have runs := (Site.runs_statements alone locals le₁ placed₁ does).andThen (combined.bind assign).runs
    rw [Meaning.surfacing_bound body does.shaped (by simp)
      (Meaning.perform_augAssign found fits (kind?_of_get? named))]
    simpa only [List.length_append, Nat.add_assoc] using runs

end

/-- Surfacing changes nothing but that the value of the program is left. -/
theorem surfaces_origin (ordered : t.Ordered)
    (shaped : ∀ id ∈ t.body, Shaped t (.statement false false) id) (mode : ReturnMode) (calls : Nat)
    (s : Scene 0) :
    Meaning.Surfaces (fun s' => Meaning.Gives t calls s s' (origin mode t))
      (Meaning.statements t calls t.body s) (Meaning.surfacing t calls (origin mode t) s) := by
  have plain (nothing : origin mode t = .nothing) :
      Meaning.Surfaces (fun s' => Meaning.Gives t calls s s' (origin mode t))
        (Meaning.statements t calls t.body s) (Meaning.surfacing t calls (origin mode t) s) := by
    rw [nothing, Meaning.surfacing]
    rcases Meaning.statements t calls t.body s with _ | ⟨_ | _, s'⟩
    · exact .never
    · exact .fails _ s'
    · exact .gives (v := none) rfl
  rcases List.eq_nil_or_concat' t.body with empty | ⟨before, last, body⟩
  · exact plain (capture?_empty mode empty).2
  have known := ordered.resolves last (by simp [body])
  obtain ⟨⟨kind, span⟩, found⟩ : ∃ n, t.get? last = some n := ⟨_, Array.getElem?_eq_getElem known⟩
  have early : ∀ id ∈ before, Shaped t (.statement false false) id := fun id mem =>
    shaped id (by simp [body, mem])
  have fits := (ordered.finite known).choose_spec.size
  rcases capture?_cases mode (by simp [body]) found with ⟨-, nothing⟩ | ⟨t', -, captured⟩
  · exact plain nothing
  generalize origin mode t = from' at captured ⊢
  cases captured with
  | expression e => exact Meaning.surfaces_value body early (Meaning.perform_exprStmt found fits) s
  | assignment nonempty named made =>
    refine Meaning.surfaces_bound body early (fun empty => ?_) (Meaning.perform_assign found fits named) s
    subst empty
    exact nonempty (List.forall₂_nil_right_iff.mp named)
  | augmented named made =>
    exact Meaning.surfaces_bound body early (by simp)
      (Meaning.perform_augAssign found fits (kind?_of_get? named)) s

/-! ### What the code comes to -/

/-- What the code of statements comes to, if it does `x` wherever it stands. -/
theorem answer_of_runs {ids : List NodeId} {k : Code} (made : CodeFor t ids k) (limit : Nat) (w : World)
    {x : Meaning 0 Unit}
    (runs : ∀ (code : Code) (seg : Segment) (tables : Tables), code.locals = #[] →
      tables.Le code.tables → Placed code 0 0 seg →
      sequence (statement maxNesting (.top t) none {}) 0 ids {} = .ok (seg, tables) →
      Site.Runs ⟨code, [], limit⟩ 0 (0 + seg.length) x) :
    Machine.answer limit ⟨.enter k [], [], w⟩ =
      (x ⟨#v[], w⟩).map fun (r, s) => (r.map fun _ => Value.none, s.world) := by
  obtain ⟨seg, tables, j, tables', lowered, last, rfl⟩ := made
  let site : Site := ⟨finish (.top t) "<module>" 0
    (seg ++ [.op (.loadConst j) {}] ++ [.op .returnValue {}]) tables', [], limit⟩
  have placed : Placed site.code 0 0 _ := placed_finish _ _ _ _ _
  rw [List.append_assoc, placed_append, Nat.zero_add] at placed
  obtain ⟨first, second⟩ := placed
  obtain ⟨le, entry⟩ := constant_ok last
  have does : site.Runs _ _ _ := runs _ seg tables rfl le first lowered
  rw [Nat.zero_add] at does
  exact does.answer rfl second entry ⟨#v[], w⟩

theorem answer_statements {ids : List NodeId} {k : Code} (made : CodeFor t ids k) (limit : Nat) (w : World) :
    Machine.answer limit ⟨.enter k [], [], w⟩ =
      (Meaning.statements t limit ids ⟨#v[], w⟩).map fun (r, s) => (r.map fun _ => Value.none, s.world) :=
  answer_of_runs made limit w fun _ _ _ locals le placed lowered =>
    Site.runs_statements rfl locals le placed (sequence_does (statement_does (Nat.le_refl _)) lowered)

/-- What the code of a surfaced tree comes to. -/
theorem answer_surfaced {k : Code} (ordered : t.Ordered)
    (compiled : Code.ofTree ((capture? mode t).getD t) .exec = .ok k) (limit : Nat) (w : World) :
    Machine.answer limit ⟨.enter k [], [], w⟩ =
      (Meaning.surfacing t limit (origin mode t) ⟨#v[], w⟩).map fun (r, s) =>
        (r.map fun _ => Value.none, s.world) := by
  refine answer_of_runs (codeFor_of_ofTree compiled) limit w fun _ _ _ locals le placed lowered => ?_
  rw [body_surfaced ordered] at lowered
  exact runs_surfaced rfl locals le placed ordered lowered

end Surface

end Scratchpad
