import Scratchpad.Proofs.Code.Statement

/-!
# Compiled code

`Lowered` says what the code of a unit is made of. Compiling gives nothing else, and neither does
what stands inside compiled code (`Compiled.lowered`).
-/

namespace Scratchpad

/-- A loop that only checks gets through if each check does. -/
theorem forIn_ok_iff {f : α → PUnit → Except ε (ForInStep PUnit)} {as : List α}
    (checks : ∀ a r, f a ⟨⟩ = .ok r → r = .yield ⟨⟩) :
    forIn as ⟨⟩ f = .ok ⟨⟩ ↔ ∀ a ∈ as, f a ⟨⟩ = .ok (.yield ⟨⟩) := by
  induction as with
  | nil => simp [pure, Except.pure]
  | cons a as ih =>
    rw [List.forIn_cons, List.forall_mem_cons, ← ih]
    cases first : f a ⟨⟩ with
    | error e => simp [bind, Except.bind]
    | ok r =>
      cases checks a r first
      simp [bind, Except.bind]

namespace Lower

/-! ### Codes in the tables -/

theorem constant_codes {k : Constant} {code : Code} (h : constant k t = .ok (i, t'))
    (mem : .code code ∈ t'.constants) : .code code ∈ t.constants ∨ k = .code code := by
  rcases constant_cases h with ⟨-, rfl⟩ | ⟨-, rfl⟩
  · exact .inl mem
  · exact (Array.mem_push.mp mem).imp_right Eq.symm

/-- No code was added. -/
def Tables.NoCode (t t' : Tables) : Prop :=
  ∀ code : Code, .code code ∈ t'.constants → .code code ∈ t.constants

theorem literal_noCode {l : Literal} (h : constant (.literal l) t = .ok (i, t')) : t.NoCode t' := by
  intro code mem
  rcases constant_codes h mem with old | new
  · exact old
  · cases new

theorem Tables.noCode_entered : Tables.Entered (fun _ => True) Tables.NoCode where
  refl _ _ := id
  trans before after code mem := before code (after code mem)
  literal := literal_noCode
  global _ entry := by rcases nameIndex_cases entry with ⟨-, rfl⟩ | ⟨-, rfl⟩ <;> exact fun _ => id

theorem Makes.noCode (h : Makes c part t pos s t') : t.NoCode t' :=
  h.entered Tables.noCode_entered fun _ _ _ _ _ => trivial

theorem Stores.noCode (h : Stores c place t pos s t') : t.NoCode t' :=
  h.entered Tables.noCode_entered fun _ _ _ _ _ => trivial

/-! ### Code that lowering makes -/

/-- The code of a unit: its statements, or one expression, and a return at the end. -/
inductive Lowered : Code → Prop where
  | body {c : Context} {ids : List NodeId} (does : Does c none (.body ids) {} 0 s t)
      (last : constant (.literal .none) t = .ok (j, t')) :
      Lowered (finish c name argCount
        (s ++ [.op (.loadConst j) span] ++ [.op .returnValue span]) t')
  | value {c : Context} {id : NodeId} (made : Makes c (.value id) {} 0 s t) :
      Lowered (finish c name argCount (s ++ [.op .returnValue span]) t)

/-- Codes that statements add are finished units of the same tree, so a set that has each such unit
whose codes it has, has them. -/
theorem Does.codes_in {K : Code → Prop} (h : Does c loop work t pos s t')
    (unit : ∀ {c' : Context} {ids s t j t' name argCount span}, c'.tree = c.tree →
      Does c' Option.none (.body ids) {} 0 s t → constant (.literal .none) t = .ok (j, t') →
      (∀ k : Code, .code k ∈ t'.constants → K k) →
      K (finish c' name argCount (s ++ [.op (.loadConst j) span] ++ [.op .returnValue span]) t'))
    {code : Code} (mem : .code code ∈ t'.constants) : .code code ∈ t.constants ∨ K code := by
  induction h generalizing code with
  | exprStmt _ value | returnValue _ _ value => exact .inl (value.noCode code mem)
  | assign _ _ value stores => exact .inl (value.noCode code (stores.noCode code mem))
  | augName _ _ load value store =>
    exact .inl (Tables.noCode_entered.load trivial load code
      (value.noCode code (Tables.noCode_entered.store trivial store code mem)))
  | augSubscript _ _ place value => exact .inl (place.noCode code (value.noCode code mem))
  | augAttribute _ _ object entry value =>
    exact .inl (object.noCode code (Tables.noCode_entered.global trivial entry code (value.noCode code mem)))
  | functionDef _ _ _ inside last made entry store ih =>
    rcases constant_codes entry (Tables.noCode_entered.store trivial store code mem) with old | new
    · exact .inl old
    · cases new
      rw [made]
      refine .inr (unit rfl inside last fun k mem => ?_)
      rcases ih unit (literal_noCode last k mem) with old | new
      · simp at old
      · exact new
  | returnNone _ _ entry => exact .inl (literal_noCode entry code mem)
  | ifOnly _ test _ ih | whileLoop _ test _ _ ih =>
    exact (ih unit mem).imp_left (test.noCode code)
  | ifElse _ _ test _ _ ih ih' =>
    rcases ih' unit mem with old | new
    · exact (ih unit old).imp_left (test.noCode code)
    · exact .inr new
  | forLoop _ iter _ target _ _ ih =>
    exact (ih unit mem).imp_left fun old => iter.noCode code (target.noCode code old)
  | globalStmt | passStmt | breakStmt | continueStmt | none => exact .inl mem
  | cons _ _ ih ih' =>
    rcases ih' unit mem with old | new
    · exact ih unit old
    · exact .inr new

theorem Does.codes (h : Does c loop work t pos s t') {code : Code}
    (mem : .code code ∈ t'.constants) : .code code ∈ t.constants ∨ Lowered code :=
  h.codes_in (fun _ does last _ => .body does last) mem

theorem Lowered.inner {c k : Code} (h : Lowered c) (mem : .code k ∈ c.constants) : Lowered k := by
  cases h with
  | body does last =>
    rcases does.codes (literal_noCode last k mem) with old | new
    · simp at old
    · exact new
  | value made => simpa using made.noCode k mem

theorem Lowered.spans_size {code : Code} (h : Lowered code) :
    code.spans.size = code.instructions.size := by
  cases h <;> simp [finish]

/-! ### Whole trees -/

def resolve (t : Tree) (id : NodeId) : Except SyntaxError Node :=
  match t.get? id with
  | some n => .ok n
  | none => .error (.invalid (.danglingNode id) none)

theorem resolve_eq_ok_iff {t : Tree} {id : NodeId} : resolve t id = .ok n ↔ t.get? id = some n := by
  unfold resolve
  cases t.get? id <;> simp

/-- The check of one of several statements; the second is to blame. -/
def simple (t : Tree) (second id : NodeId) : Except SyntaxError (ForInStep PUnit) := do
  if (← resolve t id).kind.isCompound then
    throw (.multipleStatements (← resolve t second).span)
  return .yield ⟨⟩

theorem simple_eq_ok_iff {t : Tree} {second id : NodeId} :
    simple t second id = .ok r ↔
      r = .yield ⟨⟩ ∧ ∃ kind, t.kind? id = some kind ∧ kind.isCompound = false := by
  constructor
  · intro h
    obtain ⟨n, resolved, h⟩ := except_bind_ok h
    split at h
    · obtain ⟨_, _, h⟩ := except_bind_ok h
      cases h
    · cases h
      rename_i simple
      refine ⟨rfl, n.kind, ?_, by simpa using simple⟩
      rw [Tree.kind?, resolve_eq_ok_iff.mp resolved]
      rfl
  · rintro ⟨rfl, kind, found, compound⟩
    obtain ⟨n, got, rfl⟩ := Option.map_eq_some_iff.mp found
    refine except_bind_of_ok (resolve_eq_ok_iff.mpr got) ?_
    rw [compound]
    rfl

theorem topLevel_single {t : Tree} {a b : NodeId} {as : List NodeId}
    (h : t.root = .interactive (a :: b :: as)) :
    topLevel t .single = do
      forIn (a :: b :: as) PUnit.unit fun id _ => simple t b id
      return a :: b :: as := by
  unfold topLevel
  rw [h]
  rfl

theorem several_ok_iff {t : Tree} {second : NodeId} {ids : List NodeId} :
    (forIn ids PUnit.unit fun id _ => simple t second id) = .ok ⟨⟩ ↔
      ∀ id ∈ ids, ∃ kind, t.kind? id = some kind ∧ kind.isCompound = false := by
  rw [forIn_ok_iff fun id r h => (simple_eq_ok_iff.mp h).1]
  simp only [simple_eq_ok_iff, true_and]

theorem topLevel_ok {t : Tree} {mode : Mode} (h : topLevel t mode = .ok ids) :
    ids = t.body ∧ t.root.mode = mode ∧ (mode = .single → t.Alone) := by
  obtain ⟨nodes, root⟩ := t
  cases mode with
  | exec =>
    cases root with
    | module body => cases h; exact ⟨rfl, rfl, nofun⟩
    | expression | interactive => cases h
  | eval =>
    cases root with
    | expression body =>
      obtain ⟨n, _, h⟩ := except_bind_ok h
      dsimp only at h
      split at h
      · cases h
      · cases h; exact ⟨rfl, rfl, nofun⟩
    | module | interactive => cases h
  | single =>
    cases root with
    | interactive body =>
      match body with
      | [] | [_] => cases h; exact ⟨rfl, rfl, fun _ several => by simp [Tree.body] at several⟩
      | a :: b :: as =>
        rw [topLevel_single rfl] at h
        obtain ⟨⟨⟩, checked, h⟩ := except_bind_ok h
        cases h
        refine ⟨rfl, rfl, fun _ _ id mem kind found => ?_⟩
        obtain ⟨kind', found', compound⟩ := several_ok_iff.mp checked id mem
        rw [found] at found'
        cases found'
        exact compound
    | module | expression => cases h

/-- How the code of a tree was made. -/
theorem ofTree_made {tree : Tree} {mode : Mode} {code : Code} (h : Code.ofTree tree mode = .ok code) :
    (mode = .eval ∧ ∃ id s t, tree.root = .expression id ∧
      expression ⟨tree, mode, false, []⟩ maxNesting {} 0 id {} = .ok (s, t) ∧
      code = finish ⟨tree, mode, false, []⟩ "<module>" 0 (s ++ [.op .returnValue {}]) t) ∨
    (mode ≠ .eval ∧ ∃ s t j t',
      sequence (statement maxNesting ⟨tree, mode, false, []⟩ none {}) 0 tree.body {} = .ok (s, t) ∧
      constant (.literal .none) t = .ok (j, t') ∧
      code = finish ⟨tree, mode, false, []⟩ "<module>" 0
        (s ++ [.op (.loadConst j) {}] ++ [.op .returnValue {}]) t') := by
  obtain ⟨body, top, h⟩ := except_bind_ok h
  obtain ⟨rfl, root, _⟩ := topLevel_ok top
  obtain ⟨⟨segment, tables⟩, lowered, finished⟩ := except_bind_ok h
  cases finished
  cases mode with
  | eval =>
    obtain ⟨nodes, root'⟩ := tree
    cases root' with
    | module | interactive => cases root
    | expression id =>
      obtain ⟨value, t₁, made, rest⟩ := bind_ok lowered
      obtain ⟨rfl, rfl⟩ := pure_ok rest
      obtain ⟨first, t₂, made, rest⟩ := bind_ok made
      obtain ⟨others, t₃, none, rest⟩ := bind_ok rest
      obtain ⟨rfl, rfl⟩ := pure_ok none
      obtain ⟨rfl, rfl⟩ := pure_ok rest
      rw [List.append_nil]
      exact .inl ⟨rfl, id, first, _, rfl, made, rfl⟩
  | exec | single =>
    obtain ⟨s, t₁, done, rest⟩ := bind_ok lowered
    obtain ⟨last, t₂, loaded, rest⟩ := bind_ok rest
    obtain ⟨j, t₃, entry, loaded⟩ := bind_ok loaded
    obtain ⟨rfl, rfl⟩ := pure_ok loaded
    obtain ⟨rfl, rfl⟩ := pure_ok rest
    exact .inr ⟨nofun, s, t₁, j, _, done, entry, rfl⟩

/-- What the code of a tree is made of. -/
theorem ofTree_ok {tree : Tree} {mode : Mode} {code : Code} (h : Code.ofTree tree mode = .ok code) :
    (∃ id s t, tree.root = .expression id ∧ Makes ⟨tree, mode, false, []⟩ (.value id) {} 0 s t ∧
      code = finish ⟨tree, mode, false, []⟩ "<module>" 0 (s ++ [.op .returnValue {}]) t) ∨
    (mode ≠ .eval ∧ ∃ s t j t', Does ⟨tree, mode, false, []⟩ none (.body tree.body) {} 0 s t ∧
      constant (.literal .none) t = .ok (j, t') ∧
      code = finish ⟨tree, mode, false, []⟩ "<module>" 0
        (s ++ [.op (.loadConst j) {}] ++ [.op .returnValue {}]) t') := by
  rcases ofTree_made h with ⟨-, id, s, t, root, lowered, whole⟩ | ⟨other, s, t, j, t', lowered, last, whole⟩
  · exact .inl ⟨id, s, t, root, expression_makes _ _ _ _ _ _ _ _ lowered, whole⟩
  · exact .inr ⟨other, s, t, j, t', sequence_does (statement_does (Nat.le_refl _)) lowered, last, whole⟩

theorem lowered_of_ofTree {tree : Tree} {mode : Mode} {code : Code}
    (h : Code.ofTree tree mode = .ok code) : Lowered code := by
  rcases ofTree_ok h with ⟨id, s, t, _, made, rfl⟩ | ⟨_, s, t, j, t', does, last, rfl⟩
  · exact .value made
  · exact .body does last

/-! ### How an assignment at the top is lowered -/

theorem sequence_one {lower : Nat → α → Lower Segment} {a : α} {t t' : Tables} {s : Segment}
    (h : sequence lower pos [a] t = .ok (s, t')) : lower pos a t = .ok (s, t') := by
  obtain ⟨first, t₁, made, h⟩ := bind_ok h
  obtain ⟨others, t₂, none, h⟩ := bind_ok h
  obtain ⟨rfl, rfl⟩ := pure_ok none
  obtain ⟨rfl, rfl⟩ := pure_ok h
  rwa [List.append_nil]

theorem assign_ok {c : Context} {id : NodeId} {t t' : Tables} {s : Segment}
    (found : c.tree.get? id = some ⟨.assign targets value, span⟩)
    (h : statement (room + 1) c loop place pos id t = .ok (s, t')) :
    ∃ s₁ t₁ s₂, expression c room span pos value t = .ok (s₁, t₁) ∧
      storeAll c room span (pos + s₁.length) targets t₁ = .ok (s₂, t') ∧ s = s₁ ++ s₂ := by
  unfold statement at h
  obtain ⟨n, t₁, resolved, h⟩ := bind_ok h
  obtain ⟨known, rfl⟩ := node_ok resolved
  cases found.symm.trans known
  obtain ⟨-, h⟩ := guard_ok h
  obtain ⟨s₁, t₂, made, h⟩ := bind_ok h
  obtain ⟨s₂, t₃, stored, h⟩ := bind_ok h
  obtain ⟨rfl, rfl⟩ := pure_ok h
  exact ⟨s₁, t₂, s₂, made, stored, rfl⟩

theorem store_name_ok {c : Context} {id : NodeId} {t t' : Tables} {s : Segment}
    (found : c.tree.get? id = some ⟨.name name, span⟩)
    (h : store c (room + 1) place pos id t = .ok (s, t')) : storeName c span name t = .ok (s, t') := by
  unfold store at h
  obtain ⟨n, t₁, resolved, h⟩ := bind_ok h
  obtain ⟨known, rfl⟩ := node_ok resolved
  cases found.symm.trans known
  exact h

end Lower

/-- Code that compiling gave, or that stands inside such code. -/
inductive Compiled : Code → Prop
  | whole {code : Code} (compiled : Code.ofTree tree mode = .ok code) : Compiled code
  | inner {c code : Code} (outer : Compiled c) (mem : .code code ∈ c.constants) : Compiled code

theorem Compiled.lowered {code : Code} (h : Compiled code) : Lower.Lowered code := by
  induction h with
  | whole compiled => exact Lower.lowered_of_ofTree compiled
  | inner _ mem ih => exact ih.inner mem

end Scratchpad
