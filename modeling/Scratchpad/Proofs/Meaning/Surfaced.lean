import Scratchpad.Proofs.Machine.Spares
import Scratchpad.Proofs.Meaning.Flow
import Scratchpad.Proofs.Tree.Surface

/-!
# Programs whose value is surfaced

`surfacing` says what a program does that leaves its value under the name of the result. It does all
that the program does, fails where the program fails, and binds that one name more
(`surfaces_value`, `surfaces_bound`).
-/

namespace Scratchpad

open Lower

/-- A unit outside any function. -/
abbrev Lower.Context.top (t : Tree) : Context := ⟨t, .exec, false, []⟩

namespace Meaning

/-! ### Depth -/

section

variable {value value' : NodeId → Meaning slots Value}

theorem choice_congr (op : BoolOp) {ids : List NodeId} (same : ∀ x ∈ ids, value x = value' x) :
    choice op value ids = choice op value' ids := by
  induction ids with
  | nil => rfl
  | cons a as ih =>
    obtain ⟨first, rest⟩ := List.forall_mem_cons.mp same
    cases as with
    | nil => exact first
    | cons b as =>
      have later := ih rest
      simp only [choice, first, later]

theorem links_congr (left : Value) {chain : List (CompareOp × NodeId)}
    (same : ∀ l ∈ chain, value l.2 = value' l.2) : links value left chain = links value' left chain := by
  induction chain generalizing left with
  | nil => rfl
  | cons l ls ih =>
    obtain ⟨op, right⟩ := l
    obtain ⟨first, rest⟩ := List.forall_mem_cons.mp same
    cases ls with
    | nil => simp only [links, show value right = value' right from first]
    | cons l ls =>
      have later (v : Value) := ih v rest
      simp only [links, show value right = value' right from first, later]

theorem mapM_congr {ids : List NodeId} (same : ∀ x ∈ ids, value x = value' x) :
    ids.mapM value = ids.mapM value' := by
  induction ids with
  | nil => rfl
  | cons a as ih =>
    obtain ⟨first, rest⟩ := List.forall_mem_cons.mp same
    rw [List.mapM_cons, List.mapM_cons, first, ih rest]

end

/-- An expression asks for the values of its operands only. -/
theorem expression_congr {c : Context} {value value' : NodeId → Meaning c.slots Value} {kind : NodeKind}
    (calls : Nat) (same : ∀ x ∈ kind.children, value x = value' x) :
    expression c calls value kind = expression c calls value' kind := by
  cases kind with
  | unary op arg | named target arg | «attribute» arg attr => simp only [expression, same arg List.mem_cons_self]
  | boolean op values => exact choice_congr op same
  | compare left ops comparators =>
    obtain ⟨first, rest⟩ := List.forall_mem_cons.mp same
    have others (v : Value) : links value v (ops.zip comparators) = links value' v (ops.zip comparators) :=
      links_congr v fun l mem => rest l.2 (List.of_mem_zip mem).2
    simp only [expression, first, others]
  | conditional test body orelse =>
    simp only [expression, same test (by simp [NodeKind.children]), same body (by simp [NodeKind.children]),
      same orelse (by simp [NodeKind.children])]
  | list elts | tuple elts | dict keys values => exact congrArg (· >>= _) (mapM_congr same)
  | binary left op right | subscript left right =>
    simp only [expression, same left List.mem_cons_self,
      same right (List.mem_cons_of_mem _ List.mem_cons_self)]
  | call func args =>
    obtain ⟨first, rest⟩ := List.forall_mem_cons.mp same
    simp only [expression, first, mapM_congr rest]
  | _ => rfl

/-- More depth changes nothing where there is enough. -/
theorem value_deeper {c : Context} {id : NodeId} (calls : Nat) (fits : c.tree.Fits d id) (le : d ≤ d') :
    value c calls d id = value c calls d' id := by
  induction d generalizing id d' with
  | zero => exact fits.elim
  | succ d ih =>
    obtain ⟨d', rfl⟩ : ∃ k, d' = k + 1 := ⟨d' - 1, by omega⟩
    obtain ⟨kind, found, below⟩ := fits
    unfold value
    rw [found]
    exact expression_congr calls fun x mem => ih (below x mem) (Nat.le_of_succ_le_succ le)

/-! ### Statements at the top -/

theorem all_append {perform : NodeId → Meaning slots Flow} {ids : List NodeId}
    (stays : ∀ id ∈ ids, Leads (Flow.Stays false) (perform id)) (others : List NodeId) :
    all perform (ids ++ others) = (do
      let _ ← all perform ids
      all perform others) := by
  induction ids with
  | nil => rfl
  | cons id ids ih =>
    obtain ⟨first, rest⟩ := List.forall_mem_cons.mp stays
    funext s
    rw [List.cons_append, all, all, ih rest, bind_assoc, bind_apply, bind_apply]
    rcases given : perform id s with _ | ⟨_ | flow, s'⟩
    · rfl
    · rfl
    · cases flow with
      | next => rfl
      | leave | again => cases first s _ s' given
      | result v => exact (first s _ s' given).elim

/-- Statements at the top of a tree. -/
noncomputable def statements (t : Tree) (calls : Nat) (ids : List NodeId) : Meaning 0 Unit := do
  let _ ← all (perform (.top t) calls t.size) ids

theorem statements_append {t : Tree} {ids : List NodeId}
    (shaped : ∀ id ∈ ids, Shaped t (.statement false false) id) (calls : Nat) (others : List NodeId) :
    statements t calls (ids ++ others) = (do
      statements t calls ids
      statements t calls others) := by
  have stays (id : NodeId) (mem : id ∈ ids) :
      Leads (Flow.Stays false) (perform (.top t) calls t.size id) :=
    stays_perform (c := .top t) (shaped id mem) calls t.size
  unfold statements
  rw [all_append stays]
  simp only [bind_assoc, pure_bind]

theorem statements_one (t : Tree) (calls : Nat) (id : NodeId) :
    statements t calls [id] = (do let _ ← perform (.top t) calls t.size id) := by
  unfold statements
  funext s
  rw [all, bind_assoc, bind_apply, bind_apply]
  rcases perform (.top t) calls t.size id s with _ | ⟨_ | flow, s'⟩
  · rfl
  · rfl
  · cases flow <;> rfl

/-! ### The last statement -/

section

variable {t : Tree} {last : NodeId} {calls : Nat}

/-- A statement, with the operands' depth made that of the tree. -/
theorem perform_last (calls : Nat) (found : t.get? last = some ⟨kind, span⟩) (fits : t.Fits t.size last) :
    ∃ d, d ≤ t.size ∧ (∀ x ∈ kind.children, t.Fits d x) ∧
      perform (.top t) calls t.size last = statement (.top t) (value (.top t) calls d)
        (store (.top t) calls d) (perform (.top t) calls d) span kind := by
  generalize size : t.size = n at fits ⊢
  cases n with
  | zero => exact fits.elim
  | succ d =>
    obtain ⟨kind', known, below⟩ := fits
    rw [Tree.kind?, found] at known
    cases known
    refine ⟨d, Nat.le_succ d, below, ?_⟩
    unfold perform
    rw [show (Context.top t).tree.get? last = _ from found]

theorem perform_exprStmt (found : t.get? last = some ⟨.exprStmt e, span⟩) (fits : t.Fits t.size last) :
    perform (.top t) calls t.size last = (do
      let _ ← value (.top t) calls t.size e
      return .next) := by
  obtain ⟨d, le, below, same⟩ := perform_last calls found fits
  rw [same, ← value_deeper (c := .top t) calls (below e List.mem_cons_self) le]
  rfl

/-- Stores to names bind them. -/
theorem forM_store {ids : List NodeId} (calls : Nat) (fits : ∀ x ∈ ids, t.Fits d x)
    (named : List.Forall₂ (fun id name => t.kind? id = some (.name name)) ids names) (v : Value) :
    ids.forM (fun id => store (.top t) calls d id v) =
      names.forM (Context.assign (.top t) · v) := by
  induction named with
  | nil => rfl
  | @cons id name ids names kind _ ih =>
    obtain ⟨first, rest⟩ := List.forall_mem_cons.mp fits
    simp only [List.forM_eq_forM, List.forM_cons] at ih ⊢
    rw [ih rest]
    cases d with
    | zero => exact first.elim
    | succ d =>
      unfold store
      rw [show (Context.top t).tree.kind? id = _ from kind]
      rfl

theorem perform_assign (found : t.get? last = some ⟨.assign targets e, span⟩)
    (fits : t.Fits t.size last)
    (named : List.Forall₂ (fun id name => t.kind? id = some (.name name)) targets names) :
    perform (.top t) calls t.size last = (do
      let v ← value (.top t) calls t.size e
      names.forM (Context.assign (.top t) · v)
      return .next) := by
  obtain ⟨d, le, below, same⟩ := perform_last calls found fits
  obtain ⟨targets', value'⟩ := List.forall_mem_append.mp below
  rw [same, ← value_deeper (c := .top t) calls (value' e List.mem_cons_self) le]
  simp only [statement, forM_store calls targets' named]

theorem perform_augAssign {target : NodeId} (found : t.get? last = some ⟨.augAssign target op e, span⟩)
    (fits : t.Fits t.size last) (named : t.kind? target = some (.name name)) :
    perform (.top t) calls t.size last = (do
      let v ← (do
        let old ← Context.load (.top t) name
        let v ← value (.top t) calls t.size e
        ofEval (Operator.binary op old v))
      [name].forM (Context.assign (.top t) · v)
      return .next) := by
  obtain ⟨d, le, below, same⟩ := perform_last calls found fits
  have operand := below e (List.mem_cons_of_mem _ List.mem_cons_self)
  rw [same, ← value_deeper (c := .top t) calls operand le]
  simp only [statement, show (Context.top t).tree.kind? target = _ from named, augmented, bind_assoc,
    List.forM_eq_forM, List.forM_cons, List.forM_nil, pure_bind]

end

/-! ### Names bound to one value -/

theorem get?_bound {g : Globals} {v : Value} {name : String} {names : List String}
    (h : name ∈ names ∨ g.get? name = some v) :
    (names.foldl (fun g name => g.insert name v) g).get? name = some v := by
  induction names generalizing g with
  | nil => exact h.resolve_left List.not_mem_nil
  | cons first names ih =>
    apply ih
    by_cases same : name = first
    · subst same
      exact .inr Globals.get?_insert_self
    · rcases h with mem | bound
      · exact .inl ((List.mem_cons.mp mem).resolve_left same)
      · exact .inr ((Globals.get?_insert_of_ne same).trans bound)

theorem forM_assign (t : Tree) (names : List String) (v : Value) (s : Scene 0) :
    (names.forM (Context.assign (.top t) · v) : Meaning 0 Unit) s =
      some (.ok (), { s with
        world.globals := names.foldl (fun g name => g.insert name v) s.world.globals }) := by
  induction names generalizing s with
  | nil => rfl
  | cons name names ih =>
    simp only [List.forM_eq_forM, List.forM_cons] at ih ⊢
    rw [bind_apply]
    exact ih _

/-- The value that names were bound to can be read from the last of them. -/
theorem forM_assign_read (t : Tree) {names : List String} {name : String}
    (ends : names.getLast? = some name) (v : Value) :
    (do
      names.forM (Context.assign (.top t) · v)
      let v ← Context.load (.top t) name
      Context.assign (.top t) Surface.resultName v : Meaning 0 Unit) =
        (names ++ [Surface.resultName]).forM (Context.assign (.top t) · v) := by
  funext s
  have bound := get?_bound (g := s.world.globals) (v := v) (.inl (List.mem_of_getLast? ends))
  rw [bind_apply, forM_assign, forM_assign]
  dsimp only
  rw [bind_apply]
  unfold Context.load Context.lookup
  simp only [List.findIdx?_nil, bound, List.foldl_append]
  rfl

/-! ### Surfacing -/

/-- What a program does if the value from there is left under the name of the result. -/
noncomputable def surfacing (t : Tree) (calls : Nat) : Surface.Origin → Meaning 0 Unit
  | .nothing => statements t calls t.body
  | .value e => do
    statements t calls t.body.dropLast
    let v ← value (.top t) calls t.size e
    Context.assign (.top t) Surface.resultName v
  | .bound names => do
    statements t calls t.body
    match names.getLast? with
    | some name => do
      let v ← Context.load (.top t) name
      Context.assign (.top t) Surface.resultName v
    | none => return

/-- The value of a program that went from `s` to `s'`: none, that of its last expression, or that
which all the names are bound to. -/
def Gives (t : Tree) (calls : Nat) (s s' : Scene 0) : Surface.Origin → Option Value → Prop
  | .nothing, given => given = none
  | .value e, given => ∃ v s₁, given = some v ∧
      statements t calls t.body.dropLast s = some (.ok (), s₁) ∧
      value (.top t) calls t.size e s₁ = some (.ok v, s')
  | .bound names, given => names ≠ [] ∧ ∃ v, given = some v ∧
      ∀ name ∈ names, s'.world.globals.get? name = some v

end Meaning

/-- The scene with a value, if there is one, under the name of the result. -/
def Scene.leaving (s : Scene 0) : Option Value → Scene 0
  | none => s
  | some v => { s with world.globals := s.world.globals.insert Surface.resultName v }

namespace Meaning

/-- The second comes to what the first comes to, and leaves the value that the first gives. -/
inductive Surfaces (given : Scene 0 → Option Value → Prop) :
    Option (Except Fault Unit × Scene 0) → Option (Except Fault Unit × Scene 0) → Prop
  | never : Surfaces given none none
  | fails (fault : Fault) (s : Scene 0) :
      Surfaces given (some (.error fault, s)) (some (.error fault, s))
  | gives {s : Scene 0} {v : Option Value} (holds : given s v) :
      Surfaces given (some (.ok (), s)) (some (.ok (), s.leaving v))

section

variable {t : Tree} {before : List NodeId} {last : NodeId} {calls : Nat} (body : t.body = before ++ [last])
  (shaped : ∀ id ∈ before, Shaped t (.statement false false) id)

include body shaped

theorem statements_body : statements t calls t.body = (do
    statements t calls before
    let _ ← perform (.top t) calls t.size last) := by
  rw [body, statements_append shaped, statements_one]

theorem surfaces_value (binds : perform (.top t) calls t.size last = (do
      let _ ← value (.top t) calls t.size e
      return .next)) (s : Scene 0) :
    Surfaces (fun s' => Gives t calls s s' (.value e)) (statements t calls t.body s)
      (surfacing t calls (.value e) s) := by
  have early : t.body.dropLast = before := by simp [body]
  rw [statements_body body shaped, surfacing, early, bind_apply, bind_apply]
  rcases first : statements t calls before s with _ | ⟨_ | _, s₁⟩
  · exact .never
  · exact .fails _ s₁
  · dsimp only
    rw [binds, bind_assoc, bind_apply, bind_apply]
    rcases second : value (.top t) calls t.size e s₁ with _ | ⟨_ | v, s₂⟩
    · exact .never
    · exact .fails _ s₂
    · exact .gives (v := some v) ⟨v, s₁, rfl, by rw [early, first], second⟩

variable {x : Meaning 0 Value} {names : List String} (some : names ≠ [])
  (binds : perform (.top t) calls t.size last = (do
    let v ← x
    names.forM (Context.assign (.top t) · v)
    return .next))

include some binds

theorem surfacing_bound : surfacing t calls (.bound names) = (do
    statements t calls before
    let v ← x
    (names ++ [Surface.resultName]).forM (Context.assign (.top t) · v)) := by
  have ends := List.getLast?_eq_getLast_of_ne_nil some
  rw [surfacing, statements_body body shaped, binds, ends]
  simp only [bind_assoc, pure_bind, forM_assign_read t ends]

theorem surfaces_bound (s : Scene 0) :
    Surfaces (fun s' => Gives t calls s s' (.bound names)) (statements t calls t.body s)
      (surfacing t calls (.bound names) s) := by
  rw [surfacing_bound body shaped some binds, statements_body body shaped, binds, bind_apply, bind_apply]
  rcases statements t calls before s with _ | ⟨_ | _, s₁⟩
  · exact .never
  · exact .fails _ s₁
  · dsimp only
    rw [bind_assoc, bind_apply, bind_apply]
    rcases x s₁ with _ | ⟨_ | v, s₂⟩
    · exact .never
    · exact .fails _ s₂
    · dsimp only
      rw [bind_assoc, bind_apply, forM_assign, forM_assign, List.foldl_append]
      refine .gives (v := .some v) ⟨some, v, rfl, fun name mem => ?_⟩
      exact get?_bound (.inl mem)

end

end Meaning

end Scratchpad
