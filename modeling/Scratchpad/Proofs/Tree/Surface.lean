import Scratchpad.Proofs.Tree.Embeds
import Scratchpad.Surface

/-!
# Trees that surface their value

Surfacing changes the last statement of a tree and adds a few nodes (`Redone`); what does not get to
the last statement stands in the tree as before.
-/

namespace Scratchpad.Surface

/-- `t'` is `t` with another last statement and more nodes. -/
structure Redone (t t' : Tree) (last : NodeId) (kind : NodeKind) : Prop where
  root : t'.root = t.root
  size : t.size ≤ t'.size
  same : ∀ id < t.size, id ≠ last → t'.get? id = t.get? id
  here : ∀ {n}, t.get? last = some n → t'.get? last = some ⟨kind, n.span⟩

variable {t t' g : Tree} {last : NodeId} {kind : NodeKind}

theorem redone_setKind {added : Array Node} (grown : g.nodes = t.nodes ++ added) (root : g.root = t.root) :
    Redone t (g.setKind last kind) last kind where
  root := root
  size := by simp [Tree.size, Tree.setKind, grown]
  same id lt other := by
    simp only [Tree.get?, Tree.setKind, Array.getElem?_modify, if_neg other.symm, grown]
    exact Array.getElem?_append_left lt
  here {n} found := by
    have lt : last < t.nodes.size := (Array.getElem?_eq_some_iff.mp found).1
    have known : t.nodes[last]? = some n := found
    simp [Tree.get?, Tree.setKind, Array.getElem?_modify, grown, Array.getElem?_append_left lt, known]

/-- A node that was added stays as it is. -/
theorem get?_added {added : Array Node} (grown : g.nodes = t.nodes ++ added) (known : last < t.size)
    (i : Nat) : (g.setKind last kind).get? (t.size + i) = added[i]? := by
  have other : last ≠ t.size + i := Nat.ne_of_lt (Nat.lt_of_lt_of_le known (Nat.le_add_right _ i))
  simp only [Tree.get?, Tree.setKind, Array.getElem?_modify, if_neg other, grown]
  exact (Array.getElem?_append_right (Nat.le_add_right t.nodes.size i)).trans
    (congrArg (added[·]?) (Nat.add_sub_cancel_left t.nodes.size i))

theorem capture?_exprStmt {mode : ReturnMode} {value : NodeId} (ends : t.body.getLast? = some last)
    (found : t.get? last = some ⟨.exprStmt value, span⟩) (surfaces : mode ≠ .none) :
    capture? mode t = some (ofExpr t last value) := by
  unfold capture?
  simp only [ends, found, Option.bind_eq_bind, Option.bind_some]

theorem redone_ofExpr (known : last < t.size) (value : NodeId) :
    Redone t (ofExpr t last value) last (.assign [t.size] value) ∧
      (ofExpr t last value).get? t.size = some ⟨.name resultName, {}⟩ := by
  have grown : (pushTarget t).2.nodes = t.nodes ++ #[⟨.name resultName, {}⟩] := by
    simp [pushTarget, Tree.push]
  exact ⟨redone_setKind grown rfl, get?_added grown known 0⟩

theorem redone_ofAssign? {targets : List NodeId} {value : NodeId} (known : last < t.size)
    (h : ofAssign? t last targets value = some t') :
    Redone t t' last (.assign (targets ++ [t.size]) value) ∧
      t'.get? t.size = some ⟨.name resultName, {}⟩ := by
  have grown : (pushTarget t).2.nodes = t.nodes ++ #[⟨.name resultName, {}⟩] := by
    simp [pushTarget, Tree.push]
  unfold ofAssign? at h
  split at h
  · cases h
  · cases h
    exact ⟨redone_setKind grown rfl, get?_added grown known 0⟩

theorem redone_ofAugAssign? {target value : NodeId} {op : BinaryOp} {span place : Span} {name : String}
    (known : last < t.size) (named : t.get? target = some ⟨.name name, place⟩)
    (h : ofAugAssign? t last target op value span = some t') :
    Redone t t' last (.assign [target, t.size + 2] (t.size + 1)) ∧
      t'.get? t.size = some ⟨.name name, place⟩ ∧
      t'.get? (t.size + 1) = some ⟨.binary t.size op value, span⟩ ∧
      t'.get? (t.size + 2) = some ⟨.name resultName, {}⟩ := by
  let added : Array Node :=
    #[⟨.name name, place⟩, ⟨.binary t.size op value, span⟩, ⟨.name resultName, {}⟩]
  let g : Tree := { t with nodes := ((t.nodes.push ⟨.name name, place⟩).push
    ⟨.binary t.size op value, span⟩).push ⟨.name resultName, {}⟩ }
  have grown : g.nodes = t.nodes ++ added := by
    apply Array.toList_inj.mp
    simp [g, added]
  have whole : t' = g.setKind last (.assign [target, t.size + 2] (t.size + 1)) := by
    unfold ofAugAssign? at h
    rw [named] at h
    cases h
    simp [g, Tree.size]
  rw [whole]
  exact ⟨redone_setKind grown rfl, get?_added grown known 0, get?_added grown known 1,
    get?_added grown known 2⟩

/-! ### What is surfaced -/

/-- Where the value of a program comes from: nowhere, from an expression, or from the names that an
assignment bound. -/
inductive Origin where
  | nothing
  | value (e : NodeId)
  | bound (names : List String)

def nameOf? (t : Tree) (id : NodeId) : Option String :=
  match t.kind? id with
  | some (.name name) => some name
  | _ => none

/-- The names that a statement binds, if it is an assignment to names. -/
def boundNames? (t : Tree) : NodeKind → Option (List String)
  | .assign targets _ => if targets.isEmpty then none else targets.mapM (nameOf? t)
  | .augAssign target _ _ => (nameOf? t target).map ([·])
  | _ => none

def lastKind? (t : Tree) : Option NodeKind := t.body.getLast?.bind t.kind?

/-- The value that a program surfaces: that of its last expression, and if assignments count that
of its last assignment to names. -/
def origin (mode : ReturnMode) (t : Tree) : Origin :=
  match mode, lastKind? t with
  | .none, _ => .nothing
  | _, some (.exprStmt e) => .value e
  | .lastExprOrAssign, some kind => ((boundNames? t kind).map .bound).getD .nothing
  | _, _ => .nothing

theorem nameOf?_eq_some_iff {id : NodeId} {name : String} :
    nameOf? t id = some name ↔ t.kind? id = some (.name name) := by
  unfold nameOf?
  constructor
  · intro h
    split at h
    · rename_i found
      cases h
      exact found
    · cases h
  · intro h
    rw [h]

theorem isName_eq_isSome (id : NodeId) : isName t id = (nameOf? t id).isSome := by
  unfold isName nameOf?
  cases t.kind? id with
  | none => rfl
  | some kind => cases kind <;> rfl

theorem mapM_nameOf? {ids : List NodeId} (h : ids.all (isName t) = true) :
    ∃ names, ids.mapM (nameOf? t) = some names ∧
      List.Forall₂ (fun id name => t.kind? id = some (.name name)) ids names := by
  induction ids with
  | nil => exact ⟨[], rfl, .nil⟩
  | cons id ids ih =>
    rw [List.all_cons, Bool.and_eq_true, isName_eq_isSome] at h
    obtain ⟨name, named⟩ := Option.isSome_iff_exists.mp h.1
    obtain ⟨names, all, listed⟩ := ih h.2
    exact ⟨name :: names, by simp [named, all], .cons (nameOf?_eq_some_iff.mp named) listed⟩

theorem mapM_nameOf?_none {ids : List NodeId} (h : ids.all (isName t) = false) :
    ids.mapM (nameOf? t) = none := by
  induction ids with
  | nil => cases h
  | cons id ids ih =>
    rw [List.all_cons, isName_eq_isSome] at h
    cases named : nameOf? t id with
    | none => simp [named]
    | some name =>
      rw [named] at h
      simp [named, ih (by simpa using h)]

/-- What surfacing made of a last statement, and where its value comes from. -/
inductive Captured (t : Tree) (last : NodeId) (span : Span) : NodeKind → Origin → Tree → Prop
  | expression (e : NodeId) : Captured t last span (.exprStmt e) (.value e) (ofExpr t last e)
  | assignment {targets : List NodeId} (some : targets ≠ [])
      (named : List.Forall₂ (fun id name => t.kind? id = .some (.name name)) targets names)
      (made : ofAssign? t last targets e = .some t₁) :
      Captured t last span (.assign targets e) (.bound names) t₁
  | augmented (named : t.get? target = some ⟨.name name, place⟩)
      (made : ofAugAssign? t last target op e span = some t₁) :
      Captured t last span (.augAssign target op e) (.bound [name]) t₁

section

variable {mode : ReturnMode} {span : Span}

theorem lastKind?_eq (ends : t.body.getLast? = some last) (found : t.get? last = some ⟨kind, span⟩) :
    lastKind? t = some kind := by
  rw [lastKind?, ends, Option.bind_some, Tree.kind?, found]
  rfl

theorem capture?_cases (mode : ReturnMode) (ends : t.body.getLast? = some last)
    (found : t.get? last = some ⟨kind, span⟩) :
    (capture? mode t = none ∧ origin mode t = .nothing) ∨
      ∃ t', capture? mode t = some t' ∧ Captured t last span kind (origin mode t) t' := by
  have known := lastKind?_eq ends found
  cases mode with
  | none => exact .inl ⟨by simp [capture?, ends], by simp [origin]⟩
  | lastExpr =>
    cases kind with
    | exprStmt e =>
      refine .inr ⟨_, capture?_exprStmt ends found (by decide), ?_⟩
      simpa [origin, known] using Captured.expression e
    | _ => exact .inl ⟨by simp [capture?, ends, found], by simp [origin, known]⟩
  | lastExprOrAssign =>
    cases kind with
    | exprStmt e =>
      refine .inr ⟨_, capture?_exprStmt ends found (by decide), ?_⟩
      simpa [origin, known] using Captured.expression e
    | assign targets value =>
      have captured : capture? .lastExprOrAssign t = ofAssign? t last targets value := by
        simp [capture?, ends, found]
      have bound : origin .lastExprOrAssign t =
          ((boundNames? t (.assign targets value)).map .bound).getD .nothing := by
        simp [origin, known]
      rw [captured, bound]
      cases empty : targets.isEmpty with
      | true => exact .inl ⟨by simp [ofAssign?, empty], by simp [boundNames?, empty]⟩
      | false =>
        cases all : targets.all (isName t) with
        | false =>
          refine .inl ⟨by simp [ofAssign?, all], ?_⟩
          simp [boundNames?, mapM_nameOf?_none all]
        | true =>
          obtain ⟨names, given, named⟩ := mapM_nameOf? all
          have made : ofAssign? t last targets value =
              some ((pushTarget t).2.setKind last (.assign (targets ++ [(pushTarget t).1]) value)) := by
            simp [ofAssign?, empty, all]
          refine .inr ⟨_, made, ?_⟩
          have some : targets ≠ [] := by simpa using empty
          simpa [boundNames?, empty, given] using Captured.assignment some named made
    | augAssign target op value =>
      have captured : capture? .lastExprOrAssign t = ofAugAssign? t last target op value span := by
        simp [capture?, ends, found]
      have bound : origin .lastExprOrAssign t =
          ((boundNames? t (.augAssign target op value)).map .bound).getD .nothing := by
        simp [origin, known]
      rw [captured, bound]
      cases named : nameOf? t target with
      | none =>
        refine .inl ⟨?_, by simp [boundNames?, named]⟩
        unfold ofAugAssign?
        split
        · rename_i name place there
          have kind := nameOf?_eq_some_iff.mpr (show t.kind? target = some (.name name) by simp [Tree.kind?, there])
          rw [named] at kind
          cases kind
        · rfl
      | some name =>
        obtain ⟨⟨kind, place⟩, there, same⟩ := Option.map_eq_some_iff.mp (nameOf?_eq_some_iff.mp named)
        cases same
        obtain ⟨t', made⟩ : ∃ t', ofAugAssign? t last target op value span = some t' := by
          unfold ofAugAssign?
          rw [there]
          exact ⟨_, rfl⟩
        refine .inr ⟨t', made, ?_⟩
        simpa [boundNames?, named] using Captured.augmented there made
    | _ => exact .inl ⟨by simp [capture?, ends, found], by simp [origin, known, boundNames?]⟩

end

end Scratchpad.Surface
