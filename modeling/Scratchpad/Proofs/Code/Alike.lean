import Scratchpad.Proofs.Code.Accepts
import Scratchpad.Proofs.Code.Order

/-!
# Compiling trees that unfold alike

Lowering looks at nodes only through their kinds, places and the nodes below. So nodes that unfold alike
are lowered alike, into the same code or with the same error (`statement_alike`), and trees that unfold
alike compile alike (`ofTree_eq_of_unfolded`).
-/

namespace Scratchpad

namespace NodeKind

variable {ρ : NodeId → NodeId} (kind : NodeKind)

@[simp] theorem isStatement_rename : (kind.rename ρ).isStatement = kind.isStatement := by
  cases kind <;> rfl

@[simp] theorem isCompound_rename : (kind.rename ρ).isCompound = kind.isCompound := by
  cases kind <;> rfl

end NodeKind

namespace Lower

/-- The code and the errors are the same. -/
def Likeness.full : Likeness := ⟨True, True, id, fun _ => ⟨trivial, rfl⟩⟩

theorem Follows.eq {x y : Lower Segment} (h : Repeats .full x y) : x = y := by
  funext t
  have both := h t t fun _ => t.mapSpans_id.symm
  cases made : x t with
  | error e => exact (both.error trivial made).symm
  | ok r =>
    obtain ⟨r', made', code, tables⟩ := both.ok made
    rw [made']
    exact congrArg _ (Prod.ext ((code trivial).trans r.1.mapSpans_id) ((tables trivial).trans r.2.mapSpans_id)).symm

/-! ### Whole trees -/

variable {t t' : Tree} {d : Nat} {x x' : NodeId}

theorem resolve_alike (alike : t.Alike Eq t' d x x') : ∃ kind span ρ ρ',
    resolve t x = .ok ⟨NodeKind.rename ρ kind, span⟩ ∧
      resolve t' x' = .ok ⟨NodeKind.rename ρ' kind, span⟩ := by
  cases d with
  | zero => exact alike.elim
  | succ d =>
    obtain ⟨_, _, found, found', kind, span, _, ρ, ρ', rfl, rfl, rfl, -⟩ := alike
    exact ⟨kind, span, ρ, ρ', resolve_eq_ok_iff.mpr found, resolve_eq_ok_iff.mpr found'⟩

theorem several_alike {second second' : NodeId} (blamed : t.Alike Eq t' d second second')
    {as bs : List NodeId} (alike : List.Forall₂ (t.Alike Eq t' d) as bs) :
    (forIn as PUnit.unit fun id _ => simple t second id) =
      forIn bs PUnit.unit fun id _ => simple t' second' id := by
  obtain ⟨_, _, _, _, last, last'⟩ := resolve_alike blamed
  induction alike with
  | nil => rfl
  | @cons a b _ _ first _ ih =>
    obtain ⟨kind, _, _, _, resolved, resolved'⟩ := resolve_alike first
    have one : simple t second a = simple t' second' b := by
      rw [simple, simple, resolved, resolved', last, last']
      change (if (kind.rename _).isCompound then _ else _) = if (kind.rename _).isCompound then _ else _
      rw [NodeKind.isCompound_rename, NodeKind.isCompound_rename]
      rfl
    rw [List.forIn_cons, List.forIn_cons, one]
    refine bind_congr fun r => ?_
    cases r with
    | done => rfl
    | yield => exact ih

theorem topLevel_eval {id : NodeId} (root : t.root = .expression id) :
    topLevel t .eval = do
      let n ← resolve t id
      if n.kind.isStatement then throw (.invalid (.notExpression n.kind.describe) n.span)
      return [id] := by
  unfold topLevel
  rw [root]
  rfl

/-- Trees that unfold alike are of the form that the mode asks for, or are not, for the same reason. -/
theorem topLevel_alike (root : t.root.mode = t'.root.mode) (alike : List.Forall₂ (t.Alike Eq t' d) t.body t'.body)
    (mode : Mode) : (topLevel t mode).map (fun _ => ()) = (topLevel t' mode).map (fun _ => ()) := by
  obtain ⟨nodes, root₀⟩ := t
  obtain ⟨nodes', root₁⟩ := t'
  cases root₀ with
  | module body =>
    cases root₁ with
    | expression | interactive => cases root
    | module body' => cases mode <;> rfl
  | expression body =>
    cases root₁ with
    | module | interactive => cases root
    | expression body' =>
      cases mode with
      | exec | single => rfl
      | eval =>
        cases alike with
        | cons first _ =>
          obtain ⟨kind, span, ρ, ρ', resolved, resolved'⟩ := resolve_alike first
          rw [topLevel_eval rfl, topLevel_eval rfl, resolved, resolved']
          change Except.map _ (if (kind.rename ρ).isStatement then _ else _) =
            Except.map _ (if (kind.rename ρ').isStatement then _ else _)
          rw [NodeKind.isStatement_rename, NodeKind.isStatement_rename, NodeKind.describe_rename,
            NodeKind.describe_rename]
          split <;> rfl
  | interactive body =>
    cases root₁ with
    | module | expression => cases root
    | interactive body' =>
      cases mode with
      | exec | eval => rfl
      | single =>
        cases alike with
        | nil => rfl
        | cons first rest =>
          cases rest with
          | nil => rfl
          | cons second rest =>
            have forget (x : Except SyntaxError PUnit) (ids ids' : List NodeId) :
                (x >>= fun _ => pure ids).map (fun _ => ()) = (x >>= fun _ => pure ids').map fun _ => () := by
              cases x <;> rfl
            rw [topLevel_single rfl, topLevel_single rfl, several_alike second (.cons first (.cons second rest))]
            exact forget _ _ _

end Lower

open Lower

/-- What follows failures that are the same, or results that lead to the same, is the same. -/
theorem bind_forget {x y : Except ε α} {f g : α → Except ε β} (same : x.map (fun _ => ()) = y.map fun _ => ())
    (rest : ∀ a b, x = .ok a → y = .ok b → f a = g b) : x >>= f = y >>= g := by
  cases x with
  | error e =>
    cases y with
    | error e' => cases same; rfl
    | ok b => cases same
  | ok a =>
    cases y with
    | error e' => cases same
    | ok b => exact rest a b rfl rfl

theorem Code.ofTree_alike {t t' : Tree} (root : t.root.mode = t'.root.mode)
    (alike : List.Forall₂ (t.Alike Eq t' (min t.size t'.size)) t.body t'.body) (mode : Mode) :
    Code.ofTree t mode = Code.ofTree t' mode := by
  have tops := topLevel_alike root alike mode
  have same : Context.Same ⟨t, mode, false, []⟩ ⟨t', mode, false, []⟩ := ⟨rfl, rfl, rfl⟩
  let pairs := t.body.zip t'.body
  have first : pairs.map Prod.fst = t.body := List.map_fst_zip alike.length_eq.le
  have second : pairs.map Prod.snd = t'.body := List.map_snd_zip alike.length_eq.ge
  have all : ∀ p ∈ pairs, Likeness.full.Like t t' p.1 p.2 := fun p mem =>
    Likeness.like (((List.forall₂_zip alike mem).symm (Q := Eq) Eq.symm).symm fun place _ => place)
  have value : sequence (expression ⟨t, mode, false, []⟩ maxNesting {}) 0 t.body =
      sequence (expression ⟨t', mode, false, []⟩ maxNesting {}) 0 t'.body := by
    rw [← first, ← second]
    refine (sequence_follows pairs (fun p mem => ?_) fun _ => rfl).eq
    exact expression_follows same.locals (Nat.le_refl _) (fun _ => rfl) (all p mem) {} {}
  have block : sequence (statement maxNesting ⟨t, mode, false, []⟩ none {}) 0 t.body =
      sequence (statement maxNesting ⟨t', mode, false, []⟩ none {}) 0 t'.body := by
    rw [← first, ← second]
    exact (block_follows (statement_follows (Nat.le_refl _) fun _ => rfl) same none none rfl
      (fun _ => rfl) all {} {} fun _ => rfl).eq
  refine bind_forget tops fun ids ids' top top' => ?_
  obtain ⟨rfl, -⟩ := topLevel_ok top
  obtain ⟨rfl, -⟩ := topLevel_ok top'
  cases mode with
  | eval =>
    simp only [value]
    rfl
  | exec | single =>
    simp only [block]
    rfl

/-- What a tree compiles to depends on what it unfolds to alone. If a tree has no circles and no missing
nodes, then every tree that unfolds to the same, with its nodes in whatever order, shared or repeated and
among others, compiles in every mode to the same code or fails with the same error. -/
theorem ofTree_eq_of_unfolded {t t' : Tree} (resolves : ∀ id, t.Reached id → ∃ kind, t.kind? id = some kind)
    (acyclic : ∀ id, t.Reached id → ¬ Relation.TransGen t.Mentions id id)
    (root : t.root.mode = t'.root.mode) (same : t.unfolded = t'.unfolded) (mode : Mode) :
    Code.ofTree t mode = Code.ofTree t' mode := by
  obtain ⟨us, unfolds⟩ := Tree.unfolds_iff.mpr ⟨resolves, acyclic⟩
  refine Code.ofTree_alike root ?_ mode
  refine forall₂_middle ?_ (forall₂_of_mapM unfolds) (forall₂_of_mapM (same ▸ unfolds))
  intro x x' u
  exact Tree.alike_of_unfold

/-- `def f` with the body `x = (y := 1) + (y := 1)` and `x = 1`, its nodes shared as far as can be. -/
def sharing : Tree where
  nodes := #[⟨.literal (.int 1), {}⟩, ⟨.named "y" 0, {}⟩, ⟨.binary 1 .add 1, {}⟩, ⟨.name "x", {}⟩,
    ⟨.assign [3] 2, {}⟩, ⟨.assign [3] 0, {}⟩, ⟨.functionDef "f" [] [4, 5], {}⟩]
  root := .module [6]

/-- The same in another order, with no node shared, and a node that nothing mentions. -/
def repeating : Tree where
  nodes := #[⟨.functionDef "f" [] [1, 9], {}⟩, ⟨.assign [2] 3, {}⟩, ⟨.name "x", {}⟩, ⟨.binary 4 .add 5, {}⟩,
    ⟨.named "y" 6, {}⟩, ⟨.named "y" 7, {}⟩, ⟨.literal (.int 1), {}⟩, ⟨.literal (.int 1), {}⟩, ⟨.call 8 [0], {}⟩,
    ⟨.assign [10] 11, {}⟩, ⟨.name "x", {}⟩, ⟨.literal (.int 1), {}⟩]
  root := .module [0]

theorem ofTree_eq_of_unfolded_sharing :
    sharing.unfolded = repeating.unfolded ∧ (Code.ofTree sharing .exec).isOk = true ∧
      Code.ofTree sharing .exec = Code.ofTree repeating .exec := by
  have ⟨same, unfolds⟩ : sharing.unfolded = repeating.unfolded ∧ sharing.unfolded.isSome = true := by
    simp [Tree.unfolded, sharing, repeating, Tree.body, Tree.size, Tree.unfold, Tree.get?, NodeKind.blank,
      NodeKind.rename, NodeKind.children]
  obtain ⟨resolves, acyclic⟩ := Tree.unfolds_iff.mp (Option.isSome_iff_exists.mp unfolds)
  have compiles : (Code.ofTree sharing .exec).isOk = true := by cbv
  have root : sharing.root.mode = repeating.root.mode := rfl
  exact ⟨same, compiles, ofTree_eq_of_unfolded resolves acyclic root same .exec⟩

end Scratchpad
