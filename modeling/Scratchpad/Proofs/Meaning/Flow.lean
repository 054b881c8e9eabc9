import Scratchpad.Proofs.Meaning
import Scratchpad.Proofs.Tree.WellFormed

/-!
# How statements are left

A statement outside a function does not return, and outside a loop goes on to the next one: there is
no `return` below it, and no `break` or `continue` but in loops of its own (`stays_perform`).
-/

namespace Scratchpad.Meaning

variable {c : Lower.Context} {value : NodeId → Meaning c.slots Value}
  {store : NodeId → Value → Meaning c.slots Unit} {perform : NodeId → Meaning c.slots Flow}

/-- Whatever the computation gives has `P`. -/
def Leads (P : α → Prop) (x : Meaning slots α) : Prop := ∀ s a s', x s = some (.ok a, s') → P a

theorem leads_pure {P : α → Prop} (holds : P a) : Leads P (pure a : Meaning slots α) := by
  rintro s _ _ ⟨⟩
  exact holds

theorem leads_never {P : α → Prop} : Leads P (never : Meaning slots α) := by
  rintro s a s' ⟨⟩

theorem leads_bind {P : β → Prop} {x : Meaning slots α} {f : α → Meaning slots β}
    (rest : ∀ a, Leads P (f a)) : Leads P (x >>= f) := by
  intro s b s' h
  obtain ⟨a, s₁, -, h⟩ := bind_ok h
  exact rest a s₁ b s' h

theorem Leads.bind {Q : α → Prop} {P : β → Prop} {x : Meaning slots α} {f : α → Meaning slots β}
    (first : Leads Q x) (rest : ∀ a, Q a → Leads P (f a)) : Leads P (x >>= f) := by
  intro s b s' h
  obtain ⟨a, s₁, done, h⟩ := bind_ok h
  exact rest a (first s a s₁ done) s₁ b s' h

theorem Leads.ite {P : α → Prop} {p : Prop} [Decidable p] {x y : Meaning slots α} (yes : Leads P x)
    (no : Leads P y) : Leads P (if p then x else y) := by
  by_cases holds : p
  · rw [if_pos holds]
    exact yes
  · rw [if_neg holds]
    exact no

/-- Not out of the function around, and to the next statement unless a loop is around. -/
def Flow.Stays (inLoop : Bool) : Flow → Prop
  | .next => True
  | .leave | .again => inLoop = true
  | .result _ => False

/-- A turn that ends the loop goes on behind it. -/
def Flow.Turned (inLoop : Bool) : σ ⊕ Flow → Prop
  | .inl _ => True
  | .inr flow => flow.Stays inLoop

theorem Flow.turned (x : σ) {flow : Flow} (h : flow.Stays true) : Flow.Turned inLoop (flow.turn x) := by
  cases flow with
  | result v => exact h.elim
  | next | leave | again => trivial

theorem stays_all {ids : List NodeId} (h : ∀ id ∈ ids, Leads (Flow.Stays inLoop) (perform id)) :
    Leads (Flow.Stays inLoop) (all perform ids) := by
  induction ids with
  | nil => exact leads_pure trivial
  | cons id ids ih =>
    obtain ⟨first, rest⟩ := List.forall_mem_cons.mp h
    refine first.bind fun flow stays => ?_
    cases flow with
    | next => exact ih rest
    | leave | again => exact leads_pure stays
    | result v => exact stays.elim

theorem stays_turns {turn : σ → Meaning slots (σ ⊕ Flow)}
    (h : ∀ x, Leads (Flow.Turned inLoop) (turn x)) (n : Nat) (x : σ) :
    Leads (Flow.Stays inLoop) (turns turn n x) := by
  induction n generalizing x with
  | zero => exact leads_never
  | succ n ih =>
    refine (h x).bind fun taken turned => ?_
    cases taken with
    | inl x' => exact ih x'
    | inr flow => exact leads_pure turned

theorem stays_loop {turn : σ → Meaning slots (σ ⊕ Flow)}
    (h : ∀ x, Leads (Flow.Turned inLoop) (turn x)) (x : σ) :
    Leads (Flow.Stays inLoop) (loop turn x) := by
  intro s flow s' ended
  obtain ⟨n, ended⟩ := loop_eq_some_iff.mp ended
  exact stays_turns h n x s flow s' ended

theorem turned_whileLoop {test : NodeId} {body : List NodeId}
    (h : ∀ id ∈ body, Leads (Flow.Stays true) (perform id)) (x : Unit) :
    Leads (Flow.Turned inLoop) (whileLoop value perform test body x) := by
  refine leads_bind fun v => leads_bind fun holds => Leads.ite ?_ (leads_pure trivial)
  exact (stays_all h).bind fun flow stays => leads_pure (Flow.turned () stays)

theorem turned_forLoop {target : NodeId} {body : List NodeId}
    (h : ∀ id ∈ body, Leads (Flow.Stays true) (perform id)) (it : Iter) :
    Leads (Flow.Turned inLoop) (forLoop store perform target body it) := by
  intro s taken s' ended
  cases next : s.world.store.next? it with
  | none =>
    rw [forLoop_ended next] at ended
    cases ended
    trivial
  | some pair =>
    rw [forLoop_next next] at ended
    have later : Leads (Flow.Turned inLoop) (do
        store target pair.1
        return (← all perform body).turn pair.2) :=
      leads_bind fun _ => (stays_all h).bind fun flow stays => leads_pure (Flow.turned pair.2 stays)
    exact later s taken s' ended

theorem stays_statement {kind : NodeKind} (suits : (Role.statement false inLoop).admits kind = true)
    (below : ∀ p ∈ (Role.statement false inLoop).below kind, ∀ l, p.1 = .statement false l →
      Leads (Flow.Stays l) (perform p.2)) (span : Span) :
    Leads (Flow.Stays inLoop) (statement c value store perform span kind) := by
  cases kind with
  | exprStmt operand => exact leads_bind fun _ => leads_pure trivial
  | assign targets operand => exact leads_bind fun _ => leads_bind fun _ => leads_pure trivial
  | augAssign target op operand =>
    dsimp only [statement]
    split
    · exact leads_bind fun _ => leads_pure trivial
    · exact leads_bind fun _ => leads_pure trivial
  | functionDef name params body =>
    dsimp only [statement]
    split
    · exact leads_bind fun _ => leads_bind fun _ => leads_pure trivial
    · exact leads_never
  | returnStmt operand => cases suits
  | ifStmt test body orelse =>
    have inside (id : NodeId) (mem : id ∈ body ++ orelse) : Leads (Flow.Stays inLoop) (perform id) :=
      below (.statement false inLoop, id) (List.mem_cons_of_mem _ (List.mem_map_of_mem mem)) inLoop rfl
    refine leads_bind fun v => leads_bind fun _ => Leads.ite ?_ ?_
    · exact stays_all fun id mem => inside id (List.mem_append_left _ mem)
    · exact stays_all fun id mem => inside id (List.mem_append_right _ mem)
  | whileLoop test body =>
    have inside (id : NodeId) (mem : id ∈ body) : Leads (Flow.Stays true) (perform id) :=
      below (.statement false true, id) (List.mem_cons_of_mem _ (List.mem_map_of_mem mem)) true rfl
    exact stays_loop (turned_whileLoop inside) ()
  | forLoop target iter body =>
    have inside (id : NodeId) (mem : id ∈ body) : Leads (Flow.Stays true) (perform id) :=
      below (.statement false true, id)
        (List.mem_cons_of_mem _ (List.mem_cons_of_mem _ (List.mem_map_of_mem mem))) true rfl
    exact leads_bind fun v => leads_bind fun it => stays_loop (turned_forLoop inside) it
  | globalStmt names | passStmt => exact leads_pure trivial
  | breakStmt | continueStmt => exact leads_pure suits
  | _ => exact leads_never

/-- Outside a function nothing returns, and outside a loop all goes on to the next statement. -/
theorem stays_perform {id : NodeId} (shaped : Shaped c.tree (.statement false inLoop) id)
    (calls depth : Nat) : Leads (Flow.Stays inLoop) (Meaning.perform c calls depth id) := by
  induction depth generalizing id inLoop with
  | zero => exact leads_never
  | succ depth ih =>
    unfold Meaning.perform
    cases found : c.tree.get? id with
    | none => exact leads_never
    | some n =>
      have kind : c.tree.kind? id = some n.kind := by rw [Tree.kind?, found]; rfl
      obtain ⟨suits, -, below⟩ := shaped.inv kind
      refine stays_statement suits (fun p mem l role => ?_) n.span
      obtain ⟨role', child⟩ := p
      cases role
      exact ih (below _ mem)

end Scratchpad.Meaning
