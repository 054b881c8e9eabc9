import Scratchpad.Proofs.Code.Tables
import Scratchpad.Proofs.Tree.WellFormed

/-!
# What lowering is refused for

`Fails E x` bounds the errors of a step of lowering by `E`. The steps that only add to the tables have
none, and a step made of others has those of its parts, with one of its own where a node is not of the
form it needs (`fails_operand`, `fails_operation`).
-/

namespace Scratchpad

namespace Lower

variable {E E' : SyntaxError → Prop}

/-- Is refused, if at all, with such an error. -/
def Refuses (E : SyntaxError → Prop) (x : Except SyntaxError α) : Prop :=
  ∀ e, x = .error e → E e

theorem refuses_ok (a : α) : Refuses E (.ok a) := by
  rintro e ⟨⟩

theorem refuses_error {e : SyntaxError} (h : E e) : Refuses E (.error e : Except SyntaxError α) := by
  rintro _ ⟨⟩
  exact h

theorem Refuses.bind {x : Except SyntaxError α} {f : α → Except SyntaxError β} (first : Refuses E x)
    (rest : ∀ a, x = .ok a → Refuses E (f a)) : Refuses E (x >>= f) := by
  cases x with
  | ok a => exact rest a rfl
  | error e => exact refuses_error (first e rfl)

def Fails (E : SyntaxError → Prop) (x : Lower α) : Prop := ∀ t, Refuses E (x t)

theorem fails_pure (a : α) : Fails E (pure a) := fun t => refuses_ok (a, t)

theorem fails_fail {v : Violation} {span : Span} (h : E (.invalid v span)) :
    Fails E (fail v span : Lower α) :=
  fun _ => refuses_error h

theorem Fails.bind_of {x : Lower α} {f : α → Lower β} (first : Fails E x)
    (rest : ∀ a t t', x t = .ok (a, t') → Fails E (f a)) : Fails E (x >>= f) :=
  fun t => (first t).bind fun (a, t') done => rest a t t' done t'

theorem Fails.bind {x : Lower α} {f : α → Lower β} (first : Fails E x) (rest : ∀ a, Fails E (f a)) :
    Fails E (x >>= f) :=
  first.bind_of fun a _ _ _ => rest a

theorem Fails.give {x : Lower α} {f : α → β} (h : Fails E x) : Fails E (x >>= fun a => pure (f a)) :=
  h.bind fun _ => fails_pure _

theorem Fails.mono {x : Lower α} (h : Fails E x) (imp : ∀ e, E e → E' e) : Fails E' x :=
  fun t e failed => imp e (h t e failed)

theorem fails_lift {x : Except SyntaxError α} (h : Refuses E x) : Fails E (x : Lower α) :=
  fun _ => h.bind fun _ _ => refuses_ok _

/-- The code of a unit is put together once the unit is lowered. -/
theorem Fails.finish {x : Lower α} {g : α × Tables → β} (h : Fails E x) :
    Refuses E (do let r ← x.run {}; return g r) :=
  (h {}).bind fun _ _ => refuses_ok _

theorem fails_guard {b : Bool} {x : Lower α} {v : Violation} {span : Span}
    (refused : b = true → E (.invalid v span)) (h : Fails E x) :
    Fails E (if b then (fail v span : Lower PUnit) >>= fun _ => x else x) := by
  split
  case isTrue bad => exact (fails_fail (refused bad)).bind fun _ => h
  case isFalse => exact h

theorem fails_get : Fails E (get : Lower Tables) := fun t => refuses_ok (t, t)

theorem fails_set (t' : Tables) : Fails E (set t' : Lower PUnit) := fun _ => refuses_ok (PUnit.unit, t')

theorem fails_constant (k : Constant) : Fails E (constant k) := by
  refine fails_get.bind fun t => ?_
  split
  · exact fails_pure _
  · exact (fails_set _).give

theorem fails_nameIndex (name : String) : Fails E (nameIndex name) := by
  refine fails_get.bind fun t => ?_
  split
  · exact fails_pure _
  · exact (fails_set _).give

theorem fails_loadLiteral (span : Span) (l : Literal) : Fails E (loadLiteral span l) :=
  (fails_constant _).give

theorem fails_loadName (c : Context) (span : Span) (name : String) : Fails E (loadName c span name) := by
  unfold loadName
  split
  · exact fails_pure _
  · exact (fails_nameIndex name).give

theorem fails_storeName (c : Context) (span : Span) (name : String) :
    Fails E (storeName c span name) := by
  unfold storeName
  split
  · exact fails_pure _
  · exact (fails_nameIndex name).give

theorem fails_sequence {lower : Nat → α → Lower Segment} {as : List α}
    (h : ∀ a ∈ as, ∀ pos, Fails E (lower pos a)) (pos : Nat) : Fails E (sequence lower pos as) := by
  induction as generalizing pos with
  | nil => exact fails_pure _
  | cons a as ih =>
    obtain ⟨first, rest⟩ := List.forall_mem_cons.mp h
    exact (first pos).bind fun _ => (ih rest _).give

theorem fails_foldlM {f : β → α → Lower β} {as : List α} (h : ∀ a ∈ as, ∀ b, Fails E (f b a)) (b : β) :
    Fails E (as.foldlM f b) := by
  induction as generalizing b with
  | nil => exact fails_pure _
  | cons a as ih =>
    obtain ⟨first, rest⟩ := List.forall_mem_cons.mp h
    rw [List.foldlM_cons]
    exact (first b).bind (ih rest)

/-! ### Expressions and targets -/

section

variable {c : Context} {expr : Expr}

theorem fails_boolChain {ids : List NodeId} (h : ∀ x ∈ ids, ∀ span pos, Fails E (expr span pos x))
    (span : Span) (jump : Nat → Instr) (pos : Nat) : Fails E (boolChain expr span jump pos ids) := by
  induction ids generalizing pos with
  | nil => exact fails_pure _
  | cons a as ih =>
    obtain ⟨first, rest⟩ := List.forall_mem_cons.mp h
    cases as with
    | nil => exact first span pos
    | cons b as => exact (first span pos).bind fun _ => (ih rest _).give

theorem fails_links {chain : List (CompareOp × NodeId)}
    (h : ∀ l ∈ chain, ∀ span pos, Fails E (expr span pos l.2)) (span : Span) (pos : Nat) :
    Fails E (links expr span pos chain) := by
  induction chain generalizing pos with
  | nil => exact fails_pure _
  | cons l ls ih =>
    obtain ⟨first, rest⟩ := List.forall_mem_cons.mp h
    cases ls with
    | nil => exact (first span pos).give
    | cons l' ls => exact (first span pos).bind fun _ => (ih rest _).give

theorem fails_comparison {left : NodeId} {chain : List (CompareOp × NodeId)}
    (first : ∀ span pos, Fails E (expr span pos left))
    (h : ∀ l ∈ chain, ∀ span pos, Fails E (expr span pos l.2)) (span : Span) (pos : Nat) :
    Fails E (comparison expr span pos left chain) := by
  refine (first span pos).bind fun _ => (fails_links h span _).bind fun _ => ?_
  split
  · exact fails_pure _
  · exact fails_pure _

/-- Is not about nesting. -/
def NotNesting (e : SyntaxError) : Prop := ∀ what span, e ≠ .invalid (.tooNested what) span

/-- Nothing below a statement is lowered here. -/
theorem fails_operand {kind : NodeKind}
    (refused : ¬ (kind.isExpression = true ∧ leftOperand? kind = none ∧ c.tree.Complete kind) →
      ∀ e, NotNesting e → E e)
    (h : kind.isExpression = true → ∀ x ∈ kind.children, ∀ span pos, Fails E (expr span pos x))
    (span : Span) (pos : Nat) : Fails E (operand c expr span pos kind) := by
  cases kind with
  | literal l => exact fails_loadLiteral span l
  | name name => exact fails_loadName c span name
  | unary op arg => exact (h rfl arg List.mem_cons_self span pos).give
  | boolean op values =>
    refine fails_guard (fun empty => refused ?_ _ (by simp [NotNesting])) (fails_boolChain (h rfl) span _ pos)
    rintro ⟨_, _, nonempty⟩
    exact nonempty (List.isEmpty_iff.mp empty)
  | compare left ops comparators =>
    obtain ⟨first, rest⟩ := List.forall_mem_cons.mp (h rfl)
    refine fails_guard (fun uneven => refused ?_ _ (by simp [NotNesting]))
      (fails_comparison first (fun l mem => rest l.2 (List.of_mem_zip mem).2) span pos)
    rintro ⟨_, _, nonempty, even⟩
    simp [nonempty, even] at uneven
  | conditional test body orelse =>
    exact (h rfl test (by simp [NodeKind.children]) span _).bind fun _ =>
      (h rfl body (by simp [NodeKind.children]) span _).bind fun _ =>
        (h rfl orelse (by simp [NodeKind.children]) span _).give
  | named target value =>
    exact (h rfl value List.mem_cons_self span pos).bind fun _ => (fails_storeName c span target).give
  | list elts | tuple elts => exact (fails_sequence (fun x mem => h rfl x mem span) pos).give
  | dict keys values =>
    refine fails_guard (fun uneven => refused ?_ _ (by simp [NotNesting]))
      (fails_sequence (fun x mem => h rfl x mem span) pos).give
    rintro ⟨_, _, even⟩
    simp [show keys.length = values.length from even] at uneven
  | binary | call | «attribute» | subscript => exact fails_fail (refused (by rintro ⟨_, ⟨⟩, _⟩) _ (by simp [NotNesting]))
  | _ => exact fails_fail (refused (by rintro ⟨⟨⟩, _⟩) _ (by simp [NotNesting]))

theorem fails_operation {kind : NodeKind}
    (refused : leftOperand? kind = none → ∀ e, NotNesting e → E e)
    (h : ∀ x ∈ kind.children.tail, ∀ span pos, Fails E (expr span pos x)) (span : Span) (pos : Nat) :
    Fails E (operation expr span pos kind) := by
  cases kind with
  | binary a op b => exact (h b List.mem_cons_self span pos).give
  | call f args => exact (fails_sequence (fun x mem => h x mem span) pos).give
  | «attribute» value attr => exact (fails_nameIndex attr).give
  | subscript value index => exact (h index List.mem_cons_self span pos).give
  | _ => exact fails_fail (refused rfl _ (by simp [NotNesting]))

theorem fails_storeAll {ids : List NodeId}
    (h : ∀ x ∈ ids, ∀ span pos, Fails E (store c room span pos x)) (span : Span) (pos : Nat) :
    Fails E (storeAll c room span pos ids) := by
  induction ids generalizing pos with
  | nil => exact fails_pure _
  | cons a as ih =>
    obtain ⟨first, rest⟩ := List.forall_mem_cons.mp h
    cases as with
    | nil => exact first span pos
    | cons b as => exact (first span _).bind fun _ => (ih rest _).give

end

end Lower

end Scratchpad
