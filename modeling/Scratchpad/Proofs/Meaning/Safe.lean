import Scratchpad.Proofs.Code.Compiled
import Scratchpad.Proofs.Machine.Blame
import Scratchpad.Proofs.Meaning

/-!
# Meanings that are safe

Whatever the tree, its meaning makes only functions with lowered code and fails only for reasons
that have nothing to do with code (`safe_value`, `safe_perform`), as long as calls do so.
-/

namespace Scratchpad

open Lower (Context Lowered)

namespace Meaning

/-- In a world whose functions have lowered code: ends, if at all, in such a world, and fails, if at
all, for a reason that is not the machine's own. -/
def Safe (x : Meaning slots α) : Prop :=
  ∀ s r s', s.world.Knows Lowered → x s = some (r, s') → s'.world.Knows Lowered ∧ Plain r

theorem safe_never : Safe (never : Meaning slots α) := nofun

theorem safe_pure (a : α) : Safe (pure a : Meaning slots α) := by
  rintro s _ _ known ⟨⟩
  exact ⟨known, plain_ok a⟩

theorem safe_fault {f : Fault} (h : f.kind ≠ .systemError) : Safe (fault f : Meaning slots α) := by
  rintro s _ _ known ⟨⟩
  exact ⟨known, plain_error h⟩

theorem Safe.bind {x : Meaning slots α} {f : α → Meaning slots β} (first : Safe x)
    (rest : ∀ a, Safe (f a)) : Safe (x >>= f) := by
  intro s r s' known h
  rw [bind_apply] at h
  match done : x s with
  | some (.ok a, s₁) =>
    rw [done] at h
    exact rest a s₁ r s' (first s _ s₁ known done).1 h
  | some (.error fault, s₁) =>
    obtain ⟨known, plain⟩ := first s _ s₁ known done
    rw [done] at h
    cases h
    exact ⟨known, plain_error (plain fault rfl)⟩
  | none => rw [done] at h; cases h

theorem safe_ofEval {x : Eval α} (h : Steady x) : Safe (ofEval x : Meaning slots α) := by
  intro s r s' known done
  unfold ofEval at done
  have after := h.knows known
  match given : x s.world with
  | .ok (a, w) =>
    rw [given] at done
    cases done
    exact ⟨Eval.after_of_ok given ▸ after, plain_ok a⟩
  | .error (fault, w) =>
    rw [given] at done
    cases done
    exact ⟨Eval.after_of_error given ▸ after, plain_error (h.plain _ fault w given)⟩

theorem safe_truthy (v : Value) : Safe (truthy v : Meaning slots Bool) := by
  rintro s _ _ known ⟨⟩
  exact ⟨known, plain_ok _⟩

theorem safe_mapM {f : α → Meaning slots β} (h : ∀ a, Safe (f a)) (as : List α) :
    Safe (as.mapM f) := by
  induction as with
  | nil => exact safe_pure _
  | cons a as ih =>
    rw [List.mapM_cons]
    exact (h a).bind fun _ => ih.bind fun _ => safe_pure _

theorem safe_forM {f : α → Meaning slots PUnit} (h : ∀ a, Safe (f a)) (as : List α) :
    Safe (as.forM f) := by
  induction as with
  | nil => exact safe_pure _
  | cons a as ih => exact (h a).bind fun _ => ih

theorem Safe.ite {p : Prop} [Decidable p] {x y : Meaning slots α} (yes : Safe x) (no : Safe y) :
    Safe (if p then x else y) := by
  split
  · exact yes
  · exact no

variable {c : Context}

theorem safe_load (name : String) : Safe (c.load name) := by
  rintro s _ _ known ⟨⟩
  refine ⟨known, ?_⟩
  unfold Context.lookup
  repeat' split
  all_goals first | exact plain_ok _ | exact plain_error nofun

theorem safe_assign (name : String) (v : Value) : Safe (c.assign name v) := by
  rintro s _ _ known ⟨⟩
  refine ⟨?_, plain_ok _⟩
  unfold Context.bind
  split
  · exact known
  · exact known

/-! ### Expressions -/

variable {value : NodeId → Meaning c.slots Value}

theorem safe_choice (op : BoolOp) {value : NodeId → Meaning slots Value} (h : ∀ id, Safe (value id))
    (ids : List NodeId) : Safe (choice op value ids) := by
  fun_induction choice op value ids with
  | case1 => exact safe_never
  | case2 last => exact h last
  | case3 first others _ ih =>
    exact (h first).bind fun v => (safe_truthy v).bind fun _ => .ite (safe_pure v) ih

theorem safe_compare (op : CompareOp) (left right : Value) :
    Safe (ofEval (Eval.ask (Operator.compare · op left right)) : Meaning slots Bool) :=
  safe_ofEval (steady_ask fun s => Operator.plain_compare s op left right)

theorem safe_links {value : NodeId → Meaning slots Value} (h : ∀ id, Safe (value id)) (left : Value)
    (chain : List (CompareOp × NodeId)) : Safe (links value left chain) := by
  fun_induction links value left chain with
  | case1 => exact safe_never
  | case2 left op last =>
    exact (h last).bind fun right => (safe_compare op left right).bind fun _ => safe_pure _
  | case3 left op next others _ ih =>
    exact (h next).bind fun right => (safe_compare op left right).bind fun _ =>
      .ite (ih right) (safe_pure _)

variable (calls : Nat) (called : ∀ v args, Safe (call calls v args : Meaning c.slots Value))

include called

theorem safe_expression (h : ∀ id, Safe (value id)) (kind : NodeKind) :
    Safe (expression c calls value kind) := by
  cases kind with
  | literal l => exact safe_pure _
  | name name => exact safe_load name
  | unary op operand =>
    exact (h operand).bind fun v =>
      safe_ofEval (steady_ask fun s => Operator.plain_unary s op v)
  | boolean op values => exact safe_choice op h values
  | compare left ops comparators => exact (h left).bind fun v => safe_links h v _
  | conditional test body orelse =>
    exact (h test).bind fun v => (safe_truthy v).bind fun _ => .ite (h body) (h orelse)
  | named target operand =>
    exact (h operand).bind fun v => (safe_assign target v).bind fun _ => safe_pure v
  | list elts => exact (safe_mapM h elts).bind fun items => safe_ofEval (steady_list _)
  | tuple elts => exact (safe_mapM h elts).bind fun items => safe_ofEval (steady_tuple _)
  | dict keys values =>
    exact (safe_mapM h _).bind fun items =>
      safe_ofEval ((steady_ask fun s => Frame.plain_buildDict s items {}).bind steady_dict)
  | binary left op right =>
    exact (h left).bind fun a => (h right).bind fun b => safe_ofEval (Operator.formed_binary op a b).steady
  | call func args =>
    exact (h func).bind fun callee => (safe_mapM h args).bind fun args => called callee args
  | «attribute» object attr =>
    exact (h object).bind fun v => safe_ofEval (Subscript.formed_loadAttribute v attr).steady
  | subscript object index =>
    exact (h object).bind fun v => (h index).bind fun key =>
      safe_ofEval (steady_ask fun s => Subscript.plain_load s v key)
  | _ => exact safe_never

theorem safe_value (depth : Nat) (id : NodeId) : Safe (Meaning.value c calls depth id) := by
  induction depth generalizing id with
  | zero => exact safe_never
  | succ depth ih =>
    unfold Meaning.value
    split
    · exact safe_expression calls called ih _
    · exact safe_never

/-! ### Targets and statements -/

omit called

variable {store : NodeId → Value → Meaning c.slots Unit} {perform : NodeId → Meaning c.slots Flow}

theorem safe_unpack (expected : Nat) (v : Value) :
    Safe (ofEval (unpack expected v) : Meaning slots (List Value)) :=
  safe_ofEval <| steady_ask fun s => (s.plain_items v).bind fun _ =>
    .ite (plain_error nofun) (.ite (plain_error nofun) (plain_ok _))

theorem safe_target (h : ∀ id, Safe (value id)) (h' : ∀ id v, Safe (store id v)) (v : Value)
    (kind : NodeKind) : Safe (target c value store v kind) := by
  cases kind with
  | name name => exact safe_assign name v
  | subscript object index =>
    exact (h object).bind fun o => (h index).bind fun key =>
      safe_ofEval (Subscript.formed_store o key v).steady
  | «attribute» object attr =>
    exact (h object).bind fun o => safe_fault (Subscript.storeAttribute_kind o attr)
  | tuple elts | list elts =>
    exact (safe_unpack _ v).bind fun items => safe_forM (fun (elt, item) => h' elt item) _
  | _ => exact safe_never

theorem safe_augmented (h : ∀ id, Safe (value id)) (op : BinaryOp) (operand : NodeId)
    (kind : NodeKind) : Safe (augmented c value op operand kind) := by
  cases kind with
  | name name =>
    exact (safe_load name).bind fun old => (h operand).bind fun v =>
      (safe_ofEval (Operator.formed_binary op old v).steady).bind fun new => safe_assign name new
  | subscript object index =>
    exact (h object).bind fun o => (h index).bind fun key =>
      (safe_ofEval (steady_ask fun s => Subscript.plain_load s o key)).bind fun old =>
        (h operand).bind fun v => (safe_ofEval (Operator.formed_binary op old v).steady).bind fun new =>
          safe_ofEval (Subscript.formed_store o key new).steady
  | «attribute» object attr =>
    exact (h object).bind fun o => (safe_ofEval (Subscript.formed_loadAttribute o attr).steady).bind
      fun old => (h operand).bind fun v => (safe_ofEval (Operator.formed_binary op old v).steady).bind
        fun _ => safe_fault (Subscript.storeAttribute_kind o attr)
  | _ => exact safe_never

theorem safe_turns {turn : σ → Meaning slots (σ ⊕ α)} (h : ∀ x, Safe (turn x)) (n : Nat) (x : σ) :
    Safe (turns turn n x) := by
  induction n generalizing x with
  | zero => exact safe_never
  | succ n ih =>
    refine (h x).bind fun taken => ?_
    cases taken with
    | inl x' => exact ih x'
    | inr a => exact safe_pure a

/-- What one turn of a loop keeps, all turns keep. -/
theorem safe_loop {turn : σ → Meaning slots (σ ⊕ α)} (h : ∀ x, Safe (turn x)) (x : σ) :
    Safe (loop turn x) := by
  intro s r s' known ended
  obtain ⟨n, ended⟩ := loop_eq_some_iff.mp ended
  exact safe_turns h n x s r s' known ended

theorem safe_all {perform : NodeId → Meaning slots Flow} (h : ∀ id, Safe (perform id))
    (ids : List NodeId) : Safe (all perform ids) := by
  induction ids with
  | nil => exact safe_pure _
  | cons id ids ih =>
    refine (h id).bind fun flow => ?_
    cases flow with
    | next => exact ih
    | leave | again | result => exact safe_pure _

theorem safe_forLoop (h : ∀ id v, Safe (store id v)) (h' : ∀ id, Safe (perform id))
    (target : NodeId) (body : List NodeId) (it : Iter) :
    Safe (forLoop store perform target body it) := by
  intro s r s' known ended
  cases next : s.world.store.next? it with
  | none =>
    rw [forLoop_ended next] at ended
    exact safe_pure _ s r s' known ended
  | some pair =>
    rw [forLoop_next next] at ended
    exact ((h target pair.1).bind fun _ => (safe_all h' body).bind fun _ => safe_pure _)
      s r s' known ended

theorem safe_function {code : Code} (h : Lowered code) :
    Safe (ofEval (Eval.make (·.newFunction ⟨code.name, code⟩)) : Meaning slots Value) := by
  rintro s _ _ known ⟨⟩
  refine ⟨fun function made => ?_, plain_ok _⟩
  rcases Array.mem_push.mp made with old | rfl
  · exact known function old
  · exact h

theorem safe_statement (h : ∀ id, Safe (value id)) (h' : ∀ id v, Safe (store id v))
    (h'' : ∀ id, Safe (perform id)) (span : Span) (kind : NodeKind) :
    Safe (statement c value store perform span kind) := by
  cases kind with
  | exprStmt operand => exact (h operand).bind fun _ => safe_pure _
  | assign targets operand =>
    exact (h operand).bind fun v => (safe_forM (fun target => h' target v) _).bind fun _ =>
      safe_pure _
  | augAssign target op operand =>
    dsimp only [statement]
    split
    · exact (safe_augmented h op operand _).bind fun _ => safe_pure _
    · exact safe_never.bind fun _ => safe_pure _
  | functionDef name params body =>
    dsimp only [statement]
    split
    · rename_i code lowered
      obtain ⟨_, s, t, j, t', does, last, rfl⟩ :=
        Lower.function_ok (Lower.statement_does (Nat.le_refl _)) lowered
      exact (safe_function (.body does last)).bind fun f => (safe_assign name f).bind fun _ =>
        safe_pure _
    · exact safe_never
  | returnStmt operand =>
    cases operand with
    | none => exact safe_pure _
    | some operand => exact (h operand).bind fun v => safe_pure _
  | ifStmt test body orelse =>
    exact (h test).bind fun v => (safe_truthy v).bind fun _ =>
      .ite (safe_all h'' body) (safe_all h'' orelse)
  | whileLoop test body =>
    exact safe_loop (fun _ => (h test).bind fun v => (safe_truthy v).bind fun _ =>
      .ite ((safe_all h'' body).bind fun _ => safe_pure _) (safe_pure _)) ()
  | forLoop target iter body =>
    exact (h iter).bind fun v => (safe_ofEval (steady_ask fun s => s.plain_iterate v)).bind fun it =>
      safe_loop (safe_forLoop h' h'' target body) it
  | globalStmt names | passStmt | breakStmt | continueStmt => exact safe_pure _
  | _ => exact safe_never

include called

theorem safe_store (depth : Nat) (id : NodeId) (v : Value) :
    Safe (Meaning.store c calls depth id v) := by
  induction depth generalizing id v with
  | zero => exact safe_never
  | succ depth ih =>
    unfold Meaning.store
    split
    · exact safe_target (safe_value calls called depth) ih v _
    · exact safe_never

theorem safe_perform (depth : Nat) (id : NodeId) : Safe (Meaning.perform c calls depth id) := by
  induction depth generalizing id with
  | zero => exact safe_never
  | succ depth ih =>
    unfold Meaning.perform
    split
    · exact safe_statement (safe_value calls called depth) (safe_store calls called depth) ih _ _
    · exact safe_never

end Meaning

end Scratchpad
