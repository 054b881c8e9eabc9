import Scratchpad.Proofs.Code.Compiled
import Scratchpad.Proofs.Code.Failures
import Scratchpad.Proofs.Tree.Built

/-!
# Why lowering is refused

Lowering fails because nodes nest too deep, or because something is wrong with the tree, and the error tells which
(`Reason`). Every step of lowering is gone through once (`refused_expression`, `refused_statement`): where it is
refused for nesting, the tree has not got the room, and where it is refused for anything else, the tree is not
shaped as it should be (`refused_ofTree`).
-/

namespace Scratchpad

/-! ### Room -/

section Room

variable {nodes : Array Node} {id x : NodeId} {n : Node} {t : Tree}

open Lower

theorem children_of_leftOperand? {kind : NodeKind} {left : NodeId} (h : leftOperand? kind = some left) :
    kind.children = left :: kind.children.tail := by
  cases kind with
  | binary | call | «attribute» | subscript =>
    cases h
    rfl
  | _ => cases h

/-- What a node mentions nests no deeper than the node. -/
theorem Nests.child (h : Nests nodes d id) (found : nodes[id]? = some n) :
    ∀ x ∈ n.kind.children, Nests nodes d x := by
  cases h with
  | node found' below =>
    cases found.symm.trans found'
    exact fun x mem => (below x mem).mono (Nat.le_succ _)
  | @chain d _ left _ found' first start others =>
    cases found.symm.trans found'
    intro x mem
    rw [children_of_leftOperand? first] at mem
    rcases List.mem_cons.mp mem with rfl | mem
    · exact start
    · exact (others x mem).mono (Nat.le_succ _)
  | elif found' kind decides below _ _ rest =>
    cases found.symm.trans found'
    rw [kind]
    intro x mem
    rcases List.mem_cons.mp mem with rfl | mem
    · exact decides.mono (Nat.le_succ _)
    · rcases List.mem_append.mp mem with mem | mem
      · exact (below x mem).mono (Nat.le_succ _)
      · rw [List.mem_singleton.mp mem]
        exact rest

/-- A node that is on no level with another is one level above those it mentions. -/
theorem Nests.under (h : Nests nodes (d + 1) id) (found : nodes[id]? = some n)
    (first : leftOperand? n.kind = none) (other : ∀ test body orelse, n.kind ≠ .ifStmt test body orelse) :
    ∀ x ∈ n.kind.children, Nests nodes d x := by
  cases h with
  | node found' below =>
    cases found.symm.trans found'
    exact below
  | chain found' left =>
    cases found.symm.trans found'
    rw [first] at left
    cases left
  | elif found' kind =>
    cases found.symm.trans found'
    exact absurd kind (other _ _ _)

/-- The chain of left operands is one level. -/
theorem Nests.spine {t : Tree} {last : NodeId} {head : Node} {outer : List Node}
    (below : Spine t id last head outer) (h : Nests t.nodes (d + 1) id) :
    (head.kind.isExpression = true → ∀ x ∈ head.kind.children, Nests t.nodes d x) ∧
      ∀ n ∈ outer, ∀ x ∈ n.kind.children.tail, Nests t.nodes d x := by
  induction below with
  | head found stop =>
    refine ⟨fun sort => h.under found stop fun test body orelse kind => ?_, nofun⟩
    rw [kind] at sort
    cases sort
  | @operation n left last head outer id found onLeft _ ih =>
    have both : Nests t.nodes (d + 1) left ∧ ∀ x ∈ n.kind.children.tail, Nests t.nodes d x := by
      cases h with
      | node found' below =>
        cases found.symm.trans found'
        exact ⟨(below left (mem_of_leftOperand? onLeft)).mono (Nat.le_succ _), fun x mem =>
          below x (List.mem_of_mem_tail mem)⟩
      | chain found' first start others =>
        cases found.symm.trans found'
        cases onLeft.symm.trans first
        exact ⟨start, others⟩
      | elif found' kind =>
        cases found.symm.trans found'
        rw [kind] at onLeft
        cases onLeft
    obtain ⟨first, others⟩ := ih both.1
    refine ⟨first, fun m mem => ?_⟩
    rcases List.mem_append.mp mem with mem | mem
    · exact others m mem
    · rw [List.mem_singleton.mp mem]
      exact both.2

/-- The blocks of an `if` are one level below it, but for an `else` that is an `elif`. -/
theorem Nests.branches {test : NodeId} (h : Nests nodes (d + 1) id) (found : nodes[id]? = some n)
    (kind : n.kind = .ifStmt test taken orelse) :
    (∀ x ∈ taken, Nests nodes d x) ∧ ((∀ x ∈ orelse, Nests nodes d x) ∨
      ∃ other n' test' body' orelse', orelse = [other] ∧ nodes[other]? = some n' ∧
        n'.kind = .ifStmt test' body' orelse') := by
  cases h with
  | node found' below =>
    cases found.symm.trans found'
    rw [kind] at below
    exact ⟨fun x mem => below x (List.mem_append_left _ (List.mem_cons_of_mem _ mem)),
      .inl fun x mem => below x (List.mem_append_right _ mem)⟩
  | chain found' left =>
    cases found.symm.trans found'
    rw [kind] at left
    cases left
  | elif found' kind' _ below next again =>
    cases found.symm.trans found'
    cases kind.symm.trans kind'
    exact ⟨below, .inr ⟨_, _, _, _, _, rfl, next, again⟩⟩

theorem Tree.Fits.nests (h : t.Fits d id) : Nests t.nodes d id := by
  induction d generalizing id with
  | zero => exact h.elim
  | succ d ih =>
    obtain ⟨kind, found, below⟩ := h
    obtain ⟨n, got, rfl⟩ := Option.map_eq_some_iff.mp found
    exact .node got fun x mem => ih (below x mem)

namespace Tree

/-- There is so much room for what hangs on a target or a statement. A place to store in takes one level more than
a place to read from: its object is no longer on its level. -/
def Roomy (t : Tree) (room : Nat) (id : NodeId) : Prop := t.Fits room id ∨ ∃ d, room = d + 1 ∧ Nests t.nodes d id

theorem Roomy.ne_zero (h : t.Roomy 0 id) : False := by
  rcases h with fits | ⟨d, none, -⟩
  · exact fits
  · cases none

theorem Roomy.nests (h : t.Roomy room id) : Nests t.nodes room id := by
  rcases h with fits | ⟨d, rfl, nests⟩
  · exact fits.nests
  · exact nests.mono (Nat.le_succ d)

theorem Roomy.below (h : t.Roomy room id) (found : t.get? id = some n) (mem : x ∈ n.kind.children) :
    t.Roomy room x := by
  rcases h with fits | ⟨d, rfl, nests⟩
  · exact .inl (fits.below (.single ⟨n.kind, kind?_of_get? found, mem⟩))
  · exact .inr ⟨d, rfl, nests.child found x mem⟩

theorem Roomy.child (h : t.Roomy (room + 1) id) (found : t.get? id = some n) (mem : x ∈ n.kind.children) :
    Nests t.nodes room x := by
  rcases h with fits | ⟨_, ⟨⟩, nests⟩
  · exact (fits.child (kind?_of_get? found) mem).nests
  · exact nests.child found x mem

theorem Roomy.under (h : t.Roomy (room + 1) id) (found : t.get? id = some n) (first : leftOperand? n.kind = none)
    (other : ∀ test body orelse, n.kind ≠ .ifStmt test body orelse) (mem : x ∈ n.kind.children) :
    t.Roomy room x := by
  rcases h with fits | ⟨_, ⟨⟩, nests⟩
  · exact .inl (fits.child (kind?_of_get? found) mem)
  · cases room with
    | zero => cases nests
    | succ d => exact .inr ⟨d, rfl, nests.under found first other x mem⟩

theorem Roomy.branches (h : t.Roomy (room + 1) id) (found : t.get? id = some n)
    (kind : n.kind = .ifStmt test taken orelse) :
    (∀ x ∈ taken, t.Roomy room x) ∧ ((∀ x ∈ orelse, t.Roomy room x) ∨
      ∃ other n' test' body' orelse', orelse = [other] ∧ t.get? other = some n' ∧
        n'.kind = .ifStmt test' body' orelse') := by
  rcases h with fits | ⟨_, ⟨⟩, nests⟩
  · have below (x : NodeId) (mem : x ∈ n.kind.children) := fits.child (kind?_of_get? found) mem
    rw [kind] at below
    exact ⟨fun x mem => .inl (below x (List.mem_append_left _ (List.mem_cons_of_mem _ mem))),
      .inl fun x mem => .inl (below x (List.mem_append_right _ mem))⟩
  · cases room with
    | zero => cases nests
    | succ d =>
      obtain ⟨first, others⟩ := nests.branches found kind
      exact ⟨fun x mem => .inr ⟨d, rfl, first x mem⟩, others.imp_left fun all x mem => .inr ⟨d, rfl, all x mem⟩⟩

end Tree

end Room

theorem Shaped.part {t : Tree} {id x : NodeId} (h : Shaped t role id) (found : t.get? id = some ⟨kind, place⟩)
    (mem : (role', x) ∈ role.below kind) : Shaped t role' x :=
  (h.inv (Lower.kind?_of_get? found)).2.2 _ mem

namespace Lower

/-! ### Reasons -/

/-- Nodes nest too deep, and there is not the room; or the error is not about nesting, and there is not the shape. -/
def Reason (room shape : Prop) (e : SyntaxError) : Prop :=
  (∃ span, e = .invalid (.tooNested .nodes) span) ∧ ¬ room ∨ NotNesting e ∧ ¬ shape

/-- Fails, if at all, for such a reason. -/
abbrev Refused (room shape : Prop) (y : Lower α) : Prop := Fails (Reason room shape) y

/-- Fails, if at all, because of what hangs on a node in its role. -/
abbrev RefusedAt (t : Tree) (role : Role) (room : Nat) (id : NodeId) (y : Lower α) : Prop :=
  Refused (t.Roomy room id) (Shaped t role id) y

section

variable {roomy shape : Prop} {c : Context} {id x : NodeId} {kind : NodeKind} {place : Span} {role : Role}

theorem Refused.above {roomy' shape' : Prop} {y : Lower α} (h : Refused roomy shape y) (room : roomy' → roomy)
    (part : shape' → shape) : Refused roomy' shape' y :=
  h.mono fun _ => Or.imp (And.imp_right (mt room)) (And.imp_right (mt part))

theorem refused_deep (h : ¬ roomy) (span : Span) : Refused roomy shape (fail (.tooNested .nodes) span : Lower α) :=
  fails_fail (.inl ⟨⟨span, rfl⟩, h⟩)

theorem refused_fail {v : Violation} (h : ¬ shape) (other : ∀ what, v ≠ .tooNested what) (span : Span) :
    Refused roomy shape (fail v span : Lower α) :=
  fails_fail (.inr ⟨by simpa [NotNesting] using other, h⟩)

theorem refused_node (part : shape → Shaped c.tree role id) (span : Span) : Refused roomy shape (node c span id) := by
  unfold node
  split
  · exact fails_pure _
  next missing =>
    refine refused_fail (fun h => ?_) (by simp) span
    obtain ⟨n, found⟩ := (part h).resolves
    rw [missing] at found
    cases found

/-! ### Expressions -/

/-- In a shaped tree the walk along left operands ends before its room does. -/
theorem refused_spine {n : Node} (found : c.tree.get? id = some n)
    (ends : shape → Shaped c.tree .expression id ∧ c.tree.Fits room id) (span : Span) (outer : List Node) :
    Refused roomy shape (spine c span outer room n) := by
  induction room generalizing id n outer with
  | zero =>
    unfold spine
    split
    · exact fails_pure _
    · exact refused_fail (fun h => (ends h).2) (by simp) _
  | succ room ih =>
    unfold spine
    split
    · exact fails_pure _
    next left onLeft =>
      have known := kind?_of_get? found
      have mem := mem_of_leftOperand? onLeft
      have next (h : shape) : Shaped c.tree .expression left ∧ c.tree.Fits room left :=
        ⟨(ends h).1.operand known mem, (ends h).2.child known mem⟩
      exact (refused_node (fun h => (next h).1) span).bind_of fun m _ _ resolved => ih (node_ok resolved).1 next _

/-- What hangs on the chain of left operands is shaped if the whole is. -/
theorem Spine.shaped {t : Tree} {last : NodeId} {head : Node} {outer : List Node}
    (below : Spine t id last head outer) (h : Shaped t .expression id) :
    (head.kind.isExpression = true ∧ leftOperand? head.kind = none ∧ t.Complete head.kind) ∧
      (∀ x ∈ head.kind.children, Shaped t .expression x) ∧
      ∀ n ∈ outer, leftOperand? n.kind ≠ none ∧ ∀ x ∈ n.kind.children, Shaped t .expression x := by
  induction below with
  | head found stop =>
    obtain ⟨sort, complete, -⟩ := h.inv (kind?_of_get? found)
    exact ⟨⟨sort, stop, complete⟩, fun x mem => h.operand (kind?_of_get? found) mem, by simp⟩
  | operation found onLeft inner ih =>
    have known := kind?_of_get? found
    obtain ⟨first, operands, others⟩ := ih (h.operand known (mem_of_leftOperand? onLeft))
    refine ⟨first, operands, fun n mem => ?_⟩
    rcases List.mem_append.mp mem with mem | mem
    · exact others n mem
    · rw [List.mem_singleton.mp mem]
      exact ⟨by simp [onLeft], fun x mem => h.operand known mem⟩

/-- Lowering an expression begins with the walk. -/
theorem refused_walk {f : Node × List Node → Lower α} (span : Span)
    (rest : ∀ last head outer, Spine c.tree id last head outer →
      Refused roomy (Shaped c.tree .expression id) (f (head, outer))) :
    Refused roomy (Shaped c.tree .expression id)
      (node c span id >>= fun n => spine c span [] c.tree.size n >>= f) := by
  refine (refused_node (fun h => h) span).bind_of fun n _ _ resolved => ?_
  have found := (node_ok resolved).1
  refine (refused_spine found (fun h => ⟨h, h.fits⟩) span []).bind_of fun ⟨head, outer⟩ _ _ walked => ?_
  obtain ⟨-, last, inner, rfl, below⟩ := spine_ok found walked
  rw [List.append_nil]
  exact rest last head inner below

theorem refused_expression (c : Context) (room : Nat) (span : Span) (pos : Nat) (id : NodeId) :
    Refused (Nests c.tree.nodes room id) (Shaped c.tree .expression id) (expression c room span pos id) := by
  induction room generalizing span pos id with
  | zero =>
    unfold expression
    refine refused_walk span fun last head outer below => refused_deep ?_ _
    rintro ⟨⟩
  | succ room ih =>
    unfold expression
    refine refused_walk span fun last head outer below => ?_
    refine (fails_operand (fun bad e other => .inr ⟨other, fun h => bad (below.shaped h).1⟩)
      (fun sort x mem span pos => ?_) _ pos).bind fun done => fails_foldlM (fun n listed done => ?_) done
    · exact (ih span pos x).above (fun h => (h.spine below).1 sort x mem) fun h => (below.shaped h).2.1 x mem
    · refine (fails_operation (fun none e other => .inr ⟨other, fun h => ((below.shaped h).2.2 n listed).1 none⟩)
        (fun x mem span pos => ?_) _ _).give
      exact (ih span pos x).above (fun h => (h.spine below).2 n listed x mem) fun h =>
        ((below.shaped h).2.2 n listed).2 x (List.mem_of_mem_tail mem)

/-! ### Targets -/

theorem mem_children_of_below (mem : (role', x) ∈ role.below kind) : x ∈ kind.children :=
  role.map_below kind ▸ List.mem_map_of_mem mem

/-- An expression that stands in a target or a statement. -/
theorem refused_read (found : c.tree.get? id = some ⟨kind, place⟩) (mem : (.expression, x) ∈ role.below kind)
    (span : Span) (pos : Nat) : RefusedAt c.tree role (room + 1) id (expression c room span pos x) :=
  (refused_expression c room span pos x).above (·.child found (mem_children_of_below mem)) (·.part found mem)

theorem refused_store (c : Context) (room : Nat) (span : Span) (pos : Nat) (id : NodeId) :
    RefusedAt c.tree .target room id (store c room span pos id) := by
  induction room generalizing span pos id with
  | zero =>
    unfold store
    exact (refused_node (fun h => h) span).bind fun n => refused_deep (·.ne_zero) _
  | succ room ih =>
    unfold store
    refine (refused_node (fun h => h) span).bind_of fun n _ _ resolved => ?_
    obtain ⟨kind, place⟩ := n
    have found := (node_ok resolved).1
    cases kind with
    | name name => exact fails_storeName c place name
    | subscript value index =>
      exact (fails_sequence (fun x mem => refused_read found (List.mem_map_of_mem mem) place) pos).give
    | «attribute» value attr =>
      exact (refused_read found List.mem_cons_self place pos).bind fun _ => (fails_nameIndex attr).give
    | tuple elts | list elts =>
      refine (fails_sequence (fun x mem pos => ?_) _).give
      exact (ih place pos x).above (·.under found rfl (by simp) mem) (·.part found (List.mem_map_of_mem mem))
    | _ =>
      refine refused_fail (fun h => ?_) (by simp) place
      cases (h.inv (kind?_of_get? found)).1

theorem refused_augmented {target value : NodeId} (found : c.tree.get? id = some ⟨.augAssign target op value, place⟩)
    (span : Span) (pos : Nat) :
    RefusedAt c.tree (.statement f l) (room + 1) id (augmented c room span pos target op value) := by
  have last (pos : Nat) : RefusedAt c.tree (.statement f l) (room + 1) id (expression c room span pos value) :=
    refused_read found (List.mem_cons_of_mem _ List.mem_cons_self) span pos
  have shaped (h : Shaped c.tree (.statement f l) id) : Shaped c.tree .augmented target :=
    h.part found List.mem_cons_self
  unfold augmented
  refine (refused_node shaped span).bind_of fun n _ _ resolved => ?_
  obtain ⟨kind, place'⟩ := n
  have found' := (node_ok resolved).1
  have read (x : NodeId) (mem : (.expression, x) ∈ Role.augmented.below kind) (pos : Nat) :
      RefusedAt c.tree (.statement f l) (room + 1) id (expression c room span pos x) :=
    (refused_expression c room span pos x).above
      (fun h => (h.child found List.mem_cons_self).child found' x (mem_children_of_below mem))
      fun h => (shaped h).part found' mem
  cases kind with
  | name name =>
    exact (fails_loadName c span name).bind fun _ => (last _).bind fun _ => (fails_storeName c span name).give
  | subscript container index =>
    exact (fails_sequence (fun x mem => read x (List.mem_map_of_mem mem)) pos).bind fun _ => (last _).give
  | «attribute» object attr =>
    exact (read object List.mem_cons_self pos).bind fun _ => (fails_nameIndex attr).bind fun _ => (last _).give
  | _ =>
    refine refused_fail (fun h => ?_) (by simp) place'
    cases ((shaped h).inv (kind?_of_get? found')).1

/-! ### Statements -/

def StmtRefused (room : Nat) (stmt : Stmt) : Prop :=
  ∀ c loop span pos id, RefusedAt c.tree (.statement c.isFunction loop.isSome) room id (stmt c loop span pos id)

variable {stmt : Stmt} {loop : Option Loop} (stmts : StmtRefused room stmt)

include stmts

theorem refused_body {ids : List NodeId} (rooms : ∀ x ∈ ids, roomy → c.tree.Roomy room x)
    (parts : ∀ x ∈ ids, shape → Shaped c.tree (.statement c.isFunction loop.isSome) x) (span : Span) (pos : Nat) :
    Refused roomy shape (sequence (stmt c loop span) pos ids) :=
  fails_sequence (fun x mem pos => (stmts c loop span pos x).above (rooms x mem) (parts x mem)) pos

theorem refused_ifChain (found : c.tree.get? id = some ⟨.ifStmt test taken orelse, place⟩)
    (ends : shape → Shaped c.tree (.statement c.isFunction loop.isSome) id ∧ c.tree.Fits chain id)
    (span : Span) (pos : Nat) : Refused (c.tree.Roomy (room + 1) id) shape
      (ifChain c room (fun span => sequence (stmt c loop span)) chain span pos test taken orelse) := by
  induction chain generalizing id test taken orelse place span pos with
  | zero | succ chain ih =>
    have parts {role : Role} {x : NodeId}
        (mem : (role, x) ∈ (Role.statement c.isFunction loop.isSome).below (.ifStmt test taken orelse)) (h : shape) :
        Shaped c.tree role x := (ends h).1.part found mem
    have block (x : NodeId) (mem : x ∈ taken ++ orelse) :=
      parts (List.mem_cons_of_mem (Role.expression, test) (List.mem_map_of_mem mem))
    have otherwise (rest : ¬ ∃ other n' test' body' orelse', orelse = [other] ∧ c.tree.get? other = some n' ∧
        n'.kind = .ifStmt test' body' orelse') (pos : Nat) :
        Refused (c.tree.Roomy (room + 1) id) shape (sequence (stmt c loop span) pos orelse) :=
      refused_body stmts (fun x mem h => (h.branches found rfl).2.resolve_right rest x mem)
        (fun x mem => block x (List.mem_append_right _ mem)) span pos
    unfold ifChain
    refine ((refused_expression c room span pos test).above (·.child found List.mem_cons_self)
      (parts List.mem_cons_self)).bind fun _ => ?_
    refine (refused_body stmts (fun x mem h => (h.branches found rfl).1 x mem)
      (fun x mem => block x (List.mem_append_left _ mem)) span _).bind fun _ => ?_
    rcases orelse with _ | ⟨other, _ | ⟨second, others⟩⟩
    · exact fails_pure _
    · have last := block other (by simp)
      refine Fails.bind_of (x := some <$> node c span other) (refused_node last span).give fun next _ _ resolved => ?_
      obtain ⟨⟨kind', place'⟩, got, rfl⟩ := map_ok resolved
      have found' := (node_ok got).1
      have child : other ∈ (NodeKind.ifStmt test taken [other]).children := by simp [NodeKind.children]
      cases kind' with
      | ifStmt test' taken' orelse' =>
        first
        | exact ((ih found' (fun h => ⟨last h, (ends h).2.child (kind?_of_get? found) child⟩) place' _).above
            (·.below found child) fun h => h).give
        | exact (refused_fail (fun h => (ends h).2) (by simp) _).give
      | _ =>
        refine (otherwise ?_ _).give
        rintro ⟨_, n', _, _, _, ⟨⟩, next, again⟩
        cases found'.symm.trans next
        cases again
    · refine (fails_pure (none : Option Node)).bind_of fun next _ _ given => ?_
      obtain ⟨rfl, -⟩ := pure_ok given
      exact (otherwise (by rintro ⟨_, _, _, _, _, ⟨⟩, _⟩) _).give

theorem refused_function (found : c.tree.get? id = some ⟨.functionDef name params body, place⟩) (span : Span) :
    Refuses (Reason (c.tree.Roomy (room + 1) id) (Shaped c.tree (.statement f l) id))
      (function c stmt span name params body) := by
  unfold function
  dsimp only
  split
  next param clash =>
    refine refuses_error (.inr ⟨by simp [NotNesting], fun h => (h.inv (kind?_of_get? found)).2.1 param ?_ ?_⟩)
    · exact List.mem_of_find?_eq_some clash
    · exact Scope.mem_global.mp (by simpa using List.find?_some clash)
  next =>
    refine Fails.finish (Fails.bind ?_ fun _ => (fails_loadLiteral span .none).give)
    exact refused_body (c := c.inner params body) stmts (fun x mem h => h.under found rfl (by simp) mem)
      (fun x mem h => h.part found (List.mem_map_of_mem mem)) span 0

omit stmts in
theorem refused_statement (room : Nat) : StmtRefused room (statement room) := by
  induction room with
  | zero =>
    intro c loop span pos id
    unfold statement
    exact (refused_node (fun h => h) span).bind fun n => refused_deep (·.ne_zero) _
  | succ room ih =>
    intro c loop span pos id
    unfold statement
    refine (refused_node (fun h => h) span).bind_of fun n _ _ resolved => ?_
    obtain ⟨kind, place⟩ := n
    have found := (node_ok resolved).1
    have store {x : NodeId} (mem : (.target, x) ∈ (Role.statement c.isFunction loop.isSome).below kind)
        (first : leftOperand? kind = none) (other : ∀ test body orelse, kind ≠ .ifStmt test body orelse) (span : Span)
        (pos : Nat) :
        RefusedAt c.tree (.statement c.isFunction loop.isSome) (room + 1) id (Lower.store c room span pos x) :=
      (refused_store c room span pos x).above (·.under found first other (mem_children_of_below mem)) (·.part found mem)
    cases kind with
    | exprStmt value => exact (refused_read found List.mem_cons_self place pos).give
    | assign targets value =>
      refine fails_guard (fun empty => .inr ⟨by simp [NotNesting], fun h => ?_⟩) ?_
      · exact (h.inv (kind?_of_get? found)).2.1 (List.isEmpty_iff.mp empty)
      · refine (refused_read found (List.mem_append_right _ List.mem_cons_self) place pos).bind fun _ => ?_
        refine (fails_storeAll (fun x mem => ?_) place _).give
        exact store (List.mem_append_left _ (List.mem_map_of_mem mem)) rfl (by simp)
    | augAssign target op value => exact refused_augmented found place pos
    | functionDef name params body =>
      exact (fails_lift (refused_function ih found place)).bind fun code => (fails_constant _).bind fun _ =>
        (fails_storeName c place name).give
    | returnStmt value =>
      refine fails_guard (fun outside => .inr ⟨by simp [NotNesting], fun h => ?_⟩) ?_
      · have inside : c.isFunction = true := (h.inv (kind?_of_get? found)).1
        simp [inside] at outside
      · cases value with
        | none => exact (fails_loadLiteral place .none).give
        | some value => exact (refused_read found List.mem_cons_self place pos).give
    | ifStmt test body orelse => exact refused_ifChain ih found (fun h => ⟨h, h.fits⟩) place pos
    | whileLoop test body =>
      exact (refused_read found List.mem_cons_self place pos).bind fun _ => (refused_body ih
        (fun x mem h => h.under found rfl (by simp) (List.mem_cons_of_mem _ mem))
        (fun x mem h => h.part found (List.mem_cons_of_mem _ (List.mem_map_of_mem mem))) place _).give
    | forLoop target iter body =>
      exact (refused_read found (List.mem_cons_of_mem _ List.mem_cons_self) place pos).bind fun _ =>
        (store List.mem_cons_self rfl (by simp) place _).bind fun _ => (refused_body ih
          (fun x mem h => h.under found rfl (by simp) (List.mem_cons_of_mem _ (List.mem_cons_of_mem _ mem)))
          (fun x mem h => h.part found (List.mem_cons_of_mem _ (List.mem_cons_of_mem _ (List.mem_map_of_mem mem))))
          place _).give
    | globalStmt | passStmt => exact fails_pure _
    | breakStmt | continueStmt =>
      cases loop with
      | none =>
        refine refused_fail (fun h => ?_) (by simp) place
        cases (h.inv (kind?_of_get? found)).1
      | some loop => exact fails_pure _
    | _ =>
      refine refused_fail (fun h => ?_) (by simp) place
      cases (h.inv (kind?_of_get? found)).1

end

/-! ### Whole trees -/

theorem notDeep_resolve (t : Tree) (id : NodeId) : Refuses NotNesting (resolve t id) := by
  unfold resolve
  split
  · exact refuses_ok _
  · exact refuses_error (by simp [NotNesting])

theorem notDeep_forIn {f : α → Except SyntaxError (ForInStep PUnit)} (h : ∀ a, Refuses NotNesting (f a))
    (as : List α) : Refuses NotNesting (forIn as PUnit.unit fun a _ => f a) := by
  induction as with
  | nil => exact refuses_ok _
  | cons a as ih =>
    rw [List.forIn_cons]
    refine (h a).bind fun r _ => ?_
    cases r with
    | done => exact refuses_ok _
    | yield => exact ih

theorem notDeep_topLevel (t : Tree) (mode : Mode) : Refuses NotNesting (topLevel t mode) := by
  unfold topLevel
  dsimp only
  split
  · exact refuses_ok _
  · refine Refuses.bind (notDeep_resolve t _) fun n _ => ?_
    split
    · exact refuses_error (by simp [NotNesting])
    · exact refuses_ok _
  · split
    · refine Refuses.bind (notDeep_forIn (fun id => ?_) _) fun _ _ => refuses_ok _
      refine Refuses.bind (notDeep_resolve t id) fun n _ => ?_
      split
      · exact Refuses.bind (notDeep_resolve t _) fun _ _ => refuses_error (by simp [NotNesting])
      · exact refuses_ok _
    · exact refuses_ok _
  · exact refuses_error (by simp [NotNesting])

theorem topLevel_of_wellFormed {t : Tree} {mode : Mode} (h : WellFormed t mode) :
    topLevel t mode = .ok t.body := by
  have reached : ∀ id ∈ t.body, ∃ kind, t.kind? id = some kind := fun id mem =>
    h.resolves id ⟨id, mem, .refl⟩
  have root := h.root
  have alone := h.alone
  have suits := h.suits
  obtain ⟨nodes, root'⟩ := t
  cases root' with
  | module body => cases root; rfl
  | expression id =>
    cases root
    obtain ⟨kind, found⟩ := reached id List.mem_cons_self
    have isExpr := suits .expression id kind (.top List.mem_cons_self) found
    obtain ⟨n, got, rfl⟩ := Option.map_eq_some_iff.mp found
    have noStatement : n.kind.isStatement = false := by
      simpa [Role.admits, NodeKind.isExpression] using isExpr
    refine except_bind_of_ok (resolve_eq_ok_iff.mpr got) ?_
    rw [noStatement]
    rfl
  | interactive body =>
    cases root
    match body with
    | [] | [_] => rfl
    | a :: b :: as =>
      refine (topLevel_single rfl).trans ?_
      refine except_bind_of_ok (several_ok_iff.mpr fun id mem => ?_) rfl
      obtain ⟨kind, found⟩ := reached id mem
      exact ⟨kind, found, alone rfl (by simp [Tree.body]) id mem kind found⟩

/-- A tree that is refused for nesting has a node at the top with too little room below it; a tree that is refused
for anything else is not well-formed. -/
theorem refused_ofTree (t : Tree) (mode : Mode) :
    Refuses (Reason (∀ id ∈ t.body, t.Roomy maxNesting id) (WellFormed t mode)) (Code.ofTree t mode) := by
  unfold Code.ofTree
  refine Refuses.bind (fun e failed => .inr ⟨notDeep_topLevel t mode e failed, fun h => ?_⟩) fun body top => ?_
  · rw [topLevel_of_wellFormed h] at failed
    cases failed
  obtain ⟨rfl, sort, -⟩ := topLevel_ok top
  refine Refuses.bind ?_ fun _ _ => refuses_ok _
  obtain ⟨nodes, root⟩ := t
  cases root with
  | expression body =>
    cases sort
    refine Fails.bind (fails_sequence (fun x mem pos => ?_) 0) (fun _ => fails_pure _) {}
    obtain rfl := List.mem_singleton.mp mem
    exact (refused_expression _ maxNesting {} pos x).above (fun h => (h x mem).nests) fun h =>
      h.shaped (.expression, x) List.mem_cons_self
  | module body | interactive body =>
    cases sort
    refine Fails.bind (fails_sequence (fun x mem pos => ?_) 0) (fun _ => (fails_loadLiteral {} .none).give) {}
    exact (refused_statement maxNesting _ none {} pos x).above (fun h => h x mem) fun h =>
      h.shaped (_, x) (List.mem_map_of_mem mem)

end Lower

end Scratchpad
