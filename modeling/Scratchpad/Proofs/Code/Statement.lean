import Scratchpad.Proofs.Code.Copies
import Scratchpad.Proofs.Code.Expression

/-!
# The code of statements

`Stores` and `Does` say which segments targets and statements become. An `elif` is a lone `if` in
the other branch, and the code is the same (`ifChain_does`), so neither has a rule for it.
-/

namespace Scratchpad.Lower

/-! ### Targets -/

/-- What there is to store to: a target, one after the other, or each a copy of one value. -/
inductive Sink where
  | target (id : NodeId)
  | targets (ids : List NodeId)
  | copies (span : Span) (ids : List NodeId)

inductive Stores (c : Context) : Sink → Tables → Nat → Segment → Tables → Prop where
  | name {id : NodeId} (found : c.tree.get? id = some ⟨.name name, span⟩)
      (store : storeName c span name t = .ok (s, t')) : Stores c (.target id) t pos s t'
  | subscript {id : NodeId} (found : c.tree.get? id = some ⟨.subscript value index, span⟩)
      (place : Makes c (.values [value, index]) t pos s t') :
      Stores c (.target id) t pos (s ++ [.op .storeSubscript span]) t'
  | attribute {id : NodeId} (found : c.tree.get? id = some ⟨.attribute value attr, span⟩)
      (object : Makes c (.value value) t pos s t') (entry : nameIndex attr t' = .ok (i, t'')) :
      Stores c (.target id) t pos (s ++ [.op (.storeAttr i) span]) t''
  | unpack {id : NodeId} (found : c.tree.get? id = some ⟨kind, span⟩)
      (several : kind = .tuple elts ∨ kind = .list elts)
      (items : Stores c (.targets elts) t (pos + 1) s t') :
      Stores c (.target id) t pos (.op (.unpack elts.length) span :: s) t'
  | none : Stores c (.targets []) t pos [] t
  | cons (first : Stores c (.target a) t pos s t')
      (rest : Stores c (.targets as) t' (pos + s.length) s' t'') :
      Stores c (.targets (a :: as)) t pos (s ++ s') t''
  | lastCopy (last : Stores c (.target a) t pos s t') : Stores c (.copies span [a]) t pos s t'
  | copy (first : Stores c (.target a) t (pos + 1) s t')
      (rest : Stores c (.copies span (b :: as)) t' (pos + 1 + s.length) s' t'') :
      Stores c (.copies span (a :: b :: as)) t pos (.op .dupTop span :: s ++ s') t''

theorem store_stores {c : Context} {id : NodeId} (h : store c room span pos id t = .ok (s, t')) :
    Stores c (.target id) t pos s t' := by
  induction room generalizing span pos id t s t' with
  | zero =>
    unfold store at h
    obtain ⟨n, t₁, resolved, h⟩ := bind_ok h
    exact (fail_ok h).elim
  | succ room ih =>
    unfold store at h
    obtain ⟨⟨kind, span'⟩, t₁, resolved, lowered⟩ := bind_ok h
    obtain ⟨found, rfl⟩ := node_ok resolved
    cases kind with
    | name name => exact .name found lowered
    | subscript value index =>
      obtain ⟨place, t₂, made, rest⟩ := bind_ok lowered
      obtain ⟨rfl, rfl⟩ := pure_ok rest
      exact .subscript found (sequence_makes (expression_makes c room) made)
    | «attribute» value attr =>
      obtain ⟨object, t₂, made, rest⟩ := bind_ok lowered
      obtain ⟨i, t₃, entry, rest⟩ := bind_ok rest
      obtain ⟨rfl, rfl⟩ := pure_ok rest
      exact .attribute found (expression_makes c room _ _ _ _ _ _ made) entry
    | tuple elts =>
      obtain ⟨items, t₂, stored, rest⟩ := bind_ok lowered
      obtain ⟨rfl, rfl⟩ := pure_ok rest
      exact .unpack found (.inl rfl) (sequence_ok (Q := fun ids => Stores c (.targets ids)) ih .none .cons stored)
    | list elts =>
      obtain ⟨items, t₂, stored, rest⟩ := bind_ok lowered
      obtain ⟨rfl, rfl⟩ := pure_ok rest
      exact .unpack found (.inr rfl) (sequence_ok (Q := fun ids => Stores c (.targets ids)) ih .none .cons stored)
    | _ => exact (fail_ok lowered).elim

theorem storeAll_stores {c : Context} {ids : List NodeId} (some : ids ≠ [])
    (h : storeAll c room span pos ids t = .ok (s, t')) :
    Stores c (.copies span ids) t pos s t' := by
  induction ids generalizing pos t s with
  | nil => exact (some rfl).elim
  | cons a as ih =>
    cases as with
    | nil => exact .lastCopy (store_stores h)
    | cons b as =>
      obtain ⟨first, t₁, lowered, h⟩ := bind_ok h
      obtain ⟨others, t₂, rest, h⟩ := bind_ok h
      obtain ⟨rfl, rfl⟩ := pure_ok h
      exact .copy (store_stores lowered) (ih (by simp) rest)

/-! ### Statements -/

/-- What there is to do: a statement, or several. -/
inductive Work where
  | statement (id : NodeId)
  | body (ids : List NodeId)

/-- The unit of a function inside another unit. -/
def Context.inner (c : Context) (params : List String) (body : List NodeId) : Context :=
  { c with isFunction := true, locals := Scope.locals params (Scope.ofBody c.tree body) }

inductive Does : Context → Option Loop → Work → Tables → Nat → Segment → Tables → Prop where
  | exprStmt {id : NodeId} (found : c.tree.get? id = some ⟨.exprStmt value, span⟩)
      (value : Makes c (.value value) t pos s t') :
      Does c loop (.statement id) t pos (s ++ [.op .pop span]) t'
  | assign {id : NodeId} (found : c.tree.get? id = some ⟨.assign targets value, span⟩)
      (nonempty : targets ≠ []) (value : Makes c (.value value) t pos s t')
      (stores : Stores c (.copies span targets) t' (pos + s.length) s' t'') :
      Does c loop (.statement id) t pos (s ++ s') t''
  | augName {id : NodeId} (found : c.tree.get? id = some ⟨.augAssign target op value, span⟩)
      (target : c.tree.get? target = some ⟨.name name, span'⟩)
      (load : loadName c span name t = .ok (s, t₁))
      (value : Makes c (.value value) t₁ (pos + s.length) s' t₂)
      (store : storeName c span name t₂ = .ok (s'', t₃)) :
      Does c loop (.statement id) t pos (s ++ s' ++ .op (.binary op) span :: s'') t₃
  | augSubscript {id : NodeId} (found : c.tree.get? id = some ⟨.augAssign target op value, span⟩)
      (target : c.tree.get? target = some ⟨.subscript container index, span'⟩)
      (place : Makes c (.values [container, index]) t pos s t')
      (value : Makes c (.value value) t' (pos + s.length + 2) s' t'') :
      Does c loop (.statement id) t pos
        (s ++ [.op .dupTwo span, .op .loadSubscript span] ++ s' ++
          [.op (.binary op) span, .op .rotThree span, .op .storeSubscript span]) t''
  | augAttribute {id : NodeId} (found : c.tree.get? id = some ⟨.augAssign target op value, span⟩)
      (target : c.tree.get? target = some ⟨.attribute object attr, span'⟩)
      (object : Makes c (.value object) t pos s t₁) (entry : nameIndex attr t₁ = .ok (i, t₂))
      (value : Makes c (.value value) t₂ (pos + s.length + 2) s' t₃) :
      Does c loop (.statement id) t pos
        (s ++ [.op .dupTop span, .op (.loadAttr i) span] ++ s' ++
          [.op (.binary op) span, .op .rotTwo span, .op (.storeAttr i) span]) t₃
  | functionDef {id : NodeId}
      (found : c.tree.get? id = some ⟨.functionDef name params body, span⟩)
      (lowered : function c (statement maxNesting) span name params body = .ok code)
      (noGlobal : params.find? (Scope.ofBody c.tree body).global.contains = none)
      (inside : Does (c.inner params body) none (.body body) {} 0 s₁ t₁)
      (last : constant (.literal .none) t₁ = .ok (j, t₂))
      (made : code = finish (c.inner params body) name params.length
        (s₁ ++ [.op (.loadConst j) span] ++ [.op .returnValue span]) t₂)
      (entry : constant (.code code) t = .ok (i, t'))
      (store : storeName c span name t' = .ok (s, t'')) :
      Does c loop (.statement id) t pos (.op (.makeFunction i) span :: s) t''
  | returnValue {id : NodeId} (found : c.tree.get? id = some ⟨.returnStmt (some value), span⟩)
      (inFunction : c.isFunction = true) (value : Makes c (.value value) t pos s t') :
      Does c loop (.statement id) t pos (s ++ [.op .returnValue span]) t'
  | returnNone {id : NodeId} (found : c.tree.get? id = some ⟨.returnStmt none, span⟩)
      (inFunction : c.isFunction = true) (entry : constant (.literal .none) t = .ok (i, t')) :
      Does c loop (.statement id) t pos [.op (.loadConst i) span, .op .returnValue span] t'
  | ifOnly {id : NodeId} (found : c.tree.get? id = some ⟨.ifStmt test taken [], span⟩)
      (test : Makes c (.value test) t pos s t')
      (taken : Does c loop (.body taken) t' (pos + s.length + 1) s' t'') :
      Does c loop (.statement id) t pos
        (s ++ .op (.popJumpIfFalse (pos + s.length + 1 + s'.length)) span :: s') t''
  | ifElse {id : NodeId} (found : c.tree.get? id = some ⟨.ifStmt test taken orelse, span⟩)
      (nonempty : orelse ≠ []) (test : Makes c (.value test) t pos s t₁)
      (taken : Does c loop (.body taken) t₁ (pos + s.length + 1) s' t₂)
      (orelse : Does c loop (.body orelse) t₂ (pos + s.length + 1 + s'.length + 1) s'' t₃) :
      Does c loop (.statement id) t pos
        (s ++ .op (.popJumpIfFalse (pos + s.length + 1 + s'.length + 1)) span :: s' ++
          .op (.jump (pos + s.length + 1 + s'.length + 1 + s''.length)) span :: s'') t₃
  | whileLoop {id : NodeId} (found : c.tree.get? id = some ⟨.whileLoop test body, span⟩)
      (test : Makes c (.value test) t pos s t')
      (body : Does c (some ⟨pos, false⟩) (.body body) t' (pos + s.length + 1) s' t'')
      (stopAt : stop = pos + s.length + 1 + s'.length + 1) :
      Does c loop (.statement id) t pos
        (s ++ .op (.popJumpIfFalse stop) span :: close stop s' ++ [.op (.jump pos) span]) t''
  | forLoop {id : NodeId} (found : c.tree.get? id = some ⟨.forLoop target iter body, span⟩)
      (iter : Makes c (.value iter) t pos s t₁) (againAt : again = pos + s.length + 1)
      (target : Stores c (.target target) t₁ (again + 1) s' t₂)
      (body : Does c (some ⟨again, true⟩) (.body body) t₂ (again + 1 + s'.length) s'' t₃)
      (stopAt : stop = again + 1 + s'.length + s''.length + 1) :
      Does c loop (.statement id) t pos
        (s ++ [.op .getIter span, .op (.forIter stop) span] ++ s' ++ close stop s'' ++
          [.op (.jump again) span]) t₃
  | globalStmt {id : NodeId} (found : c.tree.get? id = some ⟨.globalStmt names, span⟩) :
      Does c loop (.statement id) t pos [] t
  | passStmt {id : NodeId} (found : c.tree.get? id = some ⟨.passStmt, span⟩) :
      Does c loop (.statement id) t pos [] t
  | breakStmt {id : NodeId} (found : c.tree.get? id = some ⟨.breakStmt, span⟩) :
      Does c (some loop) (.statement id) t pos
        ((if loop.isFor then [.op .popIter span] else []) ++ [.leave span]) t
  | continueStmt {id : NodeId} (found : c.tree.get? id = some ⟨.continueStmt, span⟩) :
      Does c (some loop) (.statement id) t pos [.op (.jump loop.again) span] t
  | none : Does c loop (.body []) t pos [] t
  | cons (first : Does c loop (.statement a) t pos s t')
      (rest : Does c loop (.body as) t' (pos + s.length) s' t'') :
      Does c loop (.body (a :: as)) t pos (s ++ s') t''

/-! ### What is made -/

def Sink.nodes : Sink → List NodeId
  | .target id => [id]
  | .targets ids => ids
  | .copies _ ids => ids

theorem Stores.entered {R : Tables → Tables → Prop} (h : Stores c place t pos s t') (keeps : Tables.Entered P R)
    (names : c.tree.Names P) : R t t' := by
  induction h with
  | name found store => exact keeps.store (named_of_get? names found List.mem_cons_self) store
  | subscript _ made => exact made.entered keeps names
  | «attribute» found object entry =>
    exact keeps.trans (object.entered keeps names)
      (keeps.global (named_of_get? names found List.mem_cons_self) entry)
  | unpack _ _ _ ih | lastCopy _ ih => exact ih
  | none => exact keeps.refl _
  | cons _ _ ih ih' | copy _ _ ih ih' => exact keeps.trans ih ih'

theorem Stores.le (h : Stores c place t pos s t') : t.Le t' :=
  h.entered Tables.le_entered fun _ _ _ _ _ => trivial

theorem Stores.shaped (h : Stores c place tables pos s tables') :
    ∀ id ∈ place.nodes, Shaped c.tree .target id := by
  induction h with
  | name found => exact shaped_of_get? found rfl trivial (by simp [Role.below, NodeKind.children])
  | subscript found made => exact shaped_of_get? found rfl trivial (shaped_map made.shaped)
  | «attribute» found object => exact shaped_of_get? found rfl trivial (shaped_map object.shaped)
  | unpack found several _ ih =>
    rcases several with rfl | rfl
    · exact shaped_of_get? found rfl trivial (shaped_map ih)
    · exact shaped_of_get? found rfl trivial (shaped_map ih)
  | none => simp [Sink.nodes]
  | lastCopy _ ih => exact ih
  | cons _ _ ih ih' | copy _ _ ih ih' => exact shaped_append ih ih'

def Work.nodes : Work → List NodeId
  | .statement id => [id]
  | .body ids => ids

/-- Statements also enter the codes of functions. -/
theorem Does.entered {R : Tables → Tables → Prop} (h : Does c loop work t pos s t') (keeps : Tables.Entered P R)
    (codes : ∀ {code : Code} {t i t'}, constant (.code code) t = .ok (i, t') → R t t')
    (names : c.tree.Names P) : R t t' := by
  induction h with
  | exprStmt _ value | returnValue _ _ value => exact value.entered keeps names
  | assign _ _ value stores => exact keeps.trans (value.entered keeps names) (stores.entered keeps names)
  | augName _ target load value store =>
    have named := named_of_get? names target List.mem_cons_self
    exact keeps.trans (keeps.trans (keeps.load named load) (value.entered keeps names))
      (keeps.store named store)
  | augSubscript _ _ place value => exact keeps.trans (place.entered keeps names) (value.entered keeps names)
  | augAttribute _ target object entry value =>
    have named := named_of_get? names target List.mem_cons_self
    exact keeps.trans (keeps.trans (object.entered keeps names) (keeps.global named entry))
      (value.entered keeps names)
  | functionDef found _ _ _ _ _ entry store =>
    exact keeps.trans (codes entry) (keeps.store (named_of_get? names found List.mem_cons_self) store)
  | returnNone _ _ entry => exact keeps.literal entry
  | ifOnly _ test _ ih | whileLoop _ test _ _ ih => exact keeps.trans (test.entered keeps names) (ih names)
  | ifElse _ _ test _ _ ih ih' =>
    exact keeps.trans (keeps.trans (test.entered keeps names) (ih names)) (ih' names)
  | forLoop _ iter _ target _ _ ih =>
    exact keeps.trans (keeps.trans (iter.entered keeps names) (target.entered keeps names)) (ih names)
  | globalStmt | passStmt | breakStmt | continueStmt | none => exact keeps.refl _
  | cons _ _ ih ih' => exact keeps.trans (ih names) (ih' names)

theorem Does.le (h : Does c loop work t pos s t') : t.Le t' :=
  h.entered Tables.le_entered (fun entry => (constant_ok entry).1) fun _ _ _ _ _ => trivial

/-- The target of an augmented assignment is read and written; what it is made of is evaluated. -/
theorem shaped_augmented {t : Tree} {id target value : NodeId}
    (found : t.get? id = some ⟨.augAssign target op value, span⟩)
    (place : t.get? target = some ⟨kind, span'⟩) (suits : Role.augmented.admits kind = true)
    (below : ∀ x ∈ kind.children, Shaped t .expression x)
    (operand : ∀ x ∈ [value], Shaped t .expression x) :
    ∀ x ∈ [id], Shaped t (.statement f l) x := by
  have complete : t.Complete kind := by cases kind <;> trivial
  have read := shaped_of_get? place suits complete (shaped_map below)
  refine shaped_of_get? found rfl trivial ?_
  exact List.forall_mem_cons.mpr ⟨read target List.mem_cons_self, shaped_map operand⟩

theorem Does.shaped (h : Does c loop work tables pos s tables') :
    ∀ id ∈ work.nodes, Shaped c.tree (.statement c.isFunction loop.isSome) id := by
  induction h with
  | exprStmt found value => exact shaped_of_get? found rfl trivial (shaped_map value.shaped)
  | assign found nonempty value stores =>
    refine shaped_of_get? found rfl nonempty (List.forall_mem_append.mpr ⟨?_, ?_⟩)
    · exact shaped_map stores.shaped
    · exact shaped_map value.shaped
  | augName found target _ value =>
    exact shaped_augmented found target rfl (by simp [NodeKind.children]) value.shaped
  | augSubscript found target place value =>
    exact shaped_augmented found target rfl place.shaped value.shaped
  | augAttribute found target object _ value =>
    exact shaped_augmented found target rfl object.shaped value.shaped
  | functionDef found _ noGlobal _ _ _ _ _ ih =>
    refine shaped_of_get? found rfl (fun param mem declared => ?_) (shaped_map ih)
    have clash := List.find?_eq_none.mp noGlobal param mem
    exact clash (by simpa using Scope.mem_global.mpr declared)
  | returnValue found inFunction value =>
    exact shaped_of_get? found inFunction trivial (shaped_map value.shaped)
  | returnNone found inFunction =>
    exact shaped_of_get? found inFunction trivial (by simp [Role.below, NodeKind.children])
  | ifOnly found test _ ih =>
    refine shaped_of_get? found rfl trivial (List.forall_mem_cons.mpr ⟨?_, ?_⟩)
    · exact test.shaped _ List.mem_cons_self
    · rw [List.append_nil]
      exact shaped_map ih
  | ifElse found _ test _ _ ih ih' =>
    refine shaped_of_get? found rfl trivial (List.forall_mem_cons.mpr ⟨?_, ?_⟩)
    · exact test.shaped _ List.mem_cons_self
    · exact shaped_map (shaped_append ih ih')
  | whileLoop found test _ _ ih =>
    refine shaped_of_get? found rfl trivial (List.forall_mem_cons.mpr ⟨?_, ?_⟩)
    · exact test.shaped _ List.mem_cons_self
    · exact shaped_map ih
  | forLoop found iter _ target _ _ ih =>
    refine shaped_of_get? found rfl trivial (List.forall_mem_cons.mpr ⟨?_, ?_⟩)
    · exact target.shaped _ List.mem_cons_self
    · exact List.forall_mem_cons.mpr ⟨iter.shaped _ List.mem_cons_self, shaped_map ih⟩
  | globalStmt found | passStmt found | breakStmt found | continueStmt found =>
    exact shaped_of_get? found rfl trivial (by simp [Role.below, NodeKind.children])
  | none => simp [Work.nodes]
  | cons _ _ ih ih' => exact shaped_append ih ih'

/-! ### What lowering makes -/

/-- Lowering with `stmt` makes what `Does` says. -/
def SoundStmt (stmt : Stmt) : Prop :=
  ∀ c loop span pos id t s t', stmt c loop span pos id t = .ok (s, t') →
    Does c loop (.statement id) t pos s t'

theorem sequence_does {stmt : Stmt} (sound : SoundStmt stmt) {ids : List NodeId}
    (h : sequence (stmt c loop span) pos ids t = .ok (s, t')) :
    Does c loop (.body ids) t pos s t' :=
  sequence_ok (P := fun id => Does c loop (.statement id))
    (Q := fun ids => Does c loop (.body ids)) (sound _ _ _ _ _ _ _ _) .none .cons h

theorem augmented_does {id target : NodeId} {op : BinaryOp} {value : NodeId}
    (found : c.tree.get? id = some ⟨.augAssign target op value, span⟩)
    (h : augmented c room span pos target op value t = .ok (s, t')) :
    Does c loop (.statement id) t pos s t' := by
  unfold augmented at h
  obtain ⟨⟨kind, span'⟩, t₁, resolved, lowered⟩ := bind_ok h
  obtain ⟨foundTarget, rfl⟩ := node_ok resolved
  have expr := expression_makes c room
  cases kind with
  | name name =>
    obtain ⟨load, t₂, loaded, rest⟩ := bind_ok lowered
    obtain ⟨first, t₃, made, rest⟩ := bind_ok rest
    obtain ⟨last, t₄, stored, rest⟩ := bind_ok rest
    obtain ⟨rfl, rfl⟩ := pure_ok rest
    exact .augName found foundTarget loaded (expr _ _ _ _ _ _ made) stored
  | subscript container index =>
    obtain ⟨place, t₂, placed, rest⟩ := bind_ok lowered
    obtain ⟨first, t₃, made, rest⟩ := bind_ok rest
    obtain ⟨rfl, rfl⟩ := pure_ok rest
    exact .augSubscript found foundTarget (sequence_makes expr placed) (expr _ _ _ _ _ _ made)
  | «attribute» object attr =>
    obtain ⟨place, t₂, placed, rest⟩ := bind_ok lowered
    obtain ⟨i, t₃, entry, rest⟩ := bind_ok rest
    obtain ⟨first, t₄, made, rest⟩ := bind_ok rest
    obtain ⟨rfl, rfl⟩ := pure_ok rest
    exact .augAttribute found foundTarget (expr _ _ _ _ _ _ placed) entry (expr _ _ _ _ _ _ made)
  | _ => exact (fail_ok lowered).elim

theorem ifChain_does {stmt : Stmt} (sound : SoundStmt stmt) {id test : NodeId}
    {taken orelse : List NodeId} (found : c.tree.get? id = some ⟨.ifStmt test taken orelse, span⟩)
    (h : ifChain c room (fun span => sequence (stmt c loop span)) chain span pos test taken orelse t =
      .ok (s, t')) : Does c loop (.statement id) t pos s t' := by
  induction chain using Nat.strongRecOn generalizing id test taken orelse span pos t s t' with
  | ind chain ih =>
    unfold ifChain at h
    obtain ⟨first, t₁, tested, h₁⟩ := bind_ok h
    obtain ⟨second, t₂, body, h₂⟩ := bind_ok h₁
    have made := expression_makes c room _ _ _ _ _ _ tested
    have done := sequence_does sound body
    rcases orelse with _ | ⟨only, _ | ⟨b, as⟩⟩
    · obtain ⟨rfl, rfl⟩ := pure_ok h₂
      exact .ifOnly found made done
    · obtain ⟨next, t₃, looked, h₃⟩ := bind_ok h₂
      obtain ⟨⟨kind, span'⟩, resolved, rfl⟩ := map_ok looked
      obtain ⟨foundElse, rfl⟩ := node_ok resolved
      cases kind with
      | ifStmt test' taken' orelse' =>
        cases chain with
        | zero =>
          obtain ⟨_, _, failed, _⟩ := bind_ok h₃
          exact (fail_ok failed).elim
        | succ chain =>
          obtain ⟨others, t₄, rest, h₄⟩ := bind_ok h₃
          obtain ⟨rfl, rfl⟩ := pure_ok h₄
          -- The code of a lone `if` in the other branch is that of a branch with one statement.
          have inner := Does.cons (ih chain (Nat.lt_succ_self chain) foundElse rest) .none
          rw [List.append_nil] at inner
          exact .ifElse found (by simp) made done inner
      | _ =>
        obtain ⟨others, t₄, rest, h₄⟩ := bind_ok h₃
        obtain ⟨rfl, rfl⟩ := pure_ok h₄
        exact .ifElse found (by simp) made done (sequence_does sound rest)
    · obtain ⟨next, t₃, looked, h₃⟩ := bind_ok h₂
      obtain ⟨rfl, rfl⟩ := pure_ok looked
      obtain ⟨others, t₄, rest, h₄⟩ := bind_ok h₃
      obtain ⟨rfl, rfl⟩ := pure_ok h₄
      exact .ifElse found (by simp) made done (sequence_does sound rest)

theorem whileLoop_does {stmt : Stmt} (sound : SoundStmt stmt) {id test : NodeId}
    {body : List NodeId} (found : c.tree.get? id = some ⟨.whileLoop test body, span⟩)
    (h : whileLoop c room stmt span pos test body t = .ok (s, t')) :
    Does c loop (.statement id) t pos s t' := by
  obtain ⟨first, t₁, tested, h⟩ := bind_ok h
  obtain ⟨second, t₂, rest, h⟩ := bind_ok h
  obtain ⟨rfl, rfl⟩ := pure_ok h
  exact .whileLoop found (expression_makes c room _ _ _ _ _ _ tested) (sequence_does sound rest) rfl

theorem forLoop_does {stmt : Stmt} (sound : SoundStmt stmt) {id target iter : NodeId}
    {body : List NodeId} (found : c.tree.get? id = some ⟨.forLoop target iter body, span⟩)
    (h : forLoop c room stmt span pos target iter body t = .ok (s, t')) :
    Does c loop (.statement id) t pos s t' := by
  obtain ⟨first, t₁, made, h⟩ := bind_ok h
  obtain ⟨second, t₂, stored, h⟩ := bind_ok h
  obtain ⟨third, t₃, rest, h⟩ := bind_ok h
  obtain ⟨rfl, rfl⟩ := pure_ok h
  exact .forLoop found (expression_makes c room _ _ _ _ _ _ made) rfl (store_stores stored)
    (sequence_does sound rest) rfl

/-- What the code of a function is made of. -/
theorem function_ok {stmt : Stmt} (sound : SoundStmt stmt) {params : List String}
    {body : List NodeId} (h : function c stmt span name params body = .ok code) :
    params.find? (Scope.ofBody c.tree body).global.contains = none ∧
      ∃ s₁ t₁ j t₂, Does (c.inner params body) none (.body body) {} 0 s₁ t₁ ∧
        constant (.literal .none) t₁ = .ok (j, t₂) ∧
        code = finish (c.inner params body) name params.length
          (s₁ ++ [.op (.loadConst j) span] ++ [.op .returnValue span]) t₂ := by
  unfold function at h
  dsimp only at h
  cases clash : params.find? (Scope.ofBody c.tree body).global.contains with
  | some param => rw [clash] at h; cases h
  | none =>
    rw [clash] at h
    obtain ⟨⟨segment, tables⟩, lowered, finished⟩ := except_bind_ok h
    cases finished
    obtain ⟨s₁, t₁, done, rest⟩ := bind_ok lowered
    obtain ⟨last, t₂, loaded, rest⟩ := bind_ok rest
    obtain ⟨j, t₃, entry, loaded⟩ := bind_ok loaded
    obtain ⟨rfl, rfl⟩ := pure_ok loaded
    obtain ⟨rfl, rfl⟩ := pure_ok rest
    exact ⟨rfl, s₁, t₁, j, _, sequence_does sound done, entry, rfl⟩

theorem statement_does (enough : room ≤ maxNesting) : SoundStmt (statement room) := by
  induction room with
  | zero =>
    intro c loop span pos id t s t' h
    unfold statement at h
    obtain ⟨n, t₁, resolved, h₁⟩ := bind_ok h
    exact (fail_ok h₁).elim
  | succ room ih =>
    intro c loop span pos id t s t' h
    unfold statement at h
    obtain ⟨⟨kind, span'⟩, t₁, resolved, lowered⟩ := bind_ok h
    obtain ⟨found, rfl⟩ := node_ok resolved
    have expr := expression_makes c room
    have ih := ih (Nat.le_of_succ_le enough)
    cases kind with
    | exprStmt value =>
      obtain ⟨first, t₂, made, rest⟩ := bind_ok lowered
      obtain ⟨rfl, rfl⟩ := pure_ok rest
      exact .exprStmt found (expr _ _ _ _ _ _ made)
    | assign targets value =>
      obtain ⟨some, rest⟩ := guard_ok lowered
      obtain ⟨first, t₂, made, rest⟩ := bind_ok rest
      obtain ⟨others, t₃, stored, rest⟩ := bind_ok rest
      obtain ⟨rfl, rfl⟩ := pure_ok rest
      have nonempty : targets ≠ [] := by simpa using some
      exact .assign found nonempty (expr _ _ _ _ _ _ made) (storeAll_stores nonempty stored)
    | augAssign target op value => exact augmented_does found lowered
    | functionDef name params body =>
      obtain ⟨code, t₂, built, rest⟩ := bind_ok lowered
      obtain ⟨compiled, rfl⟩ := lift_ok built
      obtain ⟨i, t₃, entry, rest⟩ := bind_ok rest
      obtain ⟨last, t₄, stored, rest⟩ := bind_ok rest
      obtain ⟨rfl, rfl⟩ := pure_ok rest
      obtain ⟨noGlobal, s₁, t₁, j, t₂, inside, none, made⟩ := function_ok ih compiled
      have widest := function_mono (Nat.le_of_succ_le enough) (fun x mem => (inside.shaped x mem).finite) compiled
      exact .functionDef found widest noGlobal inside none made entry stored
    | returnStmt value =>
      obtain ⟨outside, rest⟩ := guard_ok lowered
      have inFunction : c.isFunction = true := by simpa using outside
      cases value with
      | none =>
        obtain ⟨first, t₂, loaded, rest⟩ := bind_ok rest
        obtain ⟨i, t₃, entry, loaded⟩ := bind_ok loaded
        obtain ⟨rfl, rfl⟩ := pure_ok loaded
        obtain ⟨rfl, rfl⟩ := pure_ok rest
        exact .returnNone found inFunction entry
      | some value =>
        obtain ⟨first, t₂, made, rest⟩ := bind_ok rest
        obtain ⟨rfl, rfl⟩ := pure_ok rest
        exact .returnValue found inFunction (expr _ _ _ _ _ _ made)
    | ifStmt test body orelse => exact ifChain_does ih found lowered
    | whileLoop test body => exact whileLoop_does ih found lowered
    | forLoop target iter body => exact forLoop_does ih found lowered
    | globalStmt names =>
      obtain ⟨rfl, rfl⟩ := pure_ok lowered
      exact .globalStmt found
    | passStmt =>
      obtain ⟨rfl, rfl⟩ := pure_ok lowered
      exact .passStmt found
    | breakStmt =>
      cases loop with
      | none => exact (fail_ok lowered).elim
      | some loop =>
        obtain ⟨rfl, rfl⟩ := pure_ok lowered
        exact .breakStmt found
    | continueStmt =>
      cases loop with
      | none => exact (fail_ok lowered).elim
      | some loop =>
        obtain ⟨rfl, rfl⟩ := pure_ok lowered
        exact .continueStmt found
    | _ => exact (fail_ok lowered).elim

end Scratchpad.Lower
