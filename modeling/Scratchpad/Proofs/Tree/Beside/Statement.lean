import Scratchpad.Proofs.Tree.Beside.Expression

/-!
# Statements with more tokens behind

A statement ends with its line or with its block. After that it is seen whether an `else` follows, so
that what follows must not start with one. The blocks that the end of the text closes may have one
newline more before they are closed (`echoes_blockLoop`).
-/

namespace Scratchpad.Parse

open Token (isLayout Closed)

variable {base : List NodeKind} {after : List Token} {inner : Inner} {t : Token}
  {s s' : State} {front : List Token}

/-! ### Targets -/

theorem echoes_forM {I : State → State → Prop} {check check' : NodeId → Parse Unit}
    (each : ∀ id, Echoes I (check id) (check' (base.length + id)) (Gives Whatever I)) (ids : List NodeId) :
    Echoes I (ids.forM check) ((ids.map (base.length + ·)).forM check') (Gives Whatever I) := by
  induction ids with
  | nil => exact echoes_pure trivial
  | cons id ids ih => exact (each id).bind fun _ _ _ => ih

/-- What can be assigned to in the first run can be in the second. -/
theorem echoes_checkTarget {F : List Token → Prop} (depth depth' : Nat) (id : NodeId) :
    Echoes (Stands F base after) (checkTarget depth id) (checkTarget depth' (base.length + id))
      (Gives Whatever (Stands F base after)) := by
  induction depth generalizing depth' id with
  | zero => exact echoes_fail
  | succ depth ih =>
    cases depth' with
    | zero => exact fun _ _ _ _ _ _ lasts => absurd rfl (lasts none)
    | succ depth' =>
      refine (echoes_node id).bind fun o o' same => ?_
      match o, o', same with
      | none, none, _ => exact echoes_pure trivial
      | some ⟨kind, span⟩, some ⟨kind', span'⟩, same =>
        cases Option.some.inj same
        cases kind with
        | name | subscript | «attribute» => exact echoes_pure trivial
        | tuple elts | list elts => exact echoes_forM (ih depth') elts
        | _ => exact echoes_fail

theorem echoes_requireTarget {F : List Token → Prop} (id : NodeId) :
    Echoes (Stands F base after) (requireTarget id) (requireTarget (base.length + id))
      (Gives Whatever (Stands F base after)) :=
  fun s s' => echoes_checkTarget _ _ id s s'

theorem canAugment_rename (ρ : NodeId → NodeId) (kind : NodeKind) :
    canAugment (kind.rename ρ) = canAugment kind := by
  cases kind <;> rfl

section Statements

variable (echoing : inner.Echoing base after)

include echoing

theorem echoes_targetList : EchoesOne base after (targetList inner) :=
  echoes_commaList (echoes_commaThen fun o => o ≠ some (.keyword .inKw)) (echoes_sum echoing)

/-! ### Lines -/

theorem echoes_augmented {target : NodeId} (op : BinaryOp) (inLine : isLayout t = false) :
    Echoes (At t base after) (augmented inner target op) (augmented inner (base.length + target) op)
      (Gives (Shift base) (Inside base after)) := by
  have rest : Echoes (At t base after)
      (advance >>= fun _ => testList inner >>= fun value =>
        pushBetween (.augAssign target op value) target value)
      (advance >>= fun _ => testList inner >>= fun value =>
        pushBetween (.augAssign (base.length + target) op value) (base.length + target) value)
      (Gives (Shift base) (Inside base after)) := by
    refine (echoes_advance_at inLine).bind fun _ _ _ => (echoes_testList echoing).bind
      fun value _ same => ?_
    subst same
    exact echoes_pushBetween (.augAssign target op value) _ _ _ _
  refine (echoes_node target).bind fun o o' same => ?_
  match o, o', same with
  | none, none, _ => exact rest
  | some node, some node', same =>
    have kind : node'.kind = node.kind.rename (base.length + ·) := Option.some.inj same
    dsimp only
    rw [kind, canAugment_rename]
    refine echoes_ite (fun _ => ?_) fun _ => rest
    exact echoes_peekSpan.bind fun _ _ _ => echoes_failThen

omit echoing in
theorem augmentedOp?_layout {op : BinaryOp} (h : augmentedOp? (some t) = some op) : isLayout t = false := by
  unfold augmentedOp? at h
  split at h <;> first | (cases ‹some t = _›; rfl) | cases h

theorem echoes_assignment {first : NodeId} : Echoes (Inside base after) (assignment inner first)
    (assignment inner (base.length + first)) (Gives (Shift base) (Inside base after)) := by
  refine (echoes_more (R := ShiftAll base) (echoes_eatOnly rfl) (echoes_testList echoing) ShiftAll.snoc
    (show ShiftAll base [first] [base.length + first] from rfl)).bind fun chain _ same => ?_
  have last : (chain.map (base.length + ·)).getLastD (base.length + first) =
      base.length + chain.getLastD first := by
    rw [List.getLastD_eq_getLast?, List.getLastD_eq_getLast?, List.getLast?_map]
    cases chain.getLast? <;> rfl
  rw [same, last, ← List.map_dropLast]
  exact (echoes_forM echoes_requireTarget _).bind fun _ _ _ =>
    echoes_pushBetween (.assign chain.dropLast (chain.getLastD first)) _ _ _ _

theorem echoes_expressionStatement : EchoesOne base after (expressionStatement inner) := by
  refine (echoes_testList echoing).bind fun first _ same => ?_
  subst same
  refine echoes_peek fun t => ?_
  cases seen : augmentedOp? (some t) with
  | some op => exact echoes_augmented echoing op (augmentedOp?_layout seen)
  | none =>
    refine echoes_peek_at (echoes_ite (fun _ => (echoes_assignment echoing).inside) fun _ => Echoes.inside ?_)
    exact (echoes_spanOf first _).bind fun _ _ _ => echoes_push (.exprStmt first) _ _

theorem echoes_returnStatement : Echoes (At (.keyword .returnKw) base after) (returnStatement inner)
    (returnStatement inner) (Gives (Shift base) (Inside base after)) := by
  refine (echoes_advance_at rfl).bind fun _ _ _ => echoes_peek fun t => Echoes.inside ?_
  have bare (span span' : Span) : Echoes (Inside base after) (push (.returnStmt none) span)
      (push (.returnStmt none) span') (Gives (Shift base) (Inside base after)) :=
    echoes_push (.returnStmt none) _ _
  have valued (span span' : Span) : Echoes (Inside base after)
      (testList inner >>= fun value => spanOf value >>= fun last =>
        push (.returnStmt (some value)) (span.merge last))
      (testList inner >>= fun value => spanOf value >>= fun last =>
        push (.returnStmt (some value)) (span'.merge last))
      (Gives (Shift base) (Inside base after)) := by
    refine (echoes_testList echoing).bind fun value _ same => ?_
    subst same
    exact (echoes_spanOf _ _).bind fun _ _ _ => echoes_push (.returnStmt (some value)) _ _
  cases t with
  | newline => exact bare _ _
  | symbol y =>
    cases y with
    | semicolon => exact bare _ _
    | _ => exact valued _ _
  | _ => exact valued _ _

omit echoing in
theorem echoes_globalStatement : Echoes (At (.keyword .globalKw) base after) globalStatement
    globalStatement (Gives (Shift base) (Inside base after)) := by
  refine (echoes_advance_at rfl).bind fun _ _ _ => echoes_expectName.bind fun first first' same => ?_
  refine (echoes_more (R := fun names names' => names'.map (·.1) = names.map (·.1)) (echoes_eatOnly rfl)
    echoes_expectName (fun all last => ?_) ?_).bind fun names names' same => ?_
  · rw [List.map_append, List.map_append, all, List.map_singleton, List.map_singleton, last]
  · rw [List.map_singleton, List.map_singleton, same]
  · rw [same]
    exact echoes_push (.globalStmt (names.map (·.1))) _ _

theorem echoes_smallStatement : EchoesOne base after (smallStatement inner) := by
  refine echoes_peek fun t => ?_
  have other := (echoes_expressionStatement echoing).inside (t := t)
  cases t with
  | keyword k =>
    cases k with
    | passKw => exact echoes_leaf .passStmt rfl rfl
    | breakKw => exact echoes_leaf .breakStmt rfl rfl
    | continueKw => exact echoes_leaf .continueStmt rfl rfl
    | returnKw => exact echoes_returnStatement echoing
    | globalKw => exact echoes_globalStatement
    | _ => exact other
  | _ => exact other

omit echoing in
theorem echoes_advance_any : Echoes (At t base after) advance advance
    (Gives Whatever (Loose base after)) :=
  echoes_advance fun _ ⟨rest, same, closed⟩ => ⟨t, rest, same, closed_tail (same ▸ closed)⟩

/-- A line in the text has its newline. -/
theorem echoes_simpleStatements : EchoesAll base after (simpleStatements inner) := by
  refine (echoes_smallStatement echoing).bind fun first _ same => ?_
  subst same
  refine (echoes_more (R := ShiftAll base) ?_ (echoes_smallStatement echoing) ShiftAll.snoc rfl).bind
    fun ids _ same => ?_
  · refine echoes_eat rfl ?_ (echoes_pure rfl)
    refine echoes_peek fun t => Echoes.inside ?_
    cases t <;> exact echoes_pure rfl
  · subst same
    refine echoes_peek fun t => ?_
    cases t with
    | newline => exact echoes_advance_any.bind fun _ _ _ => echoes_pure rfl
    | _ => exact echoes_peekSpan.bind fun _ _ _ => echoes_fail

/-! ### Blocks -/

omit echoing in
theorem endOf_eq (body : List NodeId) (s : State) : ∃ span, endOf body s = .ok (span, s) := by
  unfold endOf
  cases body.getLast? with
  | some id => exact spanOf_eq id s
  | none => exact ⟨{}, rfl⟩

omit echoing in
theorem echoes_endOf {I : State → State → Prop} (body body' : List NodeId) :
    Echoes I (endOf body) (endOf body') (Gives Whatever I) := by
  intro s s' span s₁ start done _
  obtain rfl := endOf_ok done
  obtain ⟨span', done'⟩ := endOf_eq body' s'
  exact ⟨span', s', done', trivial, start⟩

theorem echoes_block : Echoes (Inside base after) (block inner) (block inner)
    (Gives (fun a b => ShiftAll base a.1 b.1) (Loose base after)) := by
  refine (echoes_expect rfl).bind fun _ _ _ => echoing.block.bind fun body body' same => ?_
  exact (echoes_endOf body body').bind fun _ _ _ => echoes_pure same

omit echoing in
theorem echoes_parameter (params : List String) : Echoes (Inside base after) (parameter params)
    (parameter params) (Gives Eq (Inside base after)) := by
  refine echoes_expectName.bind fun named named' same => ?_
  obtain ⟨name, span⟩ := named
  obtain ⟨_, span'⟩ := named'
  cases same
  exact echoes_ite (fun _ => echoes_failThen) fun _ => echoes_pure rfl

theorem echoes_functionDef : Echoes (At (.keyword .defKw) base after) (functionDef inner)
    (functionDef inner) (Gives (Shift base) (Loose base after)) := by
  refine (echoes_advance_at rfl).bind fun _ _ _ => echoes_expectName.bind fun named named' same => ?_
  obtain ⟨name, span⟩ := named
  obtain ⟨_, span'⟩ := named'
  cases same
  refine (echoes_expect rfl).bind fun _ _ _ => ?_
  refine (echoes_itemsBefore (R := Eq) _ (fun params _ same => ?_) rfl).bind fun params _ same => ?_
  · subst same
    exact (echoes_parameter params).mono (fun _ _ => id) fun _ _ _ _ ⟨one, stands⟩ => ⟨one ▸ rfl, stands⟩
  · subst same
    refine (echoes_expect rfl).bind fun _ _ _ => (echoes_block echoing).bind fun body body' same => ?_
    obtain ⟨body, stop⟩ := body
    obtain ⟨_, stop'⟩ := body'
    cases same
    exact echoes_push (.functionDef name params body) _ _

theorem echoes_whileStatement : Echoes (At (.keyword .whileKw) base after) (whileStatement inner)
    (whileStatement inner) (Gives (Shift base) (Loose base after)) := by
  refine (echoes_advance_at rfl).bind fun _ _ _ => (echoes_namedTest echoing).bind fun test _ same => ?_
  subst same
  refine (echoes_block echoing).bind fun body body' same => ?_
  obtain ⟨body, stop⟩ := body
  obtain ⟨_, stop'⟩ := body'
  cases same
  exact echoes_push (.whileLoop test body) _ _

theorem echoes_forStatement : Echoes (At (.keyword .forKw) base after) (forStatement inner)
    (forStatement inner) (Gives (Shift base) (Loose base after)) := by
  refine (echoes_advance_at rfl).bind fun _ _ _ => (echoes_targetList echoing).bind fun target _ same => ?_
  subst same
  refine (echoes_requireTarget target).bind fun _ _ _ => ?_
  refine (echoes_expect rfl).bind fun _ _ _ => (echoes_testList echoing).bind fun iter _ same => ?_
  subst same
  refine (echoes_block echoing).bind fun body body' same => ?_
  obtain ⟨body, stop⟩ := body
  obtain ⟨_, stop'⟩ := body'
  cases same
  exact echoes_push (.forLoop target iter body) _ _

/-! ### Branches -/

omit echoing in
/-- The same branch in the second run. -/
structure ShiftBranch (base : List NodeKind) (b b' : Branch) : Prop where
  test : Shift base b.test b'.test
  body : ShiftAll base b.body b'.body

theorem echoes_branch (inLine : isLayout t = false) : Echoes (At t base after) (branch inner)
    (branch inner) (Gives (ShiftBranch base) (Loose base after)) := by
  refine (echoes_advance_at inLine).bind fun _ _ _ => (echoes_namedTest echoing).bind fun test _ same => ?_
  exact (echoes_block echoing).bind fun body body' shifted => echoes_pure ⟨same, shifted⟩

omit echoing in
theorem echoes_pushBranches (stop stop' : Span) (orelse : List NodeId) {bs bs' : List Branch}
    (same : List.Forall₂ (ShiftBranch base) bs bs') :
    Echoes (Loose base after) (pushBranches stop orelse bs)
      (pushBranches stop' (orelse.map (base.length + ·)) bs')
      (Gives (ShiftAll base) (Loose base after)) := by
  induction same with
  | nil => exact echoes_pure rfl
  | @cons b b' bs bs' first _ ih =>
    obtain ⟨start, test, body, last⟩ := b
    obtain ⟨start', _, _, last'⟩ := b'
    obtain ⟨rfl, rfl⟩ := first
    refine ih.bind fun others _ same => ?_
    subst same
    refine (echoes_push (.ifStmt test body others) _ _).bind fun id _ same => ?_
    subst same
    exact echoes_pure rfl

omit echoing in
/-- A keyword that what follows does not start with. -/
theorem echoes_eat_loose {f : Bool → Parse α} {g : Bool → Parse β} {Q : α → β → State → State → Prop}
    (inLine : isLayout t = false) (other : after.head? ≠ some t)
    (yes : Echoes (Inside base after) (f true) (g true) Q)
    (no : Echoes (Loose base after) (f false) (g false) Q) :
    Echoes (Loose base after) (eat t >>= f) (eat t >>= g) Q := by
  rintro s s' a s₂ ⟨front, closed, beside⟩ done lasts
  cases front with
  | cons t' rest =>
    exact echoes_eat inLine yes (no.mono (fun _ _ start => start.mono fun _ holds => holds.2)
      fun _ _ _ _ => id) s s' a s₂ ⟨_, ⟨List.cons_ne_nil t' rest, closed⟩, beside⟩ done lasts
  | nil =>
    obtain ⟨back, back', seam, tokens, tokens'⟩ := beside.tokens
    have heads : s.tokens.head? ≠ some t ∧ s'.tokens.head? ≠ some t := by
      rw [tokens, tokens']
      cases seam with
      | plain => exact ⟨nofun, other⟩
      | padded n => constructor <;> (rintro ⟨⟩; cases inLine)
    rw [bind_of_ok (eat_not heads.1)] at done
    rw [bind_of_ok (eat_not heads.2)]
    exact no s s' a s₂ ⟨[], closed, beside⟩ done (lasts.bind.2 _ _ (eat_not heads.2))

section Conditionals

variable (fresh : after.head? ≠ some (.keyword .elifKw) ∧ after.head? ≠ some (.keyword .elseKw))

include fresh

theorem echoes_branches {bs bs' : List Branch} (same : List.Forall₂ (ShiftBranch base) bs bs') :
    Echoes (Loose base after)
      (more (do return (← peek?) = some (.keyword .elifKw)) (branch inner) bs)
      (more (do return (← peek?) = some (.keyword .elifKw)) (branch inner) bs')
      (Gives (List.Forall₂ (ShiftBranch base)) (Loose base after)) := by
  rw [more_eq, more_eq]
  refine echoes_iterate (fun bs bs' same => ?_) same
  rw [moreTurn, moreTurn, bind_assoc, bind_assoc]
  refine echoes_peek_loose (fun t => ?_) ?_ ?_
  · by_cases elif : t = .keyword .elifKw
    · subst elif
      exact (echoes_branch echoing rfl).bind fun b b' one =>
        echoes_goOn (List.rel_append same (.cons one .nil))
    · rw [pure_bind, pure_bind, decide_eq_false (by simpa using elif)]
      exact echoes_stop.mono
        (fun _ _ start => start.mono fun _ begins => begins.elim fun _ both => both.2)
        fun _ _ _ _ => id
  · rw [pure_bind, pure_bind, decide_eq_false (p := after.head? = _) fresh.1]
    exact echoes_stop
  · exact echoes_stop

theorem echoes_ifStatement : Echoes (At (.keyword .ifKw) base after) (ifStatement inner)
    (ifStatement inner) (Gives (ShiftAll base) (Loose base after)) := by
  refine (echoes_branch echoing rfl).bind fun first first' same => ?_
  refine (echoes_branches echoing fresh (.cons same .nil)).bind fun bs bs' same => ?_
  refine echoes_eat_loose rfl fresh.2 ?_ ?_
  · refine (echoes_block echoing).bind fun orelse orelse' shifted => ?_
    obtain ⟨orelse, stop⟩ := orelse
    obtain ⟨_, stop'⟩ := orelse'
    cases shifted
    exact echoes_pushBranches stop stop' orelse same
  · exact echoes_pushBranches _ _ [] same

theorem echoes_statement : EchoesAll base after (statement inner) := by
  refine echoes_peek fun t => ?_
  have line := (echoes_simpleStatements echoing).inside (t := t)
  have one {x : Parse NodeId} (h : Echoes (At t base after) x x
      (Gives (Shift base) (Loose base after))) : Echoes (At t base after)
        (x >>= fun id => pure [id]) (x >>= fun id => pure [id])
        (Gives (ShiftAll base) (Loose base after)) := by
    refine h.bind fun id _ same => ?_
    subst same
    exact echoes_pure rfl
  cases t with
  | keyword k =>
    cases k with
    | defKw => exact one (echoes_functionDef echoing)
    | ifKw => exact echoes_ifStatement echoing fresh
    | whileKw => exact one (echoes_whileStatement echoing)
    | forKw => exact one (echoes_forStatement echoing)
    | _ => exact line
  | _ => exact line

/-! ### Indented blocks -/

omit echoing fresh in
theorem closed_replicate (n : Nat) : Closed (List.replicate n .dedent) := by
  intro last mem
  rw [List.eq_of_mem_replicate (List.mem_of_getLast? mem)]
  rfl

omit echoing fresh in
theorem repeatFrom_closed (lasts : Lasts (repeatFrom (blockItem inner) rounds (ids, true)) s) :
    repeatFrom (blockItem inner) rounds (ids, true) s = .ok ((ids, true), s) := by
  cases rounds with
  | zero => exact absurd rfl (lasts none)
  | succ => rfl

omit echoing fresh in
theorem blockItem_layout (inner : Inner) {ts : List Token} (head : s.tokens = t :: ts)
    (layout : t = .dedent ∨ t = .newline) (ids : List NodeId) :
    ∃ s₁, s.Passes t s₁ ∧ blockItem inner (ids, false) s = .ok (some (ids, t = .dedent), s₁) := by
  obtain ⟨span, s₁, passed, -⟩ := advance_eq head
  refine ⟨s₁, advance_ok (congrArg List.head? head) passed, ?_⟩
  change (peek? >>= _) s = _
  rw [bind_of_ok (peek?_eq s), head]
  rcases layout with rfl | rfl <;> exact bind_of_ok passed

/-- The body so far, and whether it is closed. -/
abbrev ShiftBody (base : List NodeKind) (body body' : List NodeId × Bool) : Prop :=
  ShiftAll base body.1 body'.1 ∧ body'.2 = body.2

theorem echoes_blockItem {ids ids' : List NodeId} (same : ShiftAll base ids ids') :
    Echoes (At t base after) (blockItem inner (ids, false)) (blockItem inner (ids', false))
      (Turned (ShiftBody base) (Loose base after)) := by
  refine echoes_peek_at ?_
  have other : Echoes (At t base after)
      (statement inner >>= fun new => pure (some (ids ++ new, false)))
      (statement inner >>= fun new => pure (some (ids' ++ new, false)))
      (Turned (ShiftBody base) (Loose base after)) := by
    refine (echoes_statement echoing fresh).inside.bind fun new _ shifted => ?_
    refine echoes_goOn ⟨?_, rfl⟩
    rw [ShiftAll, same, shifted, List.map_append]
  cases t with
  | dedent => exact echoes_advance_any.bind fun _ _ _ => echoes_goOn ⟨same, rfl⟩
  | newline => exact echoes_advance_any.bind fun _ _ _ => echoes_goOn ⟨same, rfl⟩
  | _ => exact other

/-- Where the text ends, the second run has to pass the newline before it closes the block. -/
theorem echoes_blockLoop (rounds rounds' : Nat) {body body' : List NodeId × Bool}
    (same : ShiftBody base body body') :
    Echoes (Loose base after) (repeatFrom (blockItem inner) rounds body)
      (repeatFrom (blockItem inner) rounds' body') (Gives (ShiftBody base) (Loose base after)) := by
  induction rounds generalizing rounds' body body' with
  | zero => exact echoes_fail
  | succ rounds ih =>
    cases rounds' with
    | zero => exact fun _ _ _ _ _ _ lasts => absurd rfl (lasts none)
    | succ rounds' =>
      obtain ⟨ids, _⟩ := body
      obtain ⟨ids', ended⟩ := body'
      obtain ⟨shifted, rfl⟩ := same
      cases ended with
      | true => exact echoes_pure ⟨shifted, rfl⟩
      | false =>
        rintro s s' body s₂ ⟨front, closed, beside⟩ done lasts
        cases front with
        | cons t rest =>
          refine Echoes.bind (echoes_blockItem echoing fresh shifted) (fun o o' same => ?_) s s' body s₂
            (⟨_, ⟨rest, rfl, closed⟩, beside⟩ : At t base after s s') done lasts
          cases same with
          | none => exact echoes_pure ⟨shifted, rfl⟩
          | some related => exact ih rounds' related
        | nil =>
          obtain ⟨back, back', seam, tokens, tokens'⟩ := beside.tokens
          cases seam with
          | plain =>
            obtain ⟨o, s₁, item, -⟩ := bind_ok done
            change (peek? >>= _) s = _ at item
            rw [bind_of_ok (peek?_eq s), tokens] at item
            exact (unexpected_ok item).elim
          | padded n =>
            obtain ⟨s₁, passed, closing⟩ := blockItem_layout inner tokens (.inl rfl) ids
            obtain ⟨s₁', passed₁, skipping⟩ := blockItem_layout inner tokens' (.inr rfl) ids'
            have tokens₁ := (List.cons.inj (passed₁.tokens.symm.trans tokens')).2
            obtain ⟨s₂', passed₂, closing'⟩ := blockItem_layout inner tokens₁ (.inl rfl) ids'
            rw [repeatFrom, bind_of_ok closing] at done
            have lasts₁ : Lasts (repeatFrom (blockItem inner) rounds' (ids', false)) s₁' := lasts.bind.2 _ _ skipping
            rw [repeatFrom, bind_of_ok skipping]
            cases (repeatFrom_closed (.of_ok done)).symm.trans done
            cases rounds' with
            | zero => exact absurd rfl (lasts₁ none)
            | succ rounds' =>
              refine ⟨(ids', true), s₂', (bind_of_ok closing').trans (repeatFrom_closed (lasts₁.bind.2 _ _ closing')),
                ⟨shifted, rfl⟩, _, closed_replicate n, ⟨[], after, .plain, ?_, ?_⟩, ?_⟩
              · rw [List.append_nil]
                exact (List.cons.inj (passed.tokens.symm.trans tokens)).2
              · exact (List.cons.inj (passed₂.tokens.symm.trans tokens₁)).2
              · rw [State.kinds, State.kinds, passed.nodes, passed₂.nodes, passed₁.nodes]
                exact beside.kinds

theorem echoes_blockItems : Echoes (Loose base after) (iterate (blockItem inner) ([], false))
    (iterate (blockItem inner) ([], false)) (Gives (ShiftBody base) (Loose base after)) :=
  fun s s' => echoes_blockLoop echoing fresh (s.total + 1) (s'.total + 1) ⟨rfl, rfl⟩ s s'

theorem echoes_blockBody : EchoesAll base after (blockBody inner) := by
  refine echoes_eat_any (G := Closed) (fun _ => closed_tail) ?_
    (echoes_simpleStatements echoing)
  refine echoes_peek_loose (fun t => ?_) ?_ ?_
  · refine echoes_ite (fun _ => echoes_unexpectedThen) fun indented => ?_
    refine echoes_advance_any.bind fun _ _ _ => ?_
    exact (echoes_blockItems echoing fresh).bind fun _ _ same => echoes_pure same.1
  · exact echoes_unexpectedThen
  · exact echoes_unexpectedThen

end Conditionals

end Statements

/-- At every level of nesting both runs read the same. -/
theorem within_echoing (fresh : after.head? ≠ some (.keyword .elifKw) ∧ after.head? ≠ some (.keyword .elseKw))
    (room : Nat) : (Inner.within room).Echoing base after := by
  have exhausted {α : Type} {v : Violation} {I : State → State → Prop} {Q : α → α → State → State → Prop} :
      Echoes I (do fail v (← peekSpan?) : Parse α) (do fail v (← peekSpan?)) Q :=
    echoes_peekSpan.bind fun _ _ _ => echoes_fail
  induction room with
  | zero => exact ⟨exhausted, exhausted, exhausted, exhausted, exhausted⟩
  | succ room ih =>
    exact ⟨echoes_conditional ih, echoes_notTest ih, echoes_factor ih, echoes_factor ih,
      echoes_blockBody ih fresh⟩

end Scratchpad.Parse
