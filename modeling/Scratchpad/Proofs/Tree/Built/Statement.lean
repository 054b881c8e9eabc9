import Scratchpad.Proofs.Tree.Built.Expression

/-!
# What statements build

A statement, a line or a block is several open nodes (`Made`). The targets of assignments and loops are
checked after they were read; the check goes all the way down, since what a display mentions comes
before it (`checkTarget_ok`).
-/

namespace Scratchpad

namespace Parse

variable {inner : Inner} {s s' s'' : State} {a : NodeId} {ids : List NodeId} {kind : NodeKind} {n : Node}

/-- A statement. -/
theorem State.Adds.made (h : s'.Adds n a s'') (built : Built (fun _ => True) s s' ids)
    (sort : n.kind.isStatement = true) (takes : n.kind.children.Perm ids)
    (fills : ∀ p ∈ n.kind.positions, Fills s'.nodes p.1 p.2)
    (nests : ∀ x ∈ n.kind.children, Nests s'.nodes d x) (whole : n.kind.Whole)
    (names : ∀ name ∈ n.kind.names, Token.name name ∈ s.tokens)
    (filled : s.Bounded → n.kind.block? = some [] → Token.HasEmptyBlock s.tokens := by nofun) :
    Made (d + 1) s [a] s'' := by
  have other (expression : n.kind.isExpression = true) : False := by
    rw [NodeKind.isExpression, sort] at expression
    cases expression
  refine ⟨built.add h takes fills whole names filled fun expression => (other expression).elim,
    fun x mem => ?_, fun x mem => ?_⟩
  · rw [List.mem_singleton.mp mem]
    exact ⟨n, h.found, sort⟩
  · rw [List.mem_singleton.mp mem]
    exact .node h.found fun x mem => (nests x mem).grow h.grows

theorem Made.mono (h : Made d s ids s') (le : d ≤ d') : Made d' s ids s' :=
  ⟨h.built, h.sorts, fun x mem => (h.nests x mem).mono le⟩

theorem Made.pass (h : Made d s ids s') (built : Built (fun _ => True) s' s'' []) :
    Made d s ids s'' :=
  ⟨by simpa using h.built.trans built, fun x mem => (h.sorts x mem).mono built.grows,
    fun x mem => (h.nests x mem).grow built.grows⟩

theorem Made.append (h : Made d s ids s') (h' : Made d s' ids' s'') : Made d s (ids ++ ids') s'' := by
  refine ⟨h.built.trans h'.built, fun x mem => ?_, fun x mem => ?_⟩
  · exact (List.mem_append.mp mem).elim (fun old => (h.sorts x old).mono h'.built.grows) (h'.sorts x)
  · exact (List.mem_append.mp mem).elim (fun old => (h.nests x old).grow h'.built.grows) (h'.nests x)

theorem made_nil (s : State) : Made d s [] s := ⟨built_refl s, nofun, nofun⟩

/-- An expression is open after what was built before it. -/
theorem Given.after {ids : List NodeId} (given : Given d s' a s'') (h : Built (fun _ => True) s s' ids) :
    Built (fun _ => True) s s'' (ids ++ [a]) :=
  h.trans (given.built.weaken fun _ _ => trivial)

/-! ### Targets -/

theorem forM_ok {check : NodeId → Parse Unit} {P : NodeId → Prop}
    (each : ∀ x ∈ ids, ∀ u s', check x s = .ok (u, s') → s = s' ∧ P x)
    (h : ids.forM check s = .ok (u, s')) : s = s' ∧ ∀ x ∈ ids, P x := by
  induction ids with
  | nil =>
    obtain ⟨rfl, rfl⟩ := pure_ok h
    exact ⟨rfl, nofun⟩
  | cons x ids ih =>
    obtain ⟨u', s₁, checked, h⟩ := bind_ok h
    obtain ⟨rfl, first⟩ := each x List.mem_cons_self _ _ checked
    obtain ⟨rfl, others⟩ := ih (fun y mem => each y (List.mem_cons_of_mem x mem)) h
    exact ⟨rfl, fun y mem => (List.mem_cons.mp mem).elim (fun same => same ▸ first) (others y)⟩

/-- The depth does not run out: what a display mentions comes before it. -/
theorem checkTarget_ok {id : NodeId} {s₀ : State} {P : Token → Prop} (built : Built P s₀ s ids)
    (new : s₀.nodes.size ≤ id) (there : id < s.nodes.size) (deep : id < depth)
    (h : checkTarget depth id s = .ok (u, s')) : s = s' ∧ Assignable s.nodes id := by
  induction depth generalizing id u s' with
  | zero => exact absurd deep (Nat.not_lt_zero id)
  | succ depth ih =>
    obtain ⟨found, s₁, looked, h⟩ := bind_ok h
    cases looked
    have known := Array.getElem?_eq_getElem there
    have display : ∀ elts, (s.nodes[id]).kind = .tuple elts ∨ (s.nodes[id]).kind = .list elts →
        elts.forM (checkTarget depth) s = .ok (u, s') → s = s' ∧ Assignable s.nodes id := by
      intro elts kind h
      have listed : (s.nodes[id]).kind.children = elts := by
        rcases kind with kind | kind <;> rw [kind] <;> rfl
      obtain ⟨same, all⟩ := forM_ok (P := Assignable s.nodes) (fun x mem u s' checked => by
        have child : x ∈ (s.nodes[id]).kind.children := listed ▸ mem
        have earlier := (built.sound id _ new known).earlier x child
        exact ih (built.new_child new known child) (earlier.trans there)
          (Nat.lt_of_lt_of_le earlier (Nat.le_of_lt_succ deep)) checked) h
      exact ⟨same, .display known kind all⟩
    rw [known] at h
    generalize s.nodes[id] = n at known display h
    obtain ⟨kind, span⟩ := n
    cases kind with
    | name | subscript | «attribute» =>
      obtain ⟨-, same⟩ := pure_ok h
      exact ⟨same, .place known rfl⟩
    | tuple elts => exact display elts (.inl rfl) h
    | list elts => exact display elts (.inr rfl) h
    | _ => exact (fail_ok h).elim

theorem requireTarget_ok {id : NodeId} {s₀ : State} {P : Token → Prop} (built : Built P s₀ s ids)
    (mem : id ∈ ids) (h : requireTarget id s = .ok (u, s')) : s = s' ∧ Assignable s.nodes id := by
  obtain ⟨s₁, s₂, got, h⟩ := bind_ok h
  cases got
  have lt := built.lt mem
  exact checkTarget_ok built (built.ge mem) lt (Nat.lt_succ_of_lt lt) h

section Statements

variable (shallow : inner.Shallow d)

include shallow

theorem targetList_given (h : targetList inner s = .ok (a, s')) : Given (d + 4) s a s' :=
  commaList_given (fun _ _ _ => commaThen_built fun o => o ≠ some (.keyword .inKw))
    (fun _ _ _ => sum_given shallow) h

/-! ### Lines -/

theorem augmented_made {target : NodeId} {s₀ : State} (before : Given d s₀ target s)
    (seen : augmentedOp? s.tokens.head? = some op) (h : augmented inner target op s = .ok (a, s')) :
    Made (d + 1) s₀ [a] s' := by
  obtain ⟨n, found, -⟩ := before.sits.sort
  obtain ⟨o, s₁, looked, h⟩ := bind_ok h
  cases looked
  rw [found] at h
  dsimp only at h
  split at h
  · obtain ⟨span, s₁, peeked, h⟩ := bind_ok h
    obtain ⟨_, _, failed, _⟩ := bind_ok h
    exact (fail_ok failed).elim
  · next place =>
    obtain ⟨span, s₁, passed, h⟩ := bind_ok h
    obtain ⟨t, head⟩ : ∃ t, s.tokens.head? = some t := by
      cases there : s.tokens.head? with
      | none => simp [there, augmentedOp?] at seen
      | some t => exact ⟨t, rfl⟩
    have passes : Built (fun _ => True) s s₁ [] := (advance_ok head passed).built trivial
    obtain ⟨value, s₂, read, h⟩ := bind_ok h
    have given := testList_given shallow read
    have built := given.after ((before.after (built_refl s₀)).trans passes)
    have more := passes.grows.trans given.built.grows
    have target := before.sits.grow more
    refine (pushBetween_ok h).made built rfl (.refl _) ?_ ?_ trivial nofun
    · simp only [NodeKind.positions, Role.below, List.forall_mem_cons]
      exact ⟨⟨n, more _ _ found, by simpa using place⟩, given.sits.sort, nofun⟩
    · simpa [NodeKind.children] using ⟨target.nests, given.sits.nests⟩

theorem assignment_made {first : NodeId} {s₀ : State} (before : Given d s₀ first s)
    (head : s.tokens.head? = some (.symbol .assign)) (h : assignment inner first s = .ok (a, s')) :
    Made (d + 1) s₀ [a] s' := by
  obtain ⟨chain, s₁, read, h⟩ := bind_ok h
  have all := more_given (fun _ _ _ ate => eat_built (t := .symbol .assign) ate trivial)
    (fun _ _ _ => testList_given shallow) before.all read
  have long := more_twice head read
  obtain ⟨u, s₂, checked, h⟩ := bind_ok h
  rcases List.eq_nil_or_concat' chain with rfl | ⟨targets, value, rfl⟩
  · simp at long
  · rw [List.dropLast_concat] at h checked
    rw [List.getLastD_concat] at h
    obtain ⟨rfl, assignable⟩ := forM_ok (P := Assignable s₁.nodes) (fun x mem u s' checked =>
      requireTarget_ok all.built (List.mem_append_left _ mem) checked) checked
    refine (pushBetween_ok h).made (all.built.weaken fun _ _ => trivial) rfl (.refl _) ?_
      (fun x mem => (all.sits x mem).nests) ?_ nofun
    · intro p mem
      rcases List.mem_append.mp mem with mem | mem
      · obtain ⟨x, listed, rfl⟩ := List.mem_map.mp mem
        exact assignable x listed
      · rw [List.mem_singleton.mp mem]
        exact (all.sits value (List.mem_append_right _ List.mem_cons_self)).sort
    · rintro rfl
      simp at long

theorem expressionStatement_made (h : expressionStatement inner s = .ok (a, s')) :
    Made (d + 1) s [a] s' := by
  obtain ⟨first, s₁, read, h⟩ := bind_ok h
  have given := testList_given shallow read
  obtain ⟨o, head, rest⟩ := bind_still peek?_ok h
  cases seen : augmentedOp? o with
  | some op =>
    rw [seen] at rest
    exact augmented_made shallow given (head ▸ seen) rest
  | none =>
    rw [seen] at rest
    obtain ⟨o, head, rest⟩ := bind_still peek?_ok rest
    split at rest
    · next assigns => exact assignment_made shallow given (head ▸ assigns) rest
    · obtain ⟨span, -, rest⟩ := bind_still spanOf_ok rest
      refine (push_ok rest).made (given.after (built_refl s)) rfl (.refl _) ?_ ?_ trivial nofun
      · simpa [NodeKind.positions, Role.below, NodeKind.children] using given.sits.sort
      · simpa [NodeKind.children] using given.sits.nests

theorem returnStatement_made (head : s.tokens.head? = some (.keyword .returnKw))
    (h : returnStatement inner s = .ok (a, s')) : Made (d + 1) s [a] s' := by
  obtain ⟨start, s₁, passed, h⟩ := bind_ok h
  have passes : Built (fun _ => True) s s₁ [] := (advance_ok head passed).built trivial
  obtain ⟨o, -, rest⟩ := bind_still peek?_ok h
  have bare : push (.returnStmt none) start s₁ = .ok (a, s') → Made (d + 1) s [a] s' := fun h =>
    (push_ok h).made passes rfl (.refl _) nofun nofun trivial nofun
  split at rest
  · exact bare rest
  · exact bare rest
  · exact bare rest
  · obtain ⟨value, s₂, read, rest⟩ := bind_ok rest
    have given := testList_given shallow read
    obtain ⟨span, -, rest⟩ := bind_still spanOf_ok rest
    refine (push_ok rest).made (given.after passes) rfl (.refl _) ?_ ?_ trivial nofun
    · simpa [NodeKind.positions, Role.below, NodeKind.children] using given.sits.sort
    · simpa [NodeKind.children] using given.sits.nests

omit shallow in
theorem globalStatement_made (head : s.tokens.head? = some (.keyword .globalKw))
    (h : globalStatement s = .ok (a, s')) : Made (d + 1) s [a] s' := by
  obtain ⟨start, s₁, passed, h⟩ := bind_ok h
  have passes : Built (fun _ => True) s s₁ [] := (advance_ok head passed).built trivial
  obtain ⟨first, s₂, named, h⟩ := bind_ok h
  have known : ∀ {s₁ s₂ : State} {r}, Built (fun _ => True) s s₁ [] → expectName s₁ = .ok (r, s₂) →
      Built (fun _ => True) s s₂ [] ∧ Token.name r.1 ∈ s.tokens := by
    intro s₁ s₂ r built named
    have passes := expectName_ok named
    refine ⟨built.trans (passes.built trivial), built.tokens_subset ?_⟩
    rw [passes.tokens]
    exact List.mem_cons_self
  obtain ⟨names, s₃, loop, h⟩ := bind_ok h
  obtain ⟨built, first⟩ := known passes named
  have all : Built (fun _ => True) s s₃ [] ∧ ∀ r ∈ names, Token.name r.1 ∈ s.tokens := by
    refine more_ok (I := fun (names : List (String × Span)) s' =>
      Built (fun _ => True) s s' [] ∧ ∀ r ∈ names, Token.name r.1 ∈ s.tokens) loop
      ⟨built, by simpa using first⟩ (fun names s₁ s₂ inv ate => ⟨inv.1.trans (eat_built ate trivial), inv.2⟩)
      fun names s₁ s₂ r s₃ inv ate named => ?_
    obtain ⟨built, last⟩ := known (inv.1.trans (eat_built ate trivial)) named
    refine ⟨built, fun r' mem => ?_⟩
    rcases List.mem_append.mp mem with old | new
    · exact inv.2 r' old
    · rwa [List.mem_singleton.mp new]
  refine (push_ok h).made all.1 rfl (.refl _) nofun nofun trivial fun name mem => ?_
  obtain ⟨r, listed, rfl⟩ := List.mem_map.mp mem
  exact all.2 r listed

omit shallow in
theorem leaf_made (h : leaf kind s = .ok (a, s')) (head : s.tokens.head? = some t)
    (sort : kind.isStatement = true) (none : kind.positions = []) (children : kind.children = [])
    (whole : kind.Whole) (names : kind.names = []) (simple : kind.block? = .none) :
    Made (d + 1) s [a] s' := by
  obtain ⟨span, s₁, passed, h⟩ := bind_ok h
  exact (push_ok h).made ((advance_ok head passed).built trivial) sort (by simp [children])
    (by simp [none]) (by simp [children]) whole (by simp [names]) (by simp [simple])

theorem smallStatement_made (h : smallStatement inner s = .ok (a, s')) : Made (d + 1) s [a] s' := by
  obtain ⟨o, head, h⟩ := bind_still peek?_ok h
  split at h
  · exact (unexpected_ok h).elim
  · exact leaf_made h head.symm rfl rfl rfl trivial rfl rfl
  · exact leaf_made h head.symm rfl rfl rfl trivial rfl rfl
  · exact leaf_made h head.symm rfl rfl rfl trivial rfl rfl
  · exact returnStatement_made shallow head.symm h
  · exact globalStatement_made head.symm h
  · exact expressionStatement_made shallow h

omit shallow in
theorem eatThen_built {ask : Option Token → Parse Bool}
    (h : (do if ← eat t then ask (← peek?) else return false : Parse Bool) s = .ok (b, s')) (one : P t)
    (looks : ∀ o s b s', ask o s = .ok (b, s') → s = s') : Built P s s' [] := by
  obtain ⟨eaten, s₁, ate, h⟩ := bind_ok h
  have built : Built P s s₁ [] := eat_built ate one
  cases eaten with
  | false =>
    obtain ⟨rfl, rfl⟩ := pure_ok h
    exact built
  | true =>
    obtain ⟨o, -, h⟩ := bind_still peek?_ok h
    rwa [← looks o _ _ _ h]

theorem simpleStatements_made (h : simpleStatements inner s = .ok (ids, s')) :
    Made (d + 1) s ids s' ∧ ids ≠ [] := by
  obtain ⟨first, s₁, read, h⟩ := bind_ok h
  have made := smallStatement_made shallow read
  obtain ⟨ids', s₂, loop, h⟩ := bind_ok h
  obtain ⟨made, some⟩ : Made (d + 1) s ids' s₂ ∧ ids' ≠ [] := by
    refine more_ok (I := fun ids s' => Made (d + 1) s ids s' ∧ ids ≠ []) loop ⟨made, by simp⟩
      (fun _ _ _ inv asked => ⟨inv.1.pass ?_, inv.2⟩) fun _ _ _ a _ inv asked read =>
        ⟨(inv.1.pass ?_).append (smallStatement_made shallow read), by simp⟩
    all_goals
      refine eatThen_built asked trivial fun o s b s' h => ?_
      split at h <;> exact (pure_ok h).2
  obtain ⟨o, head, h⟩ := bind_still peek?_ok h
  split at h
  · obtain ⟨span, s₃, passed, h⟩ := bind_ok h
    obtain ⟨rfl, rfl⟩ := pure_ok h
    exact ⟨made.pass ((advance_ok head.symm passed).built trivial), some⟩
  · obtain ⟨rfl, rfl⟩ := pure_ok h
    exact ⟨made, some⟩
  · obtain ⟨_, _, _, h⟩ := bind_ok h
    exact (fail_ok h).elim

/-! ### Blocks -/

omit shallow in
theorem endOf_ok {body : List NodeId} (h : endOf body s = .ok (span, s')) : s = s' := by
  unfold endOf at h
  cases last : body.getLast? with
  | some id =>
    rw [last] at h
    exact (spanOf_ok h).2
  | none =>
    rw [last] at h
    exact (pure_ok h).2

omit shallow in
theorem Blocked.after (h : Blocked d s' ids s'') (before : Built (fun _ => True) s s' xs) (bound : s.Bounded)
    (empty : ids = []) : Token.HasEmptyBlock s.tokens :=
  (h.filled (before.bounded bound) empty).mono before.later

theorem block_made (h : block inner s = .ok (r, s')) : Blocked d s r.1 s' := by
  obtain ⟨_, s₁, colon, h⟩ := bind_ok h
  have passes : Built (fun _ => True) s s₁ [] := (expect_ok colon).built trivial
  obtain ⟨body, s₂, read, h⟩ := bind_ok h
  obtain ⟨e, rfl, made⟩ := shallow.block _ _ _ read
  obtain ⟨stop, s₃, spanned, h⟩ := bind_ok h
  obtain rfl := endOf_ok spanned
  obtain ⟨rfl, rfl⟩ := pure_ok h
  exact ⟨⟨by simpa using passes.trans made.built, made.sorts,
    fun x mem => (made.nests x mem).mono (Nat.le_succ e)⟩, made.after passes⟩

theorem functionDef_made (head : s.tokens.head? = some (.keyword .defKw))
    (h : functionDef inner s = .ok (a, s')) : Made (d + 1) s [a] s' := by
  obtain ⟨start, s₁, passed, h⟩ := bind_ok h
  have passes : Built (fun _ => True) s s₁ [] := (advance_ok head passed).built trivial
  obtain ⟨⟨name, _⟩, s₂, named, h⟩ := bind_ok h
  have known := expectName_ok named
  have passes₂ := passes.trans (known.built trivial)
  obtain ⟨_, s₃, opened, h⟩ := bind_ok h
  have passes₃ := passes₂.trans ((expect_ok opened).built trivial)
  obtain ⟨params, s₄, items, h⟩ := bind_ok h
  obtain ⟨passes₄, nodup, listed⟩ : Built (fun _ => True) s s₄ [] ∧ params.Nodup ∧
      ∀ x ∈ params, Token.name x ∈ s.tokens := by
    refine itemsBefore_ok (I := fun params s' => Built (fun _ => True) s s' [] ∧ params.Nodup ∧
      ∀ x ∈ params, Token.name x ∈ s.tokens) items ⟨passes₃, List.nodup_nil, nofun⟩
      (fun params s₁ x s₂ inv read => ?_) fun _ _ _ inv comma => ⟨inv.1.trans (comma.built trivial), inv.2⟩
    obtain ⟨built, nodup, listed⟩ := inv
    obtain ⟨⟨name, span⟩, s₃, named, read⟩ := bind_ok read
    have known := expectName_ok named
    dsimp only at read
    split at read
    · obtain ⟨_, _, failed, _⟩ := bind_ok read
      exact (fail_ok failed).elim
    · next fresh =>
      obtain ⟨rfl, rfl⟩ := pure_ok read
      refine ⟨built.trans (known.built trivial), ?_, fun x mem => ?_⟩
      · simp only [List.contains_eq_mem, decide_eq_true_eq] at fresh
        exact List.nodup_append.mpr ⟨nodup, by simp, by
          rintro x mem y last rfl
          exact fresh (List.mem_singleton.mp last ▸ mem)⟩
      · rcases List.mem_append.mp mem with old | new
        · exact listed x old
        · rw [List.mem_singleton.mp new]
          refine built.tokens_subset ?_
          rw [known.tokens]
          exact List.mem_cons_self
  obtain ⟨_, s₅, closed, h⟩ := bind_ok h
  have passes₅ := passes₄.trans ((expect_ok closed).built trivial)
  obtain ⟨⟨body, stop⟩, s₆, read, h⟩ := bind_ok h
  have made := block_made shallow read
  refine (push_ok h).made (passes₅.trans made.built) rfl (.refl _) (fun p mem => ?_) made.nests nodup
    (fun x mem => ?_) fun bound empty => made.after passes₅ bound (Option.some.inj empty)
  · obtain ⟨x, inside, rfl⟩ := List.mem_map.mp mem
    exact made.sorts x inside
  · rcases List.mem_cons.mp mem with rfl | param
    · refine passes.tokens_subset ?_
      rw [known.tokens]
      exact List.mem_cons_self
    · exact listed x param

/-! ### Branches -/

/-- The nodes of some branches. -/
abbrev branchIds (branches : List Branch) : List NodeId := branches.flatMap fun b => b.test :: b.body

/-- From `s` to `s'` the branches were read. -/
structure Branched (d : Nat) (s : State) (branches : List Branch) (s' : State) : Prop where
  built : Built (fun _ => True) s s' (branchIds branches)
  tests : ∀ b ∈ branches, Sits s'.nodes d b.test
  sorts : ∀ b ∈ branches, ∀ x ∈ b.body, Fills s'.nodes (.statement true true) x
  nests : ∀ b ∈ branches, ∀ x ∈ b.body, Nests s'.nodes d x
  filled : ∀ b ∈ branches, s.Bounded → b.body = [] → Token.HasEmptyBlock s.tokens

theorem branch_made (head : s.tokens.head? = some t) (h : branch inner s = .ok (b, s')) :
    Branched d s [b] s' := by
  obtain ⟨start, s₁, passed, h⟩ := bind_ok h
  have passes : Built (fun _ => True) s s₁ [] := (advance_ok head passed).built trivial
  obtain ⟨test, s₂, read, h⟩ := bind_ok h
  have given := namedTest_given shallow read
  obtain ⟨⟨body, stop⟩, s₃, read', h⟩ := bind_ok h
  have made := block_made shallow read'
  obtain ⟨rfl, rfl⟩ := pure_ok h
  refine ⟨?_, ?_, ?_, ?_, ?_⟩
  · simpa using (given.after passes).trans made.built
  · simpa using given.sits.grow made.built.grows
  · simpa using made.sorts
  · simpa using made.nests
  · simpa using made.after (given.after passes)

omit shallow in
theorem Branched.append (h : Branched d s bs s') (h' : Branched d s' bs' s'') :
    Branched d s (bs ++ bs') s'' := by
  have more := h'.built.grows
  refine ⟨?_, fun b mem => ?_, fun b mem => ?_, fun b mem => ?_, fun b mem bound empty => ?_⟩
  · rw [branchIds, List.flatMap_append]
    exact h.built.trans h'.built
  · exact (List.mem_append.mp mem).elim (fun old => (h.tests b old).grow more) (h'.tests b)
  · exact (List.mem_append.mp mem).elim (fun old x inside => (h.sorts b old x inside).mono more) (h'.sorts b)
  · exact (List.mem_append.mp mem).elim (fun old x inside => (h.nests b old x inside).grow more) (h'.nests b)
  · rcases List.mem_append.mp mem with old | new
    · exact h.filled b old bound empty
    · exact (h'.filled b new (h.built.bounded bound) empty).mono h.built.later

omit shallow in
/-- The branches become one node, on which the `else` hangs; the other ids stay open. -/
theorem pushBranches_made {s₀ : State} {orelse : List NodeId} (rest : List NodeId)
    (built : Built (fun _ => True) s₀ s (branchIds bs ++ orelse ++ rest))
    (tests : ∀ b ∈ bs, Sits s.nodes d b.test)
    (sorts : ∀ b ∈ bs, ∀ x ∈ b.body, Fills s.nodes (.statement true true) x)
    (nests : ∀ b ∈ bs, ∀ x ∈ b.body, Nests s.nodes d x)
    (filled : ∀ b ∈ bs, s₀.Bounded → b.body = [] → Token.HasEmptyBlock s₀.tokens)
    (else_sorts : ∀ x ∈ orelse, Fills s.nodes (.statement true true) x)
    (else_nests : ∀ x ∈ orelse, Nests s.nodes d x)
    (h : pushBranches stop orelse bs s = .ok (ids, s')) :
    Built (fun _ => True) s₀ s' (ids ++ rest) ∧ Grows s.nodes s'.nodes ∧
      ((bs = [] ∧ ids = orelse) ∨ ∃ id n test body other, ids = [id] ∧ s'.nodes[id]? = some n ∧
        n.kind = .ifStmt test body other ∧ Nests s'.nodes (d + 1) id) := by
  induction bs generalizing ids s' rest with
  | nil =>
    obtain ⟨rfl, rfl⟩ := pure_ok h
    exact ⟨by simpa using built, .refl _, .inl ⟨rfl, rfl⟩⟩
  | cons b bs ih =>
    obtain ⟨others, s₁, pushed, h⟩ := bind_ok h
    obtain ⟨id, s₂, added, h⟩ := bind_ok h
    obtain ⟨rfl, rfl⟩ := pure_ok h
    have behind (xs : List NodeId) :
        (b.test :: b.body ++ xs ++ rest).Perm (xs ++ (b.test :: b.body ++ rest)) := by
      rw [← List.append_assoc xs]
      exact List.perm_append_comm.append_right rest
    have regroup : (branchIds (b :: bs) ++ orelse ++ rest).Perm
        (branchIds bs ++ orelse ++ (b.test :: b.body ++ rest)) := by
      rw [branchIds, List.flatMap_cons, List.append_assoc (b.test :: b.body)]
      exact behind _
    obtain ⟨built₁, more, which⟩ := ih _ (built.perm regroup)
      (fun b' mem => tests b' (List.mem_cons_of_mem b mem))
      (fun b' mem => sorts b' (List.mem_cons_of_mem b mem))
      (fun b' mem => nests b' (List.mem_cons_of_mem b mem))
      (fun b' mem => filled b' (List.mem_cons_of_mem b mem)) pushed
    have adds := push_ok added
    have found := adds.found
    have test := (tests b List.mem_cons_self).grow more
    have body : ∀ x ∈ b.body, Nests s₁.nodes d x := fun x mem => (nests b List.mem_cons_self x mem).grow more
    have fills : ∀ p ∈ (NodeKind.ifStmt b.test b.body others).positions, Fills s₁.nodes p.1 p.2 := by
      intro p mem
      rcases List.mem_cons.mp mem with rfl | mem
      · exact test.sort
      · obtain ⟨x, inside, rfl⟩ := List.mem_map.mp mem
        rcases List.mem_append.mp inside with taken | other
        · exact (sorts b List.mem_cons_self x taken).mono more
        · rcases which with ⟨-, rfl⟩ | ⟨id', n', t, b', o, rfl, found', again, -⟩
          · exact (else_sorts x other).mono more
          · rw [List.mem_singleton.mp other]
            exact ⟨n', found', by rw [again]; rfl⟩
    have empty (bound : s₀.Bounded) (h : some b.body = some []) : Token.HasEmptyBlock s₀.tokens :=
      filled b List.mem_cons_self bound (Option.some.inj h)
    refine ⟨built₁.over adds (behind others) fills trivial nofun empty nofun, more.trans adds.grows,
      .inr ⟨id, _, _, _, _, rfl, found, rfl, ?_⟩⟩
    · rcases which with ⟨-, rfl⟩ | ⟨id', n', t, b', o, rfl, found', again, nested⟩
      · refine .node found fun x mem => Nests.grow ?_ adds.grows
        rcases List.mem_cons.mp mem with rfl | mem
        · exact test.nests
        · exact (List.mem_append.mp mem).elim (body x) fun other => (else_nests x other).grow more
      · exact .elif found rfl (test.nests.grow adds.grows) (fun x mem => (body x mem).grow adds.grows)
          (adds.grows _ _ found') again (nested.grow adds.grows)

theorem ifStatement_made (head : s.tokens.head? = some (.keyword .ifKw))
    (h : ifStatement inner s = .ok (ids, s')) : Made (d + 1) s ids s' ∧ ids ≠ [] := by
  obtain ⟨first, s₁, read, h⟩ := bind_ok h
  obtain ⟨branches, s₂, loop, h⟩ := bind_ok h
  obtain ⟨all, some⟩ : Branched d s branches s₂ ∧ branches ≠ [] := by
    refine more_ok (I := fun bs s' => Branched d s bs s' ∧ bs ≠ []) loop
      ⟨branch_made shallow head read, by simp⟩ (fun bs s₁ s₂ inv asked => ?_)
      fun bs s₁ s₂ b s₃ inv asked read => ?_
    · obtain ⟨o, -, asked⟩ := bind_still peek?_ok asked
      obtain ⟨-, rfl⟩ := pure_ok asked
      exact inv
    · obtain ⟨o, rfl, asked⟩ := bind_still peek?_ok asked
      obtain ⟨elif, rfl⟩ := pure_ok asked
      exact ⟨inv.1.append (branch_made shallow (of_decide_eq_true elif) read), by simp⟩
  have finish : ∀ {s₃ orelse stop}, Made d s₂ orelse s₃ →
      pushBranches stop orelse branches s₃ = .ok (ids, s') → Made (d + 1) s ids s' ∧ ids ≠ [] := by
    intro s₃ orelse stop last h
    have more := last.built.grows
    obtain ⟨built, -, which⟩ := pushBranches_made [] (by simpa using all.built.trans last.built)
      (fun b mem => (all.tests b mem).grow more) (fun b mem x inside => (all.sorts b mem x inside).mono more)
      (fun b mem x inside => (all.nests b mem x inside).grow more) all.filled last.sorts last.nests h
    rcases which with ⟨none, -⟩ | ⟨id, n, _, _, _, rfl, found, kind, nests⟩
    · exact absurd none some
    · exact ⟨⟨built, by simpa using ⟨n, found, by rw [kind]; rfl⟩, by simpa using nests⟩, by simp⟩
  obtain ⟨otherwise, s₃, ate, h⟩ := bind_ok h
  have passes : Built (fun _ => True) s₂ s₃ [] := eat_built ate trivial
  cases otherwise with
  | true =>
    obtain ⟨⟨orelse, stop⟩, s₄, read', h⟩ := bind_ok h
    have made := block_made shallow read'
    exact finish ⟨passes.trans made.built, made.sorts, made.nests⟩ h
  | false => exact finish ⟨passes, nofun, nofun⟩ h

theorem whileStatement_made (head : s.tokens.head? = some (.keyword .whileKw))
    (h : whileStatement inner s = .ok (a, s')) : Made (d + 1) s [a] s' := by
  obtain ⟨start, s₁, passed, h⟩ := bind_ok h
  have passes : Built (fun _ => True) s s₁ [] := (advance_ok head passed).built trivial
  obtain ⟨test, s₂, read, h⟩ := bind_ok h
  have given := namedTest_given shallow read
  obtain ⟨⟨body, stop⟩, s₃, read', h⟩ := bind_ok h
  have made := block_made shallow read'
  have test := given.sits.grow made.built.grows
  refine (push_ok h).made ((given.after passes).trans made.built) rfl (.refl _) (fun p mem => ?_)
    (fun x mem => ?_) trivial nofun fun bound empty => made.after (given.after passes) bound (Option.some.inj empty)
  · rcases List.mem_cons.mp mem with rfl | mem
    · exact test.sort
    · obtain ⟨x, inside, rfl⟩ := List.mem_map.mp mem
      exact made.sorts x inside
  · rcases List.mem_cons.mp mem with rfl | mem
    · exact test.nests
    · exact made.nests x mem

theorem forStatement_made (head : s.tokens.head? = some (.keyword .forKw))
    (h : forStatement inner s = .ok (a, s')) : Made (d + 5) s [a] s' := by
  obtain ⟨start, s₁, passed, h⟩ := bind_ok h
  have passes : Built (fun _ => True) s s₁ [] := (advance_ok head passed).built trivial
  obtain ⟨target, s₂, read, h⟩ := bind_ok h
  have given := targetList_given shallow read
  obtain ⟨u, s₃, checked, h⟩ := bind_ok h
  obtain ⟨rfl, assignable⟩ := requireTarget_ok given.built List.mem_cons_self checked
  obtain ⟨_, s₃, within, h⟩ := bind_ok h
  have passes' : Built (fun _ => True) s₂ s₃ [] := (expect_ok within).built trivial
  obtain ⟨iter, s₄, read', h⟩ := bind_ok h
  have given' := testList_given shallow read'
  obtain ⟨⟨body, stop⟩, s₅, read'', h⟩ := bind_ok h
  have made := block_made shallow read''
  have more := (passes'.grows.trans given'.built.grows).trans made.built.grows
  have target := given.sits.nests.grow more
  have iter := given'.sits.grow made.built.grows
  have before := given'.after ((given.after passes).trans passes')
  refine (push_ok h).made (before.trans made.built) rfl (.refl _) (fun p mem => ?_) (fun x mem => ?_) trivial
    nofun fun bound empty => made.after before bound (Option.some.inj empty)
  · rcases List.mem_cons.mp mem with rfl | mem
    · exact assignable.mono more
    · rcases List.mem_cons.mp mem with rfl | mem
      · exact iter.sort
      · obtain ⟨x, inside, rfl⟩ := List.mem_map.mp mem
        exact made.sorts x inside
  · rcases List.mem_cons.mp mem with rfl | mem
    · exact target
    · rcases List.mem_cons.mp mem with rfl | mem
      · exact iter.nests.mono (by omega)
      · exact (made.nests x mem).mono (by omega)

/-- A statement, or a line of them, is at least one node. -/
theorem statement_made (h : statement inner s = .ok (ids, s')) : Made (d + 5) s ids s' ∧ ids ≠ [] := by
  obtain ⟨o, head, h⟩ := bind_still peek?_ok h
  split at h
  · obtain ⟨a, s₁, read, h⟩ := bind_ok h
    obtain ⟨rfl, rfl⟩ := pure_ok h
    exact ⟨(functionDef_made shallow head.symm read).mono (by omega), by simp⟩
  · exact (ifStatement_made shallow head.symm h).imp_left fun made => made.mono (by omega)
  · obtain ⟨a, s₁, read, h⟩ := bind_ok h
    obtain ⟨rfl, rfl⟩ := pure_ok h
    exact ⟨(whileStatement_made shallow head.symm read).mono (by omega), by simp⟩
  · obtain ⟨a, s₁, read, h⟩ := bind_ok h
    obtain ⟨rfl, rfl⟩ := pure_ok h
    exact ⟨forStatement_made shallow head.symm read, by simp⟩
  · exact (simpleStatements_made shallow h).imp_left fun made => made.mono (by omega)

omit shallow in
/-- One item of a block is its dedent, a newline or a statement. -/
theorem blockItem_cases {body : List NodeId × Bool} (h : blockItem inner body s = .ok (r, s')) :
    (body.2 = true ∧ r = none ∧ s = s') ∨ (r = some (body.1, true) ∧ s.Passes .dedent s') ∨
      (r = some body ∧ s.Passes .newline s') ∨
      ∃ ids, r = some (body.1 ++ ids, false) ∧ statement inner s = .ok (ids, s') := by
  unfold blockItem at h
  split at h
  · next ended =>
    obtain ⟨rfl, rfl⟩ := pure_ok h
    exact .inl ⟨ended, rfl, rfl⟩
  · obtain ⟨o, head, h⟩ := bind_still peek?_ok h
    split at h
    · obtain ⟨span, s₁, passed, h⟩ := bind_ok h
      obtain ⟨rfl, rfl⟩ := pure_ok h
      exact .inr (.inl ⟨rfl, advance_ok head.symm passed⟩)
    · obtain ⟨span, s₁, passed, h⟩ := bind_ok h
      obtain ⟨rfl, rfl⟩ := pure_ok h
      exact .inr (.inr (.inl ⟨rfl, advance_ok head.symm passed⟩))
    · exact (unexpected_ok h).elim
    · obtain ⟨ids, s₁, read, h⟩ := bind_ok h
      obtain ⟨rfl, rfl⟩ := pure_ok h
      exact .inr (.inr (.inr ⟨ids, rfl, read⟩))

theorem blockItem_made {body : List NodeId × Bool} {s₀ : State} (before : Made (d + 5) s₀ body.1 s)
    (h : blockItem inner body s = .ok (r, s')) : Made (d + 5) s₀ (r.getD body).1 s' := by
  rcases blockItem_cases h with ⟨-, rfl, rfl⟩ | ⟨rfl, passes⟩ | ⟨rfl, passes⟩ | ⟨ids, rfl, read⟩
  · exact before
  · exact before.pass (passes.built trivial)
  · exact before.pass (passes.built trivial)
  · exact before.append (statement_made shallow read).1

/-- A block without statements has only newlines before its dedent. -/
theorem blockLoop_empty (enough : s.tokens.length < rounds)
    (h : repeatFrom (blockItem inner) rounds ([], false) s = .ok (([], ended), s')) :
    (s.tokens.dropWhile (· == .newline)).head? = some .dedent := by
  induction rounds generalizing s with
  | zero => exact absurd enough (Nat.not_lt_zero _)
  | succ rounds ih =>
    obtain ⟨r, s₁, item, h⟩ := bind_ok h
    rcases blockItem_cases item with ⟨⟨⟩, -⟩ | ⟨-, passed⟩ | ⟨rfl, passed⟩ | ⟨ids, rfl, read⟩
    · rw [passed.tokens]
      rfl
    · rw [passed.tokens, List.length_cons] at enough
      rw [passed.tokens]
      exact ih (Nat.lt_of_succ_lt_succ enough) h
    · have kept : ([] : List NodeId) ≠ [] := by
        refine repeatFrom_ok (I := fun body _ => body.1 ≠ []) h (statement_made shallow read).2
          fun body s r s' some turn => ?_
        rcases blockItem_cases turn with ⟨-, rfl, -⟩ | ⟨rfl, -⟩ | ⟨rfl, -⟩ | ⟨ids, rfl, -⟩
        · exact some
        · exact some
        · exact some
        · exact fun empty => some (List.append_eq_nil_iff.mp empty).1
      exact absurd rfl kept

theorem blockBody_made (h : blockBody inner s = .ok (ids, s')) : Blocked (d + 5) s ids s' := by
  obtain ⟨newline, s₁, ate, h⟩ := bind_ok h
  have passes : Built (fun _ => True) s s₁ [] := eat_built ate trivial
  cases newline with
  | true =>
    obtain ⟨o, head, h⟩ := bind_still peek?_ok h
    split at h
    · obtain ⟨_, _, failed, _⟩ := bind_ok h
      exact (unexpected_ok failed).elim
    · next indented =>
      obtain ⟨span, s₂, passed, h⟩ := bind_ok h
      have indent := advance_ok (head ▸ Classical.not_not.mp indented) passed
      obtain ⟨⟨body, ended⟩, s₃, loop, h⟩ := bind_ok h
      obtain ⟨rfl, rfl⟩ := pure_ok h
      have opened := passes.trans (indent.built trivial)
      refine ⟨iterate_ok (I := fun (body : List NodeId × Bool) s' => Made (d + 5) s body.1 s') loop
        ((made_nil s).pass opened) fun _ _ _ _ before => blockItem_made shallow before, ?_⟩
      rintro bound rfl
      have closes := blockLoop_empty shallow (Nat.lt_succ_of_le (opened.bounded bound)) loop
      refine ⟨s₁.tokens, passes.later, ?_⟩
      rw [indent.tokens]
      exact beq_iff_eq.mpr closes
  | false =>
    rcases eat_ok ate with ⟨⟨⟩, -⟩ | ⟨-, rfl, -⟩
    obtain ⟨made, some⟩ := simpleStatements_made shallow h
    exact ⟨made.mono (by omega), fun _ empty => absurd empty some⟩

end Statements

/-- Every level of the parser is eight levels of the tree: seven operators, and what they stand in. -/
theorem within_shallow (room : Nat) : (Inner.within room).Shallow (8 * room) := by
  have exhausted {α : Type} {v : Violation} {a : α} {s s' : State} {P : Prop}
      (h : (do fail v (← peekSpan?) : Parse α) s = .ok (a, s')) : P := by
    obtain ⟨_, _, _, h⟩ := bind_ok h
    exact (fail_ok h).elim
  induction room with
  | zero =>
    exact ⟨fun _ _ _ => exhausted, fun _ _ _ => exhausted, fun _ _ _ => exhausted, fun _ _ _ => exhausted,
      fun _ _ _ => exhausted⟩
  | succ room ih =>
    refine ⟨fun s a s' h => ⟨8 * room + 7, rfl, conditional_given ih h⟩,
      fun s a s' h => ⟨8 * room + 7, rfl, (notTest_given ih h).mono (by omega)⟩,
      fun s a s' h => ⟨8 * room + 7, rfl, (factor_given ih h).mono (by omega)⟩,
      fun s a s' h => ⟨8 * room + 7, rfl, (factor_given ih h).mono (by omega)⟩,
      fun s ids s' h => ⟨8 * room + 7, rfl, ?_⟩⟩
    have read := blockBody_made ih h
    exact ⟨read.toMade.mono (by omega), read.filled⟩

end Parse

end Scratchpad
