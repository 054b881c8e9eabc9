import Scratchpad.Proofs.Tree.Built

/-!
# What expressions build

An expression that is read is one open node (`Given`). With operands that nest less than `d` deep a
whole expression nests at most `d + 7` deep, one level for each operator between a conditional and an
atom.
-/

namespace Scratchpad

/-- An expression that nests at most so deep. -/
structure Sits (nodes : Array Node) (d : Nat) (id : NodeId) : Prop where
  sort : Fills nodes .expression id
  nests : Nests nodes d id

theorem Sits.grow {nodes nodes' : Array Node} {id : NodeId} (h : Sits nodes d id)
    (more : Grows nodes nodes') : Sits nodes' d id :=
  ⟨h.sort.mono more, h.nests.grow more⟩

theorem Sits.mono {nodes : Array Node} {id : NodeId} (h : Sits nodes d id) (le : d ≤ d') :
    Sits nodes d' id :=
  ⟨h.sort, h.nests.mono le⟩

namespace Parse

/-- From `s` to `s'` the expression `a` was read. -/
structure Given (d : Nat) (s : State) (a : NodeId) (s' : State) : Prop where
  built : Built InLine s s' [a]
  opens : s.tokens.head?.any startsExpression = true
  sits : Sits s'.nodes d a
  across : Across s s' [spanAt s'.nodes a]

/-- From `s` to `s'` the expressions were read. -/
structure AllGiven (d : Nat) (s : State) (ids : List NodeId) (s' : State) : Prop where
  built : Built InLine s s' ids
  sits : ∀ x ∈ ids, Sits s'.nodes d x
  across : Across s s' (ids.map (spanAt s'.nodes))

variable {inner : Inner} {s s' s'' : State} {a : NodeId} {ids ids' : List NodeId} {kind : NodeKind} {n : Node}

theorem Given.mono (h : Given d s a s') (le : d ≤ d') : Given d' s a s' :=
  ⟨h.built, h.opens, h.sits.mono le, h.across⟩

theorem Given.all (h : Given d s a s') : AllGiven d s [a] s' :=
  ⟨h.built, by simpa using h.sits, h.across⟩

theorem allGiven_nil (d : Nat) (s : State) : AllGiven d s [] s := ⟨built_refl s, nofun, across_refl s⟩

theorem AllGiven.mono (h : AllGiven d s ids s') (le : d ≤ d') : AllGiven d' s ids s' :=
  ⟨h.built, fun x mem => (h.sits x mem).mono le, h.across⟩

theorem AllGiven.spans {nodes : Array Node} (h : AllGiven d s ids s') (more : Grows s'.nodes nodes) :
    ids.map (spanAt nodes) = ids.map (spanAt s'.nodes) :=
  List.map_congr_left fun x mem => spanAt_grow (h.sits x mem).sort more

theorem AllGiven.append (h : AllGiven d s ids s') (h' : AllGiven d s' ids' s'') :
    AllGiven d s (ids ++ ids') s'' := by
  refine ⟨h.built.trans h'.built, fun x mem => ?_, ?_⟩
  · exact (List.mem_append.mp mem).elim (fun old => (h.sits x old).grow h'.built.grows) (h'.sits x)
  · rw [List.map_append, h.spans h'.built.grows]
    exact h.across.append h'.across

theorem AllGiven.pass (h : AllGiven d s ids s') (built : Built InLine s' s'' []) : AllGiven d s ids s'' := by
  simpa using h.append ⟨built, nofun, built.across⟩

theorem AllGiven.add (h : AllGiven d s ids s') (given : Given d s' a s'') : AllGiven d s (ids ++ [a]) s'' :=
  h.append given.all

/-- A span over all that was read, with tokens before and after it or without. -/
theorem AllGiven.covers {s₁ s₂ : State} {children : List NodeId} {front back : List Span}
    (before : Across s s₁ front) (h : AllGiven d s₁ ids s₂) (after : Across s₂ s' back)
    (more : Grows s₂.nodes s'.nodes) (listed : ∀ c ∈ children, c ∈ ids)
    (first : (front ++ ids.map (spanAt s'.nodes) ++ back).head? = some x)
    (last : (front ++ ids.map (spanAt s'.nodes) ++ back).getLast? = some y) :
    Covers s s' children (x.merge y) := by
  refine ⟨_, x, y, ?_, first, last, rfl, fun c mem => ?_⟩
  · rw [h.spans more]
    exact (before.append h.across).append after
  · exact List.mem_append_left _ (List.mem_append_right _ (List.mem_map_of_mem (listed c mem)))

/-- The place of a new node is where its span says. -/
theorem State.Adds.across (h : s'.Adds n a s'') (covers : Covers s s' ids n.span) :
    Across s s'' [spanAt s''.nodes a] := by
  rw [spanAt_of_found h.found]
  obtain ⟨-, rfl⟩ := h
  exact ⟨covers.across.rest, fun k laid x mem => { covers.across.lies k laid x mem with }, covers.across.inOrder⟩

/-- A node over expressions. -/
theorem State.Adds.given (h : s'.Adds n a s'') (built : Built InLine s s' ids)
    (opens : s.tokens.head?.any startsExpression = true) (sort : n.kind.isExpression = true)
    (takes : n.kind.children.Perm ids) (below : ∀ x ∈ n.kind.children, Sits s'.nodes d x)
    (whole : n.kind.Whole) (names : ∀ name ∈ n.kind.names, Token.name name ∈ s.tokens)
    (covers : Covers s s' n.kind.children n.span) : Given (d + 1) s a s'' := by
  have found := h.found
  refine ⟨built.add h takes ?_ whole names ?_ fun _ => covers, opens, ⟨⟨n, found, sort⟩, .node found ?_⟩,
    h.across covers⟩
  · rw [NodeKind.positions_expression sort]
    intro p mem
    obtain ⟨x, child, rfl⟩ := List.mem_map.mp mem
    exact (below x child).sort
  · rw [NodeKind.block?_expression sort]
    nofun
  · exact fun x mem => (below x mem).nests.grow h.grows

/-- A node on the level of its left operand. -/
theorem State.Adds.given_chain {left : NodeId} (h : s'.Adds n a s'') (built : Built InLine s s' ids)
    (opens : s.tokens.head?.any startsExpression = true) (sort : n.kind.isExpression = true)
    (takes : (left :: others).Perm ids) (first : Lower.leftOperand? n.kind = some left)
    (children : n.kind.children = left :: others) (start : Sits s'.nodes (d + 1) left)
    (below : ∀ x ∈ others, Sits s'.nodes d x) (whole : n.kind.Whole)
    (names : ∀ name ∈ n.kind.names, Token.name name ∈ s.tokens)
    (covers : Covers s s' n.kind.children n.span) : Given (d + 1) s a s'' := by
  have found := h.found
  refine ⟨built.add h (children ▸ takes) ?_ whole names ?_ fun _ => covers, opens,
    ⟨⟨n, found, sort⟩, .chain found first (start.nests.grow h.grows) ?_⟩, h.across covers⟩
  · rw [NodeKind.positions_expression sort, children]
    intro p mem
    obtain ⟨x, child, rfl⟩ := List.mem_map.mp mem
    rcases List.mem_cons.mp child with rfl | other
    · exact start.sort
    · exact (below x other).sort
  · rw [NodeKind.block?_expression sort]
    nofun
  · rw [children]
    exact fun x mem => (below x mem).nests.grow h.grows

/-- A node over an expression and what was read after it, with one token at the end. -/
theorem State.Adds.given_around {expr : NodeId} {s₁ s₂ s₃ s₄ : State} (h : s₄.Adds n a s')
    (before : Given (d + 1) s expr s₁) (opened : Built InLine s₁ s₂ []) (all : AllGiven d s₂ others s₃)
    (last : s₃.tokens.head? = some t ∧ advance s₃ = .ok (stop, s₄)) (one : InLine t)
    (sort : n.kind.isExpression = true) (first : Lower.leftOperand? n.kind = some expr)
    (children : n.kind.children = expr :: others) (whole : n.kind.Whole)
    (names : ∀ name ∈ n.kind.names, t = .name name) (span : n.span = (spanAt s₄.nodes expr).merge stop) :
    Given (d + 1) s a s' := by
  have passes := advance_ok last.1 last.2
  have closed : Built InLine s₃ s₄ [] := passes.built one
  have read : AllGiven (d + 1) s (expr :: others) s₃ := (before.all.pass opened).append (all.mono (Nat.le_succ d))
  have below := all.pass closed
  refine h.given_chain (read.pass closed).built before.opens sort (.refl _) first children
    ((read.pass closed).sits _ List.mem_cons_self) below.sits whole (fun name mem => ?_) ?_
  · refine read.built.tokens_subset ?_
    rw [passes.tokens, names name mem]
    exact List.mem_cons_self
  · rw [span]
    exact read.covers (across_refl s) (advance_across last.1 one last.2) closed.grows
      (fun _ mem => children ▸ mem) rfl List.getLast?_concat

/-- A node with nothing below it, for the next token. -/
theorem leaf_given (h : leaf kind s = .ok (a, s')) (head : s.tokens.head? = some t)
    (starts : startsExpression t = true) (one : InLine t) (sort : kind.isExpression = true)
    (none : kind.children = []) (whole : kind.Whole)
    (names : ∀ name ∈ kind.names, t = .name name) : Given 1 s a s' := by
  obtain ⟨span, s₁, passed, h⟩ := bind_ok h
  have passes := advance_ok head passed
  have covers : Covers s s₁ kind.children span :=
    ⟨[span], span, span, advance_across head one passed, rfl, rfl, span.merge_self.symm, by simp [none]⟩
  refine (push_ok h).given (d := 0) (passes.built one) (by simp [head, starts]) sort (by simp [none])
    (by simp [none]) whole (fun name mem => ?_) covers
  rw [passes.tokens, names name mem]
  exact List.mem_cons_self

/-! ### Lists of expressions -/

theorem items_given {item : List NodeId → Parse NodeId}
    (each : ∀ items s a s', item items s = .ok (a, s') → Given d s a s')
    (h : itemsBefore closer item s = .ok (ids, s')) : AllGiven d s ids s' :=
  itemsBefore_ok (I := AllGiven d s) h (allGiven_nil d s)
    (fun items _ a _ inv read => inv.add (each items _ a _ read))
    fun _ _ _ inv passes => inv.pass (passes.built trivial)

theorem more_given {continues : Parse Bool} {item : Parse NodeId}
    (asks : ∀ s b s', continues s = .ok (b, s') → Built InLine s s' [])
    (each : ∀ s a s', item s = .ok (a, s') → Given d s a s') (start : AllGiven d s ids s')
    (h : more continues item ids s' = .ok (ids', s'')) : AllGiven d s ids' s'' :=
  more_ok (I := AllGiven d s) h start
    (fun _ _ _ inv asked => inv.pass (asks _ _ _ asked))
    fun _ _ _ a _ inv asked read => (inv.pass (asks _ _ _ asked)).add (each _ a _ read)

theorem eat_built {P : Token → Prop} (h : eat t s = .ok (b, s')) (one : P t) : Built P s s' [] := by
  rcases eat_ok h with ⟨-, passes⟩ | ⟨-, rfl, -⟩
  · exact passes.built one
  · exact built_refl s

theorem more_head {continues : Parse Bool} {item : Parse α} {items items' : List α}
    (start : items.head? = some x) (h : more continues item items s = .ok (items', s')) : items'.head? = some x :=
  more_ok (I := fun items _ => items.head? = some x) h start (fun _ _ _ inv _ => inv)
    fun _ _ _ _ _ inv _ _ => by simp [inv]

theorem getLast?_getLastD {f : NodeId → Span} (some : ids.head? = some x) (y : NodeId) :
    (ids.map f).getLast? = .some (f (ids.getLastD y)) := by
  cases ids with
  | nil => cases some
  | cons x ids => simp [List.getLast?_cons]

/-- A loop whose first token is there goes round at least once. -/
theorem more_twice {item : Parse α} {items : List α} (head : s.tokens.head? = some t)
    (h : more (eat t) item [x] s = .ok (items, s')) : 2 ≤ items.length := by
  change repeatFrom (moreTurn (eat t) item) (s.total + 1) [x] s = _ at h
  obtain ⟨r, s₁, turn, h⟩ := bind_ok h
  obtain ⟨go, s₂, asked, turn⟩ := bind_ok turn
  rcases eat_ok asked with ⟨rfl, -⟩ | ⟨-, -, other⟩
  · obtain ⟨y, s₃, -, turn⟩ := bind_ok turn
    obtain ⟨rfl, rfl⟩ := pure_ok turn
    refine repeatFrom_ok (I := fun items _ => 2 ≤ items.length) h (by simp)
      fun items s r s' long h => ?_
    obtain ⟨go, s₁, -, h⟩ := bind_ok h
    cases go with
    | false =>
      obtain ⟨rfl, rfl⟩ := pure_ok h
      exact long
    | true =>
      obtain ⟨z, s₂, -, h⟩ := bind_ok h
      obtain ⟨rfl, rfl⟩ := pure_ok h
      simp only [Option.getD_some, List.length_append]
      omega
  · exact absurd head other

/-- From `s` to `s'` the statements were read. -/
structure Made (d : Nat) (s : State) (ids : List NodeId) (s' : State) : Prop where
  built : Built (fun _ => True) s s' ids
  sorts : ∀ x ∈ ids, Fills s'.nodes (.statement true true) x
  nests : ∀ x ∈ ids, Nests s'.nodes d x

/-- From `s` to `s'` a block was read. -/
structure Blocked (d : Nat) (s : State) (ids : List NodeId) (s' : State) : Prop extends Made d s ids s' where
  filled : s.Bounded → ids = [] → Token.HasEmptyBlock s.tokens

/-- What the parsers of the next level read nests less than `d` deep. -/
structure Inner.Shallow (d : Nat) (inner : Inner) : Prop where
  test : ∀ s a s', inner.test s = .ok (a, s') → ∃ e, d = e + 1 ∧ Given e s a s'
  negated : ∀ s a s', inner.negated s = .ok (a, s') → ∃ e, d = e + 1 ∧ Given e s a s'
  signed : ∀ s a s', inner.signed s = .ok (a, s') → ∃ e, d = e + 1 ∧ Given e s a s'
  exponent : ∀ s a s', inner.exponent s = .ok (a, s') → ∃ e, d = e + 1 ∧ Given e s a s'
  block : ∀ s ids s', inner.block s = .ok (ids, s') → ∃ e, d = e + 1 ∧ Blocked e s ids s'

section Expressions

variable (shallow : inner.Shallow d)

include shallow

theorem test_given (h : inner.test s = .ok (a, s')) : Given d s a s' := by
  obtain ⟨e, rfl, given⟩ := shallow.test s a s' h
  exact given.mono (Nat.le_succ e)

omit shallow in
/-- Expressions between commas: one alone stands for itself, and several make a tuple. -/
theorem commaList_given {item : Parse NodeId} {continues : Parse Bool}
    (asks : ∀ s b s', continues s = .ok (b, s') → Built InLine s s' [])
    (each : ∀ s a s', item s = .ok (a, s') → Given d s a s')
    (h : (do
      let first ← item
      if (← peek?) ≠ some (.symbol .comma) then return first
      let elts ← more continues item [first]
      pushBetween (.tuple elts) first (elts.getLastD first) : Parse NodeId) s = .ok (a, s')) :
    Given (d + 1) s a s' := by
  obtain ⟨first, s₁, read, h⟩ := bind_ok h
  have given := each s first s₁ read
  obtain ⟨o, rfl, h⟩ := bind_still peek?_ok h
  split at h
  · obtain ⟨rfl, rfl⟩ := pure_ok h
    exact given.mono (Nat.le_succ d)
  · obtain ⟨elts, s₂, others, h⟩ := bind_ok h
    have all := more_given asks each given.all others
    have head : elts.head? = some first := more_head rfl others
    exact (pushBetween_ok h).given all.built given.opens rfl (.refl _) all.sits trivial nofun
      (all.covers (across_refl s) (across_refl s₂) (.refl _) (fun _ => id) (by simp [head])
        (by simpa using getLast?_getLastD head first))

omit shallow in
/-- A comma, and a look at what follows. -/
theorem commaThen_built (ask : Option Token → Bool)
    (h : (do
      if ← eat (.symbol .comma) then return ask (← peek?)
      return false : Parse Bool) s = .ok (b, s')) : Built InLine s s' [] := by
  obtain ⟨eaten, s₁, ate, h⟩ := bind_ok h
  have built : Built InLine s s₁ [] := eat_built ate trivial
  cases eaten with
  | false =>
    obtain ⟨rfl, rfl⟩ := pure_ok h
    exact built
  | true =>
    obtain ⟨o, rfl, h⟩ := bind_still peek?_ok h
    obtain ⟨rfl, rfl⟩ := pure_ok h
    exact built

theorem testList_given (h : testList inner s = .ok (a, s')) : Given d s a s' := by
  obtain ⟨first, s₁, read, -⟩ := bind_ok h
  obtain ⟨e, rfl, -⟩ := shallow.test s first s₁ read
  refine commaList_given (fun _ _ _ => commaThen_built _) (fun s a s' read => ?_) h
  obtain ⟨e', same, given⟩ := shallow.test s a s' read
  cases same
  exact given

theorem namedTest_given (h : namedTest inner s = .ok (a, s')) : Given d s a s' := by
  obtain ⟨o, head, h⟩ := bind_still peek?_ok h
  obtain ⟨o', second, h⟩ := bind_still peekSecond?_ok h
  split at h
  · obtain ⟨start, s₁, name, h⟩ := bind_ok h
    have passes := advance_ok head.symm name
    obtain ⟨_, s₂, walrus, h⟩ := bind_ok h
    have next : s₁.tokens.head? = some (.symbol .walrus) := by
      rw [passes.tokens] at second
      rw [List.head?_eq_getElem?]
      exact second.symm
    have passes' := advance_ok next walrus
    obtain ⟨value, s₃, read, h⟩ := bind_ok h
    obtain ⟨e, rfl, given⟩ := shallow.test _ _ _ read
    obtain ⟨span, rfl, h⟩ := bind_still spanOf_ok h
    have walrus : Built InLine s₁ s₂ [] := passes'.built trivial
    have built := ((passes.built (P := InLine) trivial).trans walrus).trans given.built
    have start := (advance_across head.symm trivial name).append walrus.across
    refine (push_ok h).given built (by simp [← head, startsExpression]) rfl (.refl _) ?_ trivial ?_
      (given.all.covers start (across_refl s₃) (.refl _) (fun _ => id) rfl rfl)
    · simpa [NodeKind.children] using given.sits
    · simp [NodeKind.names, passes.tokens]
  · exact test_given shallow h

/-! ### Atoms -/

omit shallow in
theorem texts_given (head : s.tokens.head? = some (.text first)) (h : texts s = .ok (a, s')) :
    Given 1 s a s' := by
  obtain ⟨o, here, h⟩ := bind_still peekSpan?_ok h
  obtain ⟨r, s₂, loop, h⟩ := bind_ok h
  -- The first turn passes a text for sure.
  obtain ⟨_, _, got, loop⟩ := bind_ok loop
  cases got
  obtain ⟨r₁, s₁, turn, loop⟩ := bind_ok loop
  obtain ⟨o₁, rfl, turn⟩ := bind_still peek?_ok turn
  rw [head] at turn
  obtain ⟨start, s₃, passed, turn⟩ := bind_ok turn
  obtain ⟨rfl, rfl⟩ := pure_ok turn
  have same : o.getD {} = start := by
    rw [here, (advance_here head passed).1]
    rfl
  obtain ⟨built, xs, across, low, high⟩ : Built InLine s s₂ [] ∧
      ∃ xs, Across s s₂ xs ∧ xs.head? = some start ∧ xs.getLast? = some r.2 := by
    refine repeatFrom_ok (I := fun r s' => Built InLine s s' [] ∧
      ∃ xs, Across s s' xs ∧ xs.head? = some start ∧ xs.getLast? = some r.2) loop
      ⟨(advance_ok head passed).built trivial, _, advance_across head trivial passed, rfl, rfl⟩
      fun read s' r s'' inv h => ?_
    obtain ⟨o, head, h⟩ := bind_still peek?_ok h
    split at h
    · obtain ⟨span, s₂, passed, h⟩ := bind_ok h
      obtain ⟨rfl, rfl⟩ := pure_ok h
      obtain ⟨built, xs, across, low, high⟩ := inv
      exact ⟨built.trans ((advance_ok head.symm passed).built trivial), _,
        across.append (advance_across head.symm trivial passed), by simp [low], by simp⟩
    · obtain ⟨rfl, rfl⟩ := pure_ok h
      exact inv
  have covers : Covers s s₂ [] ((o.getD {}).merge r.2) := ⟨xs, start, r.2, across, low, high, by rw [same], nofun⟩
  exact (push_ok h).given (d := 0) built (by simp [head, startsExpression]) rfl (.refl _) nofun trivial
    nofun covers

theorem parenthesized_given (h : parenthesized inner s = .ok (a, s')) : Given (d + 1) s a s' := by
  obtain ⟨start, s₁, opened, h⟩ := bind_ok h
  have passes := expect_ok opened
  have starts : s.tokens.head?.any startsExpression = true := by
    rw [passes.tokens]
    rfl
  have built : Built InLine s s₁ [] := passes.built trivial
  have front : Across s s₁ [start] := expect_across opened trivial
  obtain ⟨o, rfl, h⟩ := bind_still peek?_ok h
  split at h
  · obtain ⟨stop, s₂, closed, h⟩ := bind_ok h
    have last : Built InLine s₁ s₂ [] := (expect_ok closed).built trivial
    exact (push_ok h).given (built.trans last) starts rfl (.refl _) nofun trivial nofun
      ((allGiven_nil d s₁).covers front (expect_across closed trivial) last.grows (fun _ => id) rfl rfl)
  · obtain ⟨first, s₂, read, h⟩ := bind_ok h
    have given := namedTest_given shallow read
    obtain ⟨comma, s₃, eaten, h⟩ := bind_ok h
    have all := given.all.pass (eat_built eaten trivial)
    cases comma with
    | true =>
      obtain ⟨others, s₄, items, h⟩ := bind_ok h
      have all := all.append (items_given (fun _ _ _ _ => namedTest_given shallow) items)
      obtain ⟨stop, s₅, closed, h⟩ := bind_ok h
      have last : Built InLine s₄ s₅ [] := (expect_ok closed).built trivial
      exact (push_ok h).given (built.trans (all.pass last).built) starts rfl (.refl _) (all.pass last).sits
        trivial nofun (all.covers front (expect_across closed trivial) last.grows (fun _ => id) rfl
          List.getLast?_concat)
    | false =>
      obtain ⟨stop, s₄, closed, h⟩ := bind_ok h
      obtain ⟨rfl, rfl⟩ := pure_ok h
      have all := all.pass ((expect_ok closed).built trivial)
      exact ⟨built.trans all.built, starts, (all.sits _ List.mem_cons_self).mono (Nat.le_succ d),
        built.across.append all.across⟩

theorem listDisplay_given (h : listDisplay inner s = .ok (a, s')) : Given (d + 1) s a s' := by
  obtain ⟨start, s₁, opened, h⟩ := bind_ok h
  have passes := expect_ok opened
  obtain ⟨elts, s₂, items, h⟩ := bind_ok h
  have all := items_given (fun _ _ _ _ => namedTest_given shallow) items
  obtain ⟨stop, s₃, closed, h⟩ := bind_ok h
  have last : Built InLine s₂ s₃ [] := (expect_ok closed).built trivial
  refine (push_ok h).given ((passes.built trivial).trans (all.pass last).built) ?_ rfl (.refl _)
    (all.pass last).sits trivial nofun (all.covers (expect_across opened trivial) (expect_across closed trivial)
      last.grows (fun _ => id) rfl List.getLast?_concat)
  rw [passes.tokens]
  rfl

/-- The nodes of the pairs of a dict, in the order of the source. -/
abbrev pairIds (pairs : List (NodeId × NodeId)) : List NodeId := pairs.flatMap fun (k, v) => [k, v]

theorem dictPair_given (h : dictPair inner s = .ok (r, s')) : AllGiven d s [r.1, r.2] s' := by
  obtain ⟨key, s₁, read, h⟩ := bind_ok h
  have given := test_given shallow read
  obtain ⟨o, head, h⟩ := bind_still peek?_ok h
  split at h
  · obtain ⟨span, s₂, spanned, h⟩ := bind_ok h
    obtain ⟨_, _, failed, h⟩ := bind_ok h
    exact (fail_ok failed).elim
  · next colon =>
    obtain ⟨span, s₂, passed, h⟩ := bind_ok h
    have passes := advance_ok (head ▸ Classical.not_not.mp colon) passed
    obtain ⟨value, s₃, read', h⟩ := bind_ok h
    obtain ⟨rfl, rfl⟩ := pure_ok h
    exact (given.all.pass (passes.built trivial)).add (test_given shallow read')

theorem dictDisplay_given (h : dictDisplay inner s = .ok (a, s')) : Given (d + 1) s a s' := by
  obtain ⟨start, s₁, opened, h⟩ := bind_ok h
  have passes := expect_ok opened
  obtain ⟨pairs, s₂, items, h⟩ := bind_ok h
  have all : AllGiven d s₁ (pairIds pairs) s₂ := by
    refine itemsBefore_ok (I := fun pairs s => AllGiven d s₁ (pairIds pairs) s) items
      (allGiven_nil d s₁) (fun pairs s r s' inv read => ?_)
      fun _ _ _ inv passes => inv.pass (passes.built trivial)
    rw [pairIds, List.flatMap_append, List.flatMap_singleton]
    exact inv.append (dictPair_given shallow read)
  obtain ⟨stop, s₃, closed, h⟩ := bind_ok h
  have last : Built InLine s₂ s₃ [] := (expect_ok closed).built trivial
  have children : (NodeKind.dict (pairs.map (·.1)) (pairs.map (·.2))).children = pairIds pairs := by
    rw [NodeKind.children, List.zip_map', List.map_id' ]
  refine (push_ok h).given ((passes.built trivial).trans (all.pass last).built) ?_ rfl (children ▸ .refl _)
    (children ▸ (all.pass last).sits) (by simp [NodeKind.Whole]) (by simp [NodeKind.names])
    (all.covers (expect_across opened trivial) (expect_across closed trivial) last.grows
      (fun _ mem => children ▸ mem) rfl List.getLast?_concat)
  rw [passes.tokens]
  rfl

theorem atom_given (h : atom inner s = .ok (a, s')) : Given (d + 1) s a s' := by
  obtain ⟨o, head, h⟩ := bind_still peek?_ok h
  have one : Given 1 s a s' → Given (d + 1) s a s' := fun given => given.mono (by omega)
  cases o with
  | none => exact (unexpected_ok h).elim
  | some t =>
    cases t with
    | name id =>
      refine one (leaf_given h head.symm rfl trivial rfl rfl trivial fun name mem => ?_)
      rw [List.mem_singleton.mp mem]
    | int n => exact one (leaf_given h head.symm rfl trivial rfl rfl trivial nofun)
    | float f => exact one (leaf_given h head.symm rfl trivial rfl rfl trivial nofun)
    | text part => exact one (texts_given head.symm h)
    | keyword k =>
      cases k with
      | trueKw | falseKw | noneKw =>
        exact one (leaf_given h head.symm rfl trivial rfl rfl trivial nofun)
      | _ => exact (unexpected_ok h).elim
    | symbol y =>
      cases y with
      | leftParen => exact parenthesized_given shallow h
      | leftBracket => exact listDisplay_given shallow h
      | leftBrace => exact dictDisplay_given shallow h
      | _ => exact (unexpected_ok h).elim
    | newline | indent | dedent => exact (unexpected_ok h).elim

/-! ### Operators -/

theorem argument_given (h : argument inner s = .ok (a, s')) : Given d s a s' := by
  obtain ⟨o, -, h⟩ := bind_still peek?_ok h
  obtain ⟨o', -, h⟩ := bind_still peekSecond?_ok h
  split at h
  · obtain ⟨span, s₁, peeked, h⟩ := bind_ok h
    exact (fail_ok h).elim
  · exact namedTest_given shallow h

/-- A trailer goes round the expression before it. -/
theorem trailer_given {expr : NodeId} {s₀ : State} (before : Given (d + 1) s₀ expr s)
    (h : trailer inner expr s = .ok (r, s')) : Given (d + 1) s₀ (r.getD expr) s' := by
  obtain ⟨o, head, h⟩ := bind_still peek?_ok h
  split at h
  · obtain ⟨span, s₁, passed, h⟩ := bind_ok h
    have opened : Built InLine s s₁ [] := (advance_ok head.symm passed).built trivial
    obtain ⟨args, s₂, items, h⟩ := bind_ok h
    have all := items_given (fun _ _ _ _ => argument_given shallow) items
    obtain ⟨stop, s₃, closed, h⟩ := bind_ok h
    obtain ⟨span', rfl, h⟩ := bind_still spanOf_ok h
    obtain ⟨id, s₄, pushed, h⟩ := bind_ok h
    obtain ⟨rfl, rfl⟩ := pure_ok h
    exact (push_ok pushed).given_around before opened all (expect_advance closed) trivial rfl rfl rfl trivial
      nofun rfl
  · obtain ⟨span, s₁, passed, h⟩ := bind_ok h
    have opened : Built InLine s s₁ [] := (advance_ok head.symm passed).built trivial
    obtain ⟨index, s₂, read, h⟩ := bind_ok h
    have all := (testList_given shallow read).all
    obtain ⟨stop, s₃, closed, h⟩ := bind_ok h
    obtain ⟨span', rfl, h⟩ := bind_still spanOf_ok h
    obtain ⟨id, s₄, pushed, h⟩ := bind_ok h
    obtain ⟨rfl, rfl⟩ := pure_ok h
    exact (push_ok pushed).given_around before opened all (expect_advance closed) trivial rfl rfl rfl trivial
      nofun rfl
  · obtain ⟨span, s₁, passed, h⟩ := bind_ok h
    have opened : Built InLine s s₁ [] := (advance_ok head.symm passed).built trivial
    obtain ⟨⟨attr, stop⟩, s₂, named, h⟩ := bind_ok h
    obtain ⟨span', rfl, h⟩ := bind_still spanOf_ok h
    obtain ⟨id, s₃, pushed, h⟩ := bind_ok h
    obtain ⟨rfl, rfl⟩ := pure_ok h
    exact (push_ok pushed).given_around before opened (allGiven_nil d s₁) (expectName_advance named) trivial rfl
      rfl rfl trivial (fun name mem => by rw [List.mem_singleton.mp mem]) rfl
  · obtain ⟨rfl, rfl⟩ := pure_ok h
    exact before

theorem primary_given (h : primary inner s = .ok (a, s')) : Given (d + 1) s a s' := by
  obtain ⟨first, s₁, read, h⟩ := bind_ok h
  exact iterate_ok (I := Given (d + 1) s) h (atom_given shallow read)
    fun _ _ _ _ before => trailer_given shallow before

theorem power_given (h : power inner s = .ok (a, s')) : Given (d + 1) s a s' := by
  obtain ⟨base, s₁, read, h⟩ := bind_ok h
  have given := primary_given shallow read
  obtain ⟨raised, s₂, eaten, h⟩ := bind_ok h
  have star := eat_built (P := InLine) eaten trivial
  cases raised with
  | true =>
    obtain ⟨exponent, s₃, read', h⟩ := bind_ok h
    obtain ⟨e, rfl, given'⟩ := shallow.exponent _ _ _ read'
    have both := (given.all.pass star).append (given'.all.mono (by omega))
    exact (pushBetween_ok h).given_chain both.built given.opens rfl (.refl _) rfl rfl
      (both.sits _ List.mem_cons_self) (by simpa using given'.sits.mono (Nat.le_succ e)) trivial nofun
      (both.covers (across_refl s) (across_refl s₃) (.refl _) (fun _ => id) rfl rfl)
  | false =>
    obtain ⟨rfl, rfl⟩ := pure_ok h
    rcases eat_ok eaten with ⟨⟨⟩, -⟩ | ⟨-, rfl, -⟩
    exact given

theorem factor_given (h : factor inner s = .ok (a, s')) : Given (d + 1) s a s' := by
  obtain ⟨o, head, h⟩ := bind_still peek?_ok h
  cases signed : sign? o with
  | some op =>
    rw [signed] at h
    obtain ⟨t, there, starts, one⟩ : ∃ t, s.tokens.head? = some t ∧ startsExpression t = true ∧ InLine t := by
      rw [← head]
      unfold sign? at signed
      split at signed
      · exact ⟨_, rfl, rfl, trivial⟩
      · exact ⟨_, rfl, rfl, trivial⟩
      · cases signed
    obtain ⟨span, s₁, passed, h⟩ := bind_ok h
    have passes := advance_ok there passed
    obtain ⟨operand, s₂, read, h⟩ := bind_ok h
    obtain ⟨e, rfl, given⟩ := shallow.signed _ _ _ read
    obtain ⟨span', rfl, h⟩ := bind_still spanOf_ok h
    have built := (passes.built one).trans given.built
    refine Given.mono ((push_ok h).given built (by simp [there, starts]) rfl (.refl _) ?_ trivial nofun
      (given.all.covers (advance_across there one passed) (across_refl s₂) (.refl _) (fun _ => id) rfl rfl))
      (Nat.le_succ _)
    simpa [NodeKind.children] using given.sits
  | none =>
    rw [signed] at h
    exact power_given shallow h

omit shallow in
theorem leftChain_given {op? : Option Token → Option BinaryOp} {operand : Parse NodeId}
    (ops : ∀ o op, op? o = some op → ∃ t, o = some t ∧ InLine t)
    (each : ∀ s a s', operand s = .ok (a, s') → Given d s a s')
    (h : leftChain op? operand s = .ok (a, s')) : Given (d + 1) s a s' := by
  obtain ⟨first, s₁, read, h⟩ := bind_ok h
  refine iterate_ok (I := Given (d + 1) s) h ((each _ _ _ read).mono (Nat.le_succ d))
    fun left s₁ r s' inv h => ?_
  obtain ⟨o, head, h⟩ := bind_still peek?_ok h
  cases there : op? o with
  | some op =>
    rw [there] at h
    obtain ⟨t, rfl, one⟩ := ops _ _ there
    obtain ⟨span, s₂, passed, h⟩ := bind_ok h
    have opened : Built InLine s₁ s₂ [] := (advance_ok head.symm passed).built one
    obtain ⟨right, s₃, read', h⟩ := bind_ok h
    have given := each _ _ _ read'
    obtain ⟨id, s₄, pushed, h⟩ := bind_ok h
    obtain ⟨rfl, rfl⟩ := pure_ok h
    have both := (inv.all.pass opened).append (given.all.mono (Nat.le_succ d))
    exact (pushBetween_ok pushed).given_chain both.built inv.opens rfl (.refl _) rfl rfl
      (both.sits _ List.mem_cons_self) (by simpa using given.sits) trivial nofun
      (both.covers (across_refl s) (across_refl s₃) (.refl _) (fun _ mem => mem) rfl rfl)
  | none =>
    rw [there] at h
    obtain ⟨rfl, rfl⟩ := pure_ok h
    exact inv

theorem term_given (h : term inner s = .ok (a, s')) : Given (d + 2) s a s' := by
  refine leftChain_given (fun o op found => ?_) (fun _ _ _ => factor_given shallow) h
  unfold termOp? at found
  split at found <;> first | exact ⟨_, rfl, trivial⟩ | cases found

theorem sum_given (h : sum inner s = .ok (a, s')) : Given (d + 3) s a s' := by
  refine leftChain_given (fun o op found => ?_) (fun _ _ _ => term_given shallow) h
  unfold sumOp? at found
  split at found <;> first | exact ⟨_, rfl, trivial⟩ | cases found

omit shallow in
/-- The tokens of a comparison operator. -/
theorem compareOp?_inLine {o o' : Option Token} (h : compareOp? o o' = some (op, size)) :
    (∃ t, o = some t ∧ InLine t) ∧ (size = 2 → ∃ t, o' = some t ∧ InLine t) := by
  unfold compareOp? at h
  split at h <;> cases h <;> refine ⟨⟨_, rfl, trivial⟩, fun two => ?_⟩ <;>
    first | exact ⟨_, rfl, trivial⟩ | omega

theorem link_given {links : List (CompareOp × NodeId)} {s₀ : State}
    (before : AllGiven (d + 3) s₀ (links.map (·.2)) s) (h : link inner links s = .ok (r, s')) :
    AllGiven (d + 3) s₀ ((r.getD links).map (·.2)) s' := by
  obtain ⟨o, head, read⟩ := bind_still peek?_ok h
  obtain ⟨o', second, rest⟩ := bind_still peekSecond?_ok read
  cases there : compareOp? o o' with
  | some found =>
    obtain ⟨op, size⟩ := found
    rw [there] at rest
    obtain ⟨⟨t, rfl, one⟩, two⟩ := compareOp?_inLine there
    obtain ⟨span, s₁, passed, rest⟩ := bind_ok rest
    have passes := advance_ok head.symm passed
    have inv := before.pass (passes.built one)
    have operand : ∀ s₂, AllGiven (d + 3) s₀ (links.map (·.2)) s₂ →
        (sum inner >>= fun x => pure (some (links ++ [(op, x)]))) s₂ = .ok (r, s') →
        AllGiven (d + 3) s₀ ((r.getD links).map (·.2)) s' := by
      intro s₂ inv rest
      obtain ⟨right, s₃, made, rest⟩ := bind_ok rest
      obtain ⟨rfl, rfl⟩ := pure_ok rest
      rw [Option.getD_some, List.map_append]
      exact inv.add (sum_given shallow made)
    by_cases long : size = 2
    · obtain ⟨t', rfl, one'⟩ := two long
      rw [if_pos long] at rest
      obtain ⟨span', s₂, passed', rest⟩ := bind_ok rest
      have next : s₁.tokens.head? = some t' := by
        rw [passes.tokens] at second
        rw [List.head?_eq_getElem?]
        exact second.symm
      exact operand s₂ (inv.pass ((advance_ok next passed').built one')) rest
    · rw [if_neg long] at rest
      exact operand s₁ inv rest
  | none =>
    rw [there] at rest
    obtain ⟨rfl, rfl⟩ := pure_ok rest
    exact before

theorem comparison_given (h : comparison inner s = .ok (a, s')) : Given (d + 4) s a s' := by
  obtain ⟨left, s₁, read, h⟩ := bind_ok h
  have given := sum_given shallow read
  obtain ⟨links, s₂, loop, h⟩ := bind_ok h
  have all : AllGiven (d + 3) s₁ (links.map (·.2)) s₂ :=
    iterate_ok (I := fun links s => AllGiven (d + 3) s₁ (links.map (·.2)) s) loop
      (allGiven_nil _ s₁) fun _ _ _ _ before => link_given shallow before
  have all := given.all.append all
  cases links with
  | nil =>
    obtain ⟨rfl, rfl⟩ := pure_ok h
    exact ⟨all.built, given.opens, (all.sits _ List.mem_cons_self).mono (by omega), all.across⟩
  | cons first others =>
    have last : (((first :: others).map (·.2)).map (spanAt s₂.nodes)).getLast? = _ := getLast?_getLastD rfl left
    exact (pushBetween_ok h).given all.built given.opens rfl (.refl _) all.sits (by simp [NodeKind.Whole]) nofun
      (all.covers (across_refl s) (across_refl s₂) (.refl _) (fun _ => id) rfl (by simpa using last))

theorem notTest_given (h : notTest inner s = .ok (a, s')) : Given (d + 4) s a s' := by
  obtain ⟨o, head, h⟩ := bind_still peek?_ok h
  split at h
  · next negated =>
    obtain ⟨span, s₁, passed, h⟩ := bind_ok h
    have there := head.symm.trans negated
    have passes := advance_ok there passed
    obtain ⟨operand, s₂, read, h⟩ := bind_ok h
    obtain ⟨e, rfl, given⟩ := shallow.negated _ _ _ read
    obtain ⟨span', rfl, h⟩ := bind_still spanOf_ok h
    refine Given.mono ((push_ok h).given (d := e) ((passes.built trivial).trans given.built)
      (by simp [there, startsExpression]) rfl (.refl _) ?_ trivial nofun
      (given.all.covers (advance_across there trivial passed) (across_refl s₂) (.refl _) (fun _ => id) rfl rfl))
      (by omega)
    simpa [NodeKind.children] using given.sits
  · exact comparison_given shallow h

omit shallow in
theorem wordChain_given {operand : Parse NodeId}
    (each : ∀ s a s', operand s = .ok (a, s') → Given d s a s')
    (h : wordChain word op operand s = .ok (a, s')) : Given (d + 1) s a s' := by
  obtain ⟨first, s₁, read, h⟩ := bind_ok h
  have given := each _ _ _ read
  obtain ⟨o, head, h⟩ := bind_still peek?_ok h
  split at h
  · obtain ⟨rfl, rfl⟩ := pure_ok h
    exact given.mono (Nat.le_succ d)
  · next joined =>
    obtain ⟨values, s₂, others, h⟩ := bind_ok h
    have all := more_given (fun _ _ _ ate => eat_built (t := .keyword word) ate trivial) each given.all others
    have first : values.head? = some first := more_head rfl others
    exact (pushBetween_ok h).given all.built given.opens rfl (.refl _) all.sits
      (more_twice (head ▸ Classical.not_not.mp joined) others) nofun
      (all.covers (across_refl s) (across_refl s₂) (.refl _) (fun _ => id) (by simp [first])
        (by simpa using getLast?_getLastD first _))

theorem andTest_given (h : andTest inner s = .ok (a, s')) : Given (d + 5) s a s' :=
  wordChain_given (fun _ _ _ => notTest_given shallow) h

theorem orTest_given (h : orTest inner s = .ok (a, s')) : Given (d + 6) s a s' :=
  wordChain_given (fun _ _ _ => andTest_given shallow) h

theorem conditional_given (h : conditional inner s = .ok (a, s')) : Given (d + 7) s a s' := by
  obtain ⟨body, s₁, read, h⟩ := bind_ok h
  have given := orTest_given shallow read
  obtain ⟨o, head, h⟩ := bind_still peek?_ok h
  split at h
  · obtain ⟨rfl, rfl⟩ := pure_ok h
    exact given.mono (Nat.le_succ _)
  · next chosen =>
    obtain ⟨span, s₂, passed, h⟩ := bind_ok h
    have passes := advance_ok (head ▸ Classical.not_not.mp chosen) passed
    obtain ⟨test, s₃, read', h⟩ := bind_ok h
    have given' := orTest_given shallow read'
    obtain ⟨span', s₄, closed, h⟩ := bind_ok h
    obtain ⟨orelse, s₅, read'', h⟩ := bind_ok h
    obtain ⟨e, rfl, given''⟩ := shallow.test _ _ _ read''
    have all := ((given.all.pass (passes.built trivial)).add given').pass
      ((expect_ok closed).built trivial) |>.add (given''.mono (by omega))
    have takes : (NodeKind.conditional test body orelse).children.Perm ([body] ++ [test] ++ [orelse]) :=
      List.Perm.swap body test [orelse]
    exact (pushBetween_ok h).given all.built given.opens rfl takes
      (fun x mem => all.sits x (takes.subset mem)) trivial nofun
      (all.covers (across_refl s) (across_refl s₅) (.refl _) (fun _ mem => takes.subset mem) rfl rfl)

end Expressions

end Parse

end Scratchpad
