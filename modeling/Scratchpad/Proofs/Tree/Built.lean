import Scratchpad.Code.Lower
import Scratchpad.Proofs.Tree.Reads
import Scratchpad.Proofs.Tree.WellFormed

/-!
# What a parser builds

`Built P s s' ids`: on its way from `s` to `s'` a parser passed tokens with `P` and added nodes, each
of which is mentioned once, by a later node or in `ids`. The new nodes are `Sound`: they mention
earlier nodes of the right sort, are whole, have the names of tokens, and own an empty block only if the
tokens do. Parsers that run one after the other put what they built side by side (`Built.trans`), and a
new node takes up all that is open (`Built.add`). Spans of tokens and nodes that were read one after the
other stand in order (`Across`), and the span of an expression goes from the first to the last of such
(`Covers`).
-/

namespace Scratchpad

/-- The statements of the block that a node owns. -/
def NodeKind.block? : NodeKind → Option (List NodeId)
  | .functionDef _ _ body | .ifStmt _ body _ | .whileLoop _ body | .forLoop _ _ body => some body
  | _ => none

theorem NodeKind.block?_expression {kind : NodeKind} (h : kind.isExpression = true) : kind.block? = none := by
  cases kind <;> first | rfl | contradiction

/-- Do the tokens open a block and, after nothing but newlines, close it? -/
def Token.opensEmptyBlock : List Token → Bool
  | .indent :: ts => (ts.dropWhile (· == .newline)).head? == some .dedent
  | _ => false

def Token.HasEmptyBlock (ts : List Token) : Prop := ∃ back, back <:+ ts ∧ opensEmptyBlock back = true

theorem Token.HasEmptyBlock.mono {ts ts' : List Token} (h : HasEmptyBlock ts) (later : ts <:+ ts') :
    HasEmptyBlock ts' := by
  obtain ⟨back, suffix, empty⟩ := h
  exact ⟨back, suffix.trans later, empty⟩

/-- The positions below a node, with what they ask for. -/
def NodeKind.positions (kind : NodeKind) : List (Role × NodeId) := (Role.statement true true).below kind

theorem NodeKind.positions_expression {kind : NodeKind} (h : kind.isExpression = true) :
    kind.positions = kind.children.map (Role.expression, ·) := by
  cases kind <;> first | rfl | contradiction

/-- A node has all its parts: `and` and `or` two operands, a comparison an operator for each operand
but the first, a dict a value for each key; and no parameter is there twice. -/
def NodeKind.Whole : NodeKind → Prop
  | .assign targets _ => targets ≠ []
  | .boolean _ values => 2 ≤ values.length
  | .compare _ ops comparators => ops ≠ [] ∧ ops.length = comparators.length
  | .dict keys values => keys.length = values.length
  | .functionDef _ params _ => params.Nodup
  | _ => True

/-- Names, subscripts and attributes, and tuples and lists of such. -/
inductive Assignable (nodes : Array Node) : NodeId → Prop
  | place {id : NodeId} {n : Node} (found : nodes[id]? = some n)
      (one : Parse.canAugment n.kind = true) : Assignable nodes id
  | display {id : NodeId} {n : Node} (found : nodes[id]? = some n)
      (kind : n.kind = .tuple elts ∨ n.kind = .list elts) (all : ∀ x ∈ elts, Assignable nodes x) :
      Assignable nodes id

/-- A node of the sort that a position asks for. -/
def Fills (nodes : Array Node) : Role → NodeId → Prop
  | .statement _ _, id => ∃ n, nodes[id]? = some n ∧ n.kind.isStatement = true
  | .expression, id => ∃ n, nodes[id]? = some n ∧ n.kind.isExpression = true
  | .target, id => Assignable nodes id
  | .augmented, id => ∃ n, nodes[id]? = some n ∧ Parse.canAugment n.kind = true

/-- How far what hangs on a node nests: an operation is on one level with its left operand, and an
`elif` with the `if` before it. -/
inductive Nests (nodes : Array Node) : Nat → NodeId → Prop
  | node {id : NodeId} {n : Node} (found : nodes[id]? = some n)
      (below : ∀ x ∈ n.kind.children, Nests nodes d x) : Nests nodes (d + 1) id
  | chain {id left : NodeId} {n : Node} (found : nodes[id]? = some n)
      (first : Lower.leftOperand? n.kind = some left) (start : Nests nodes (d + 1) left)
      (others : ∀ x ∈ n.kind.children.tail, Nests nodes d x) : Nests nodes (d + 1) id
  | elif {id test other : NodeId} {n n' : Node} (found : nodes[id]? = some n)
      (kind : n.kind = .ifStmt test body [other]) (decides : Nests nodes d test)
      (below : ∀ x ∈ body, Nests nodes d x) (next : nodes[other]? = some n')
      (again : n'.kind = .ifStmt test' body' orelse') (rest : Nests nodes (d + 1) other) :
      Nests nodes (d + 1) id

section Growing

variable {nodes nodes' : Array Node} {id : NodeId}

theorem Assignable.mono (h : Assignable nodes id) (more : Grows nodes nodes') :
    Assignable nodes' id := by
  induction h with
  | place found one => exact .place (more _ _ found) one
  | display found kind _ ih => exact .display (more _ _ found) kind ih

theorem Fills.mono {role : Role} (h : Fills nodes role id) (more : Grows nodes nodes') :
    Fills nodes' role id := by
  cases role with
  | target => exact Assignable.mono h more
  | statement | expression | augmented =>
    obtain ⟨n, found, sort⟩ := h
    exact ⟨n, more _ _ found, sort⟩

theorem Nests.grow (h : Nests nodes d id) (more : Grows nodes nodes') : Nests nodes' d id := by
  induction h with
  | node found _ ih => exact .node (more _ _ found) ih
  | chain found first _ _ ih ih' => exact .chain (more _ _ found) first ih ih'
  | elif found kind _ _ next again _ ih ih' ih'' =>
    exact .elif (more _ _ found) kind ih ih' (more _ _ next) again ih''

theorem Nests.mono (h : Nests nodes d id) (le : d ≤ d') : Nests nodes d' id := by
  induction h generalizing d' with
  | node found _ ih =>
    obtain ⟨d', rfl⟩ : ∃ e, d' = e + 1 := ⟨d' - 1, by omega⟩
    exact .node found fun x mem => ih x mem (by omega)
  | chain found first _ _ ih ih' =>
    obtain ⟨d', rfl⟩ : ∃ e, d' = e + 1 := ⟨d' - 1, by omega⟩
    exact .chain found first (ih le) fun x mem => ih' x mem (by omega)
  | elif found kind _ _ next again _ ih ih' ih'' =>
    obtain ⟨d', rfl⟩ : ∃ e, d' = e + 1 := ⟨d' - 1, by omega⟩
    exact .elif found kind (ih (by omega)) (fun x mem => ih' x mem (by omega)) next again (ih'' le)

end Growing

/-! ### Spans -/

/-- The stretch of the source is part of another. -/
def Span.Within (a b : Span) : Prop := b.start ≤ a.start ∧ a.stop ≤ b.stop

theorem Span.merge_self (a : Span) : a.merge a = a := by simp [Span.merge]

namespace Parse

/-- The span of a node, as the parser asks for it. -/
def spanAt (nodes : Array Node) (id : NodeId) : Span := (nodes[id]?.map (·.span)).getD {}

theorem spanAt_of_found {nodes : Array Node} {id : NodeId} {n : Node} (found : nodes[id]? = some n) :
    spanAt nodes id = n.span := by
  rw [spanAt, found]
  rfl

theorem spanAt_grow {nodes nodes' : Array Node} {id : NodeId} (sort : Fills nodes .expression id)
    (more : Grows nodes nodes') : spanAt nodes' id = spanAt nodes id := by
  obtain ⟨n, found, -⟩ := sort
  rw [spanAt_of_found found, spanAt_of_found (more _ _ found)]

/-- Does the token stand inside a line and inside one statement of it? -/
def InLine : Token → Prop
  | .newline | .indent | .dedent | .symbol .semicolon => False
  | _ => True

/-- What the spans of tokens have, and the spans that are made of two such. -/
structure Scale where
  fits : Span → Prop
  proper : fits a → a.start < a.stop
  merge : fits a → fits b → fits (a.merge b)

/-- The tokens still to read stand in order, as far as they are inside lines. -/
structure State.Laid (k : Scale) (s : State) : Prop where
  fits : ∀ p ∈ s.rest, InLine p.token → k.fits p.span
  inOrder : s.rest.Pairwise fun p q => InLine p.token → InLine q.token → p.span.stop ≤ q.span.start

/-- The span is among those of the tokens from `s` to `s'`. -/
structure Lies (k : Scale) (s s' : State) (x : Span) : Prop where
  fits : k.fits x
  low : ∃ p ∈ s.rest, InLine p.token ∧ p.span.start ≤ x.start
  high : ∀ p ∈ s'.rest, InLine p.token → x.stop ≤ p.span.start

/-- From `s` to `s'` the spans were met, one after the other. -/
structure Across (s s' : State) (xs : List Span) : Prop where
  rest : s'.rest <:+ s.rest
  lies : ∀ k, s.Laid k → ∀ x ∈ xs, Lies k s s' x
  inOrder : ∀ k, s.Laid k → xs.Pairwise (·.stop ≤ ·.start)

/-- The span goes from the first to the last of some that were met, the nodes' among them. -/
def Covers (s s' : State) (ids : List NodeId) (span : Span) : Prop :=
  ∃ xs a b, Across s s' xs ∧ xs.head? = some a ∧ xs.getLast? = some b ∧ span = a.merge b ∧
    ∀ c ∈ ids, spanAt s'.nodes c ∈ xs

section Spans

variable {s s' s'' : State} {xs ys : List Span} {span : Span} {k : Scale} {ids : List NodeId}

theorem State.Laid.later (h : s.Laid k) (rest : s'.rest <:+ s.rest) : s'.Laid k :=
  ⟨fun p mem => h.fits p (rest.subset mem), h.inOrder.sublist rest.sublist⟩

theorem across_refl (s : State) : Across s s [] := ⟨List.suffix_refl _, nofun, fun _ _ => .nil⟩

theorem Across.append (h : Across s s' xs) (h' : Across s' s'' ys) : Across s s'' (xs ++ ys) := by
  refine ⟨h'.rest.trans h.rest, fun k laid x mem => ?_, fun k laid => ?_⟩
  · rcases List.mem_append.mp mem with old | new
    · have lies := h.lies k laid x old
      exact ⟨lies.fits, lies.low, fun p mem => lies.high p (h'.rest.subset mem)⟩
    · obtain ⟨fits, ⟨p, mem, low⟩, high⟩ := h'.lies k (laid.later h.rest) x new
      exact ⟨fits, ⟨p, h.rest.subset mem, low⟩, high⟩
  · refine List.pairwise_append.mpr ⟨h.inOrder k laid, h'.inOrder k (laid.later h.rest), fun x old y new => ?_⟩
    obtain ⟨p, mem, inLine, low⟩ := (h'.lies k (laid.later h.rest) y new).low
    exact ((h.lies k laid x old).high p mem inLine).trans low

/-- All that was met is between the first and the last. -/
theorem Across.between (h : Across s s' xs) (laid : s.Laid k) (first : xs.head? = some a)
    (last : xs.getLast? = some b) {x : Span} (mem : x ∈ xs) : a.start ≤ x.start ∧ x.stop ≤ b.stop := by
  have proper {y : Span} (mem : y ∈ xs) : y.start < y.stop := k.proper (h.lies k laid y mem).fits
  have inOrder := h.inOrder k laid
  constructor
  · obtain ⟨ys, rfl⟩ := List.head?_eq_some_iff.mp first
    rcases List.mem_cons.mp mem with rfl | later
    · exact Nat.le_refl _
    · exact (proper List.mem_cons_self).le.trans (List.rel_of_pairwise_cons inOrder later)
  · obtain ⟨ys, rfl⟩ := List.getLast?_eq_some_iff.mp last
    rcases List.mem_append.mp mem with earlier | same
    · exact ((List.pairwise_append.mp inOrder).2.2 x earlier b (by simp)).trans (proper (by simp)).le
    · rw [List.mem_singleton.mp same]

theorem Covers.fits (h : Covers s s' ids span) (laid : s.Laid k) :
    k.fits span ∧ ∀ c ∈ ids, (spanAt s'.nodes c).Within span := by
  obtain ⟨xs, a, b, across, first, last, rfl, listed⟩ := h
  refine ⟨k.merge (across.lies k laid a (List.mem_of_head? first)).fits
    (across.lies k laid b (List.mem_of_getLast? last)).fits, fun c mem => ?_⟩
  obtain ⟨low, high⟩ := across.between laid first last (listed c mem)
  exact ⟨(Nat.min_le_left ..).trans low, high.trans (Nat.le_max_right ..)⟩

theorem Covers.across (h : Covers s s' ids span) : Across s s' [span] := by
  have whole := h
  obtain ⟨xs, a, b, across, first, last, rfl, -⟩ := h
  refine ⟨across.rest, fun k laid x mem => ?_, fun _ _ => List.pairwise_singleton _ _⟩
  rw [List.mem_singleton.mp mem]
  have start := across.lies k laid a (List.mem_of_head? first)
  have stop := across.lies k laid b (List.mem_of_getLast? last)
  obtain ⟨p, mem, inLine, low⟩ := start.low
  have order := (across.between laid first last (List.mem_of_getLast? last)).1
  exact ⟨(whole.fits laid).1, ⟨p, mem, inLine, Nat.le_min.mpr ⟨low, low.trans order⟩⟩, fun q mem inLine =>
    Nat.max_le.mpr ⟨start.high q mem inLine, stop.high q mem inLine⟩⟩

end Spans

/-! ### Nodes -/

/-- What holds of a node that a parser added, given where it began to read. -/
structure Sound (s : State) (nodes : Array Node) (id : NodeId) (n : Node) : Prop where
  earlier : ∀ child ∈ n.kind.children, child < id
  fills : ∀ p ∈ n.kind.positions, Fills nodes p.1 p.2
  whole : n.kind.Whole
  names : ∀ name ∈ n.kind.names, Token.name name ∈ s.tokens
  filled : s.Bounded → n.kind.block? = some [] → Token.HasEmptyBlock s.tokens
  placed : n.kind.isExpression = true → ∀ k, s.Laid k →
    k.fits n.span ∧ ∀ c ∈ n.kind.children, (spanAt nodes c).Within n.span

structure Built (P : Token → Prop) (s s' : State) (ids : List NodeId) : Prop where
  passed : ∃ used, s.tokens = used ++ s'.tokens ∧ ∀ t ∈ used, P t
  rest : s'.rest <:+ s.rest
  total : s'.total = s.total
  grown : ∃ new : List Node, s'.nodes.toList = s.nodes.toList ++ new ∧
    (new.flatMap (·.kind.children) ++ ids).Perm (List.range' s.nodes.size new.length)
  sound : ∀ id n, s.nodes.size ≤ id → s'.nodes[id]? = some n → Sound s s'.nodes id n

variable {P : Token → Prop} {s s' s'' : State} {id first last : NodeId} {ids ids' : List NodeId}
  {kind : NodeKind} {n : Node}

theorem Built.across (h : Built P s s' ids) : Across s s' [] := ⟨h.rest, nofun, fun _ _ => .nil⟩

theorem Built.grows (h : Built P s s' ids) : Grows s.nodes s'.nodes := by
  obtain ⟨new, added, _⟩ := h.grown
  intro i n found
  rw [← Array.getElem?_toList] at found ⊢
  rw [added, List.getElem?_append_left (List.getElem?_eq_some_iff.mp found).1]
  exact found

theorem Built.lt (h : Built P s s' ids) (mem : id ∈ ids) : id < s'.nodes.size := by
  obtain ⟨new, added, once⟩ := h.grown
  have := congrArg List.length added
  simp only [Array.length_toList, List.length_append] at this
  have inside := List.mem_range'_1.mp (once.subset (List.mem_append_right _ mem))
  rw [this]
  exact inside.2

theorem Built.ge (h : Built P s s' ids) (mem : id ∈ ids) : s.nodes.size ≤ id := by
  obtain ⟨new, _, once⟩ := h.grown
  exact (List.mem_range'_1.mp (once.subset (List.mem_append_right _ mem))).1

/-- New nodes mention only new ones. -/
theorem Built.new_child {child : NodeId} {n : Node} (h : Built P s s' ids) (new : s.nodes.size ≤ id)
    (found : s'.nodes[id]? = some n) (mem : child ∈ n.kind.children) : s.nodes.size ≤ child := by
  obtain ⟨nodes, added, once⟩ := h.grown
  have listed : n ∈ nodes := by
    rw [← Array.getElem?_toList, added, List.getElem?_append_right new] at found
    exact List.mem_of_getElem? found
  have mentioned : child ∈ nodes.flatMap (·.kind.children) := List.mem_flatMap.mpr ⟨n, listed, mem⟩
  exact (List.mem_range'_1.mp (once.subset (List.mem_append_left _ mentioned))).1

theorem built_refl (s : State) : Built P s s [] where
  passed := ⟨[], rfl, nofun⟩
  rest := List.suffix_refl _
  total := rfl
  grown := ⟨[], by simp⟩
  sound id n old found := absurd (Array.getElem?_eq_some_iff.mp found).1 (Nat.not_lt.mpr old)

theorem Built.perm (h : Built P s s' ids) (same : ids.Perm ids') : Built P s s' ids' := by
  obtain ⟨new, added, once⟩ := h.grown
  exact ⟨h.passed, h.rest, h.total, ⟨new, added, (same.append_left _).symm.trans once⟩, h.sound⟩

theorem Built.weaken {Q : Token → Prop} (h : Built P s s' ids) (weaker : ∀ t, P t → Q t) :
    Built Q s s' ids := by
  obtain ⟨used, tokens, all⟩ := h.passed
  exact ⟨⟨used, tokens, fun t mem => weaker t (all t mem)⟩, h.rest, h.total, h.grown, h.sound⟩

theorem Built.later (h : Built P s s' ids) : s'.tokens <:+ s.tokens := by
  obtain ⟨used, tokens, _⟩ := h.passed
  exact ⟨used, tokens.symm⟩

theorem Built.tokens_subset (h : Built P s s' ids) : s'.tokens ⊆ s.tokens := h.later.subset

theorem Built.bounded (h : Built P s s' ids) (bound : s.Bounded) : s'.Bounded := by
  unfold State.Bounded at bound ⊢
  rw [h.total]
  exact Nat.le_trans h.later.length_le bound

theorem Sound.grow {nodes nodes' : Array Node} (h : Sound s nodes id n) (more : Grows nodes nodes') :
    Sound s nodes' id n := by
  refine { h with fills := fun p mem => (h.fills p mem).mono more, placed := fun sort k laid => ?_ }
  obtain ⟨fits, within⟩ := h.placed sort k laid
  refine ⟨fits, fun c mem => ?_⟩
  have position : (Role.expression, c) ∈ n.kind.positions := by
    rw [NodeKind.positions_expression sort]
    exact List.mem_map_of_mem mem
  rw [spanAt_grow (h.fills _ position) more]
  exact within c mem

theorem Sound.after {nodes : Array Node} (h : Sound s' nodes id n) (built : Built P s s' ids) :
    Sound s nodes id n :=
  { h with
    names := fun x mem => built.tokens_subset (h.names x mem)
    filled := fun bound empty => (h.filled (built.bounded bound) empty).mono built.later
    placed := fun sort k laid => h.placed sort k (laid.later built.rest) }

theorem Built.trans (h : Built P s s' ids) (h' : Built P s' s'' ids') :
    Built P s s'' (ids ++ ids') := by
  refine ⟨?_, h'.rest.trans h.rest, h'.total.trans h.total, ?_, fun id n new found => ?_⟩
  · obtain ⟨used, tokens, all⟩ := h.passed
    obtain ⟨used', tokens', all'⟩ := h'.passed
    refine ⟨used ++ used', by rw [tokens, tokens', List.append_assoc], fun t mem => ?_⟩
    exact (List.mem_append.mp mem).elim (all t) (all' t)
  · obtain ⟨new, added, once⟩ := h.grown
    obtain ⟨new', added', once'⟩ := h'.grown
    have size : s'.nodes.size = s.nodes.size + new.length := by
      simpa using congrArg List.length added
    refine ⟨new ++ new', by rw [added', added, List.append_assoc], ?_⟩
    rw [List.flatMap_append, List.length_append, ← List.range'_append_1, ← size]
    refine .trans ?_ (once.append once')
    simp only [List.append_assoc]
    refine .append_left _ ?_
    rw [← List.append_assoc, ← List.append_assoc]
    exact .append_right _ List.perm_append_comm
  · by_cases old : s'.nodes.size ≤ id
    · exact (h'.sound id n old found).after h
    · have lt : id < s'.nodes.size := Nat.lt_of_not_le old
      have before : s'.nodes[id]? = some n := by
        rw [Array.getElem?_eq_getElem lt, ← h'.grows _ _ (Array.getElem?_eq_getElem lt), found]
      exact (h.sound id n new before).grow h'.grows

/-! ### The steps of a parser -/

theorem bind_ok {p : Parse α} {f : α → Parse β} (h : (p >>= f) s = .ok (b, s'')) :
    ∃ a s', p s = .ok (a, s') ∧ f a s' = .ok (b, s'') := by
  match done : p s with
  | .ok (a, s') =>
    rw [bind_of_ok done] at h
    exact ⟨a, s', rfl, h⟩
  | .error e =>
    rw [bind_of_error done] at h
    cases h

/-- A step that changes nothing. -/
theorem bind_still {p : Parse α} {f : α → Parse β} {P : α → Prop}
    (still : ∀ {a s'}, p s = .ok (a, s') → P a ∧ s = s') (h : (p >>= f) s = .ok (b, s'')) :
    ∃ a, P a ∧ f a s = .ok (b, s'') := by
  obtain ⟨a, _, first, rest⟩ := bind_ok h
  obtain ⟨holds, rfl⟩ := still first
  exact ⟨a, holds, rest⟩

theorem pure_ok {a b : α} (h : (pure a : Parse α) s = .ok (b, s')) : a = b ∧ s = s' := by
  cases h
  exact ⟨rfl, rfl⟩

theorem fail_ok {a : α} (h : (fail v span : Parse α) s = .ok (a, s')) : False := nomatch h

theorem unexpected_ok {a : α} (h : (unexpected what : Parse α) s = .ok (a, s')) : False := by
  unfold unexpected at h
  split at h <;> cases h

theorem peek?_ok (h : peek? s = .ok (o, s')) : o = s.tokens.head? ∧ s = s' := by
  rw [peek?_eq] at h
  cases h
  exact ⟨rfl, rfl⟩

theorem peekSecond?_ok (h : peekSecond? s = .ok (o, s')) : o = s.tokens[1]? ∧ s = s' := by
  rw [peekSecond?_eq] at h
  cases h
  exact ⟨rfl, rfl⟩

theorem spanOf_ok (h : spanOf id s = .ok (span, s')) : spanAt s.nodes id = span ∧ s = s' := by
  cases h
  exact ⟨rfl, rfl⟩

theorem peekSpan?_ok (h : peekSpan? s = .ok (o, s')) : o = s.rest.head?.map (·.span) ∧ s = s' := by
  cases h
  exact ⟨rfl, rfl⟩

/-- One token is passed and nothing else happens. -/
structure State.Passes (s : State) (t : Token) (s' : State) : Prop where
  rest : ∃ span, s.rest = ⟨t, span⟩ :: s'.rest
  nodes : s'.nodes = s.nodes
  total : s'.total = s.total

theorem State.Passes.tokens (h : s.Passes t s') : s.tokens = t :: s'.tokens := by
  obtain ⟨span, rest⟩ := h.rest
  rw [State.tokens, rest]
  rfl

theorem State.Passes.built (h : s.Passes t s') (one : P t) : Built P s s' [] where
  passed := ⟨[t], h.tokens, by simpa using one⟩
  rest := by
    obtain ⟨span, rest⟩ := h.rest
    exact ⟨[⟨t, span⟩], rest.symm⟩
  total := h.total
  grown := ⟨[], by simp [h.nodes]⟩
  sound id n new found := by
    rw [h.nodes] at found
    exact absurd (Array.getElem?_eq_some_iff.mp found).1 (Nat.not_lt.mpr new)

theorem advance_here (head : s.tokens.head? = some t) (h : advance s = .ok (span, s')) :
    s.rest = ⟨t, span⟩ :: s'.rest ∧ s'.nodes = s.nodes ∧ s'.total = s.total := by
  obtain ⟨rest, nodes, last, total, depth⟩ := s
  cases rest with
  | nil => cases head
  | cons p rest =>
    cases head
    cases h
    exact ⟨rfl, rfl, rfl⟩

theorem advance_ok (head : s.tokens.head? = some t) (h : advance s = .ok (span, s')) :
    s.Passes t s' := by
  obtain ⟨rest, nodes, total⟩ := advance_here head h
  exact ⟨⟨span, rest⟩, nodes, total⟩

theorem advance_across (head : s.tokens.head? = some t) (one : InLine t) (h : advance s = .ok (span, s')) :
    Across s s' [span] := by
  obtain ⟨rest, -, -⟩ := advance_here head h
  refine ⟨⟨[⟨t, span⟩], rest.symm⟩, fun k laid x mem => ?_, fun _ _ => List.pairwise_singleton _ _⟩
  rw [List.mem_singleton.mp mem]
  have listed : ⟨t, span⟩ ∈ s.rest := by rw [rest]; exact List.mem_cons_self
  refine ⟨laid.fits _ listed one, ⟨_, listed, one, Nat.le_refl _⟩, fun p later inLine => ?_⟩
  have inOrder := laid.inOrder
  rw [rest] at inOrder
  exact List.rel_of_pairwise_cons inOrder later one inLine

theorem eat_ok (h : eat t s = .ok (b, s')) :
    (b = true ∧ s.Passes t s') ∨ (b = false ∧ s = s' ∧ s.tokens.head? ≠ some t) := by
  obtain ⟨o, rfl, h⟩ := bind_still peek?_ok h
  by_cases head : s.tokens.head? = some t
  · rw [if_pos head] at h
    obtain ⟨span, s₂, passed, h⟩ := bind_ok h
    obtain ⟨rfl, rfl⟩ := pure_ok h
    exact .inl ⟨rfl, advance_ok head passed⟩
  · rw [if_neg head] at h
    obtain ⟨rfl, rfl⟩ := pure_ok h
    exact .inr ⟨rfl, rfl, head⟩

theorem expect_advance (h : expect t s = .ok (span, s')) :
    s.tokens.head? = some t ∧ advance s = .ok (span, s') := by
  obtain ⟨o, rfl, h⟩ := bind_still peek?_ok h
  by_cases head : s.tokens.head? = some t
  · rw [if_pos head] at h
    exact ⟨head, h⟩
  · rw [if_neg head] at h
    exact (unexpected_ok h).elim

theorem expect_ok (h : expect t s = .ok (span, s')) : s.Passes t s' :=
  advance_ok (expect_advance h).1 (expect_advance h).2

theorem expect_across (h : expect t s = .ok (span, s')) (one : InLine t) : Across s s' [span] :=
  advance_across (expect_advance h).1 one (expect_advance h).2

theorem expectName_advance (h : expectName s = .ok (r, s')) :
    s.tokens.head? = some (.name r.1) ∧ advance s = .ok (r.2, s') := by
  obtain ⟨o, head, h⟩ := bind_still peek?_ok h
  split at h
  · obtain ⟨span, s₂, passed, h⟩ := bind_ok h
    obtain ⟨rfl, rfl⟩ := pure_ok h
    exact ⟨head.symm, passed⟩
  · exact (unexpected_ok h).elim

theorem expectName_ok (h : expectName s = .ok (r, s')) : s.Passes (.name r.1) s' :=
  advance_ok (expectName_advance h).1 (expectName_advance h).2

/-- A node is added, and `id` is its position. -/
def State.Adds (s : State) (n : Node) (id : NodeId) (s' : State) : Prop :=
  id = s.nodes.size ∧ s' = { s with nodes := s.nodes.push n }

theorem push_ok (h : push kind span s = .ok (id, s')) : s.Adds ⟨kind, span⟩ id s' := by
  cases h
  exact ⟨rfl, rfl⟩

theorem pushBetween_ok (h : pushBetween kind first last s = .ok (id, s')) :
    s.Adds ⟨kind, (spanAt s.nodes first).merge (spanAt s.nodes last)⟩ id s' := push_ok h

theorem State.Adds.found (h : s.Adds n id s') : s'.nodes[id]? = some n := by
  obtain ⟨rfl, rfl⟩ := h
  exact Array.getElem?_push_size

theorem State.Adds.grows (h : s.Adds n id s') : Grows s.nodes s'.nodes := by
  obtain ⟨rfl, rfl⟩ := h
  exact grows_push _ _

/-- A new node that mentions what is open but for `rest`. -/
theorem Built.over {rest : List NodeId} (h : Built P s s' ids) (added : s'.Adds n id s'')
    (takes : (n.kind.children ++ rest).Perm ids) (fills : ∀ p ∈ n.kind.positions, Fills s'.nodes p.1 p.2)
    (whole : n.kind.Whole) (names : ∀ name ∈ n.kind.names, Token.name name ∈ s.tokens)
    (filled : s.Bounded → n.kind.block? = some [] → Token.HasEmptyBlock s.tokens)
    (covers : n.kind.isExpression = true → Covers s s' n.kind.children n.span) :
    Built P s s'' (id :: rest) := by
  obtain ⟨rfl, rfl⟩ := added
  refine ⟨h.passed, h.rest, h.total, ?_, fun id n' new found => ?_⟩
  · obtain ⟨new, added, once⟩ := h.grown
    have size : s'.nodes.size = s.nodes.size + new.length := by
      simpa using congrArg List.length added
    refine ⟨new ++ [n], by simp [added], ?_⟩
    rw [List.flatMap_append, List.flatMap_singleton, List.length_append, List.length_singleton,
      List.range'_1_concat, size]
    refine .trans ?_ ((List.Perm.append_left _ takes).trans once |>.append_right _)
    simp only [List.append_assoc]
    exact .append_left _ (.append_left _ (List.perm_append_comm : List.Perm ([_] ++ _) _))
  · by_cases last : id = s'.nodes.size
    · subst last
      rw [Array.getElem?_push_size] at found
      cases found
      have sound : Sound s s'.nodes s'.nodes.size n :=
        ⟨fun child mem => h.lt (takes.subset (List.mem_append_left _ mem)), fills, whole, names, filled,
          fun sort k laid => (covers sort).fits laid⟩
      exact sound.grow (grows_push _ _)
    · have old : s'.nodes[id]? = some n' := by
        rwa [Array.getElem?_push, if_neg last] at found
      exact (h.sound id n' new old).grow (grows_push _ _)

/-- A new node that mentions all that is open. -/
theorem Built.add (h : Built P s s' ids) (added : s'.Adds n id s'')
    (takes : n.kind.children.Perm ids) (fills : ∀ p ∈ n.kind.positions, Fills s'.nodes p.1 p.2)
    (whole : n.kind.Whole) (names : ∀ name ∈ n.kind.names, Token.name name ∈ s.tokens)
    (filled : s.Bounded → n.kind.block? = some [] → Token.HasEmptyBlock s.tokens)
    (covers : n.kind.isExpression = true → Covers s s' n.kind.children n.span) :
    Built P s s'' [id] :=
  h.over added (by rwa [List.append_nil]) fills whole names filled covers

/-! ### Loops -/

section Loops

variable {α β : Type} {step : α → Parse (Option α)} {I : α → State → Prop}

theorem repeatFrom_ok {rounds : Nat} (h : repeatFrom step rounds a s = .ok (b, s')) (start : I a s)
    (turn : ∀ a s r s', I a s → step a s = .ok (r, s') → I (r.getD a) s') : I b s' := by
  induction rounds generalizing a s with
  | zero => exact (fail_ok h).elim
  | succ rounds ih =>
    obtain ⟨r, s₁, done, h⟩ := bind_ok h
    have next := turn a s r s₁ start done
    cases r with
    | none =>
      obtain ⟨rfl, rfl⟩ := pure_ok h
      exact next
    | some a' => exact ih h next

/-- What every turn of a loop keeps holds at its end. -/
theorem iterate_ok (h : iterate step a s = .ok (b, s')) (start : I a s)
    (turn : ∀ a s r s', I a s → step a s = .ok (r, s') → I (r.getD a) s') : I b s' :=
  repeatFrom_ok (h : repeatFrom step (s.total + 1) a s = _) start turn

theorem more_ok {I : List α → State → Prop} {continues : Parse Bool} {item : Parse α}
    (h : more continues item items s = .ok (items', s')) (start : I items s)
    (stop : ∀ items s s', I items s → continues s = .ok (false, s') → I items s')
    (turn : ∀ items s s' a s'', I items s → continues s = .ok (true, s') →
      item s' = .ok (a, s'') → I (items ++ [a]) s'') : I items' s' := by
  rw [more_eq] at h
  refine iterate_ok h start fun items s r s' inv h => ?_
  obtain ⟨go, s₁, asked, h⟩ := bind_ok h
  cases go with
  | false =>
    obtain ⟨rfl, rfl⟩ := pure_ok h
    exact stop items s _ inv asked
  | true =>
    obtain ⟨a, s₂, read, h⟩ := bind_ok h
    obtain ⟨rfl, rfl⟩ := pure_ok h
    exact turn items s s₁ a _ inv asked read

theorem itemsBefore_ok {I : List α → State → Prop} {closer : Token} {item : List α → Parse α}
    (h : itemsBefore closer item s = .ok (items', s')) (start : I [] s)
    (turn : ∀ items s a s', I items s → item items s = .ok (a, s') → I (items ++ [a]) s')
    (comma : ∀ items s s', I items s → s.Passes (.symbol .comma) s' → I items s') :
    I items' s' := by
  rw [itemsBefore_eq] at h
  obtain ⟨r, s₁, done, h⟩ := bind_ok h
  obtain ⟨rfl, rfl⟩ := pure_ok h
  refine iterate_ok (I := fun r s => I r.1 s) done start fun read s r s' inv h => ?_
  obtain ⟨o, rfl, h⟩ := bind_still peek?_ok h
  split at h
  · obtain ⟨rfl, rfl⟩ := pure_ok h
    exact inv
  · obtain ⟨a, s₂, made, h⟩ := bind_ok h
    obtain ⟨go, s₃, eaten, h⟩ := bind_ok h
    obtain ⟨rfl, rfl⟩ := pure_ok h
    have next := turn _ _ _ _ inv made
    rcases eat_ok eaten with ⟨-, passed⟩ | ⟨-, rfl, -⟩
    · exact comma _ _ _ next passed
    · exact next

end Loops

end Parse

end Scratchpad
