import Scratchpad.Proofs.Tree.Forest
import Scratchpad.Proofs.Tree.Levels

/-!
# The modes agree

A source that is an expression is a module of one expression statement, and what is read one statement
at a time is read alike as a module (`modes_agree`). The module parser reads a statement after the
other; the others differ from it in what they want to be left.
-/

namespace Scratchpad

namespace Parse

variable {inner : Inner} {s s' s₁ : State} {a e : NodeId} {ids : List NodeId} {kind : NodeKind}

/-- The next newlines are passed. -/
def State.skipped (s : State) : State := { s with rest := s.rest.dropWhile (·.token = .newline) }

theorem State.tokens_skipped (s : State) : s.skipped.tokens = s.tokens.dropWhile (· = .newline) := by
  rw [State.tokens, State.tokens, List.dropWhile_map]
  rfl

theorem not_mem_of_skipped (other : t ≠ .newline) (h : t ∉ s.skipped.tokens) : t ∉ s.tokens := by
  intro mem
  rw [State.tokens_skipped] at h
  rw [← List.takeWhile_append_dropWhile (p := (· = .newline)) (l := s.tokens)] at mem
  rcases List.mem_append.mp mem with front | back
  · have newline := List.mem_takeWhile_imp front
    exact other (of_decide_eq_true newline)
  · exact h back

theorem eat_not (other : s.tokens.head? ≠ some t) : eat t s = .ok (false, s) := by
  unfold eat
  rw [bind_of_ok (peek?_eq s), if_neg other]
  rfl

theorem skipNewlines_eq (bound : s.Bounded) : skipNewlines s = .ok ((), s.skipped) := by
  have turns : ∀ n (s : State), s.tokens.length < n →
      repeatFrom (fun _ => do if ← eat .newline then return some () else return none) n () s =
        .ok ((), s.skipped) := by
    intro n
    induction n with
    | zero => intro s enough; omega
    | succ n ih =>
      intro s enough
      obtain ⟨rest, nodes, last, total, depth⟩ := s
      rw [repeatFrom]
      by_cases head : (State.mk rest nodes last total depth).tokens.head? = some .newline
      · cases rest with
        | nil => cases head
        | cons t rest =>
          obtain ⟨t, span⟩ := t
          cases head
          exact ih ⟨rest, nodes, last, total, depth⟩ (Nat.lt_of_succ_lt_succ enough)
      · rw [bind_of_ok (bind_of_ok (eat_not head))]
        cases rest with
        | nil => rfl
        | cons t rest =>
          have other : t.token ≠ .newline := fun same => head (congrArg some same)
          simp only [State.skipped, List.dropWhile_cons, decide_eq_true_eq, if_neg other]
          rfl
  exact turns (s.total + 1) s (Nat.lt_succ_of_le bound)

theorem State.Bounded.skipped (bound : s.Bounded) : s.skipped.Bounded :=
  (skipNewlines_built (skipNewlines_eq bound)).bounded bound

/-! ### One statement after the other -/

/-- One more statement of a module, if there is one. -/
def moduleTurn (inner : Inner) (body : List NodeId) : Parse (Option (List NodeId)) := do
  if (← peek?).isNone then return none
  let ids ← statement inner
  skipNewlines
  return some (body ++ ids)

theorem module_eq (inner : Inner) :
    module inner = skipNewlines >>= fun _ => iterate (moduleTurn inner) [] >>= fun body =>
      pure (.module body) := rfl

theorem moduleTurn_stop {body : List NodeId} (ended : s.tokens = []) :
    moduleTurn inner body s = .ok (none, s) := by
  rw [moduleTurn, bind_of_ok (peek?_eq s), ended]
  rfl

theorem isNone_head? {ts : List Token} (left : ts ≠ []) : ts.head?.isNone = false := by
  cases ts with
  | nil => contradiction
  | cons t ts => rfl

theorem moduleTurn_of_ok {body : List NodeId} (left : s.tokens ≠ [])
    (read : statement inner s = .ok (ids, s₁)) (bound : s₁.Bounded) :
    moduleTurn inner body s = .ok (some (body ++ ids), s₁.skipped) := by
  rw [moduleTurn, bind_of_ok (peek?_eq s), isNone_head? left]
  change (statement inner >>= fun ids => skipNewlines >>= fun _ => pure (some (body ++ ids))) s = _
  rw [bind_of_ok read, bind_of_ok (skipNewlines_eq bound)]
  rfl

theorem moduleTurn_ok {body : List NodeId} (left : s.tokens ≠ [])
    (h : moduleTurn inner body s = .ok (r, s')) :
    ∃ ids s₁, statement inner s = .ok (ids, s₁) ∧ r = some (body ++ ids) := by
  obtain ⟨o, rfl, h⟩ := bind_still peek?_ok h
  rw [isNone_head? left] at h
  obtain ⟨ids, s₁, read, h⟩ := bind_ok h
  obtain ⟨_, s₂, _, h⟩ := bind_ok h
  obtain ⟨rfl, rfl⟩ := pure_ok h
  exact ⟨ids, s₁, read, rfl⟩

/-- Statements are read one after the other, with the newlines behind each. -/
inductive Lines (inner : Inner) : State → List NodeId → State → Prop where
  | done (s : State) : Lines inner s [] s
  | line {s s₁ s₂ : State} {ids ids' : List NodeId} (left : s.tokens ≠ [])
      (read : statement inner s = .ok (ids, s₁)) (rest : Lines inner s₁.skipped ids' s₂) :
      Lines inner s (ids ++ ids') s₂

theorem State.skipped_suffix (s : State) : s.skipped.tokens <:+ s.tokens := by
  rw [State.tokens_skipped]
  exact List.dropWhile_suffix _

section Alone

variable {other : Inner} (levels : Inner.Follows d other inner)

include levels

theorem statement_shorter (bound : s.Bounded) (h : statement inner s = .ok (ids, s₁)) :
    s₁.tokens.length < s.tokens.length ∧ s₁.Bounded := by
  have all : Tracks d spends s (statement other) (statement inner) := Follows.tracks s bound
  exact ⟨by simpa [State.tokens] using (all.of_ok h).1 rfl, all.bounded h bound⟩

theorem turns_of_lines (h : Lines inner s ids s₁) (ended : s₁.tokens = []) (bound : s.Bounded) (rounds : Nat)
    (enough : s.tokens.length < rounds) (body : List NodeId) :
    repeatFrom (moduleTurn inner) rounds body s = .ok (body ++ ids, s₁) := by
  induction h generalizing rounds body with
  | done s =>
    obtain ⟨rounds, rfl⟩ : ∃ k, rounds = k + 1 := ⟨rounds - 1, by omega⟩
    rw [repeatFrom, bind_of_ok (moduleTurn_stop ended), List.append_nil]
    rfl
  | @line s s₁ s₂ ids ids' left read rest ih =>
    obtain ⟨rounds, rfl⟩ : ∃ k, rounds = k + 1 := ⟨rounds - 1, by omega⟩
    obtain ⟨shorter, bound₁⟩ := statement_shorter levels bound read
    have fewer := s₁.skipped_suffix.length_le
    rw [repeatFrom, bind_of_ok (moduleTurn_of_ok left read bound₁), ← List.append_assoc]
    exact ih ended bound₁.skipped rounds (by omega) _

theorem lines_of_turns {rounds : Nat} (bound : s.Bounded)
    (h : repeatFrom (moduleTurn inner) rounds body s = .ok (ids, s₁)) :
    ∃ ids', ids = body ++ ids' ∧ Lines inner s ids' s₁ ∧ s₁.tokens = [] := by
  induction rounds generalizing s body with
  | zero => exact (fail_ok h).elim
  | succ rounds ih =>
    obtain ⟨r, s₂, turn, h⟩ := bind_ok h
    by_cases left : s.tokens = []
    · rw [moduleTurn_stop left] at turn
      cases turn
      obtain ⟨rfl, rfl⟩ := pure_ok h
      exact ⟨[], (List.append_nil _).symm, .done s, left⟩
    · obtain ⟨new, s₃, read, rfl⟩ := moduleTurn_ok left turn
      have bound₁ := (statement_shorter levels bound read).2
      rw [moduleTurn_of_ok left read bound₁] at turn
      cases turn
      obtain ⟨ids', rfl, rest, ended⟩ := ih bound₁.skipped h
      exact ⟨new ++ ids', List.append_assoc .., .line left read rest, ended⟩

theorem module_of_lines (h : Lines inner s.skipped ids s₁) (ended : s₁.tokens = []) (bound : s.Bounded) :
    module inner s = .ok (.module ids, s₁) := by
  have loop : iterate (moduleTurn inner) [] s.skipped = .ok (ids, s₁) :=
    turns_of_lines levels h ended bound.skipped _ (Nat.lt_succ_of_le bound.skipped) []
  rw [module_eq, bind_of_ok (skipNewlines_eq bound), bind_of_ok loop]
  rfl

theorem lines_of_module (bound : s.Bounded) (h : module inner s = .ok (top, s₁)) :
    ∃ ids, top = .module ids ∧ Lines inner s.skipped ids s₁ ∧ s₁.tokens = [] := by
  rw [module_eq, bind_of_ok (skipNewlines_eq bound)] at h
  obtain ⟨ids, s₂, loop, h⟩ := bind_ok h
  obtain ⟨rfl, rfl⟩ := pure_ok h
  obtain ⟨_, rfl, lines, ended⟩ := lines_of_turns levels bound.skipped loop
  exact ⟨_, rfl, lines, ended⟩

theorem module_none (bound : s.Bounded) (ended : s.skipped.tokens = []) :
    module inner s = .ok (.module [], s.skipped) :=
  module_of_lines levels (.done _) ended bound

theorem module_one (bound : s.Bounded) (left : s.skipped.tokens ≠ [])
    (read : statement inner s.skipped = .ok (ids, s₁)) (ended : s₁.skipped.tokens = []) :
    module inner s = .ok (.module ids, s₁.skipped) := by
  have all := module_of_lines levels (.line left read (.done _)) ended bound
  rwa [List.append_nil] at all

/-- What a module was read as: nothing, one line or compound statement, or more. -/
theorem module_cases (bound : s.Bounded) (h : module inner s = .ok (top, s')) :
    (s.skipped.tokens = [] ∧ top = .module [] ∧ s' = s.skipped) ∨
    ∃ ids s₁, s.skipped.tokens ≠ [] ∧ statement inner s.skipped = .ok (ids, s₁) ∧ s₁.Bounded ∧
      ((s₁.skipped.tokens = [] ∧ top = .module ids ∧ s' = s₁.skipped) ∨
        (s₁.skipped.tokens ≠ [] ∧ ∃ body, top = .module body ∧ 2 ≤ body.length)) := by
  obtain ⟨e, shallow⟩ := levels.shallow
  obtain ⟨ids, rfl, lines, ended⟩ := lines_of_module levels bound h
  cases lines with
  | done => exact .inl ⟨ended, rfl, rfl⟩
  | line left read rest =>
    refine .inr ⟨_, _, left, read, (statement_shorter levels bound.skipped read).2, ?_⟩
    cases rest with
    | done => exact .inl ⟨ended, by rw [List.append_nil], rfl⟩
    | line left' read' _ =>
      have filled := List.length_pos_of_ne_nil (statement_made shallow read).2
      have filled' := List.length_pos_of_ne_nil (statement_made shallow read').2
      refine .inr ⟨left', _, rfl, ?_⟩
      simp only [List.length_append]
      omega

end Alone

theorem peekSpan?_eq (s : State) : peekSpan? s = .ok (s.rest.head?.map (·.span), s) := rfl

theorem interactive_none (bound : s.Bounded) (ended : s.skipped.tokens = []) :
    interactive inner s = .ok (.interactive [], s.skipped) := by
  rw [interactive, bind_of_ok (skipNewlines_eq bound), bind_of_ok (peek?_eq _), ended]
  rfl

theorem statement_of_interactive (bound : s.Bounded) (left : s.skipped.tokens ≠ [])
    (h : interactive inner s = .ok (top, s')) : ∃ ids s₁, statement inner s.skipped = .ok (ids, s₁) := by
  rw [interactive, bind_of_ok (skipNewlines_eq bound), bind_of_ok (peek?_eq _), isNone_head? left] at h
  obtain ⟨ids, s₁, read, h⟩ := bind_ok h
  exact ⟨ids, s₁, read⟩

theorem interactive_some (bound : s.Bounded) (left : s.skipped.tokens ≠ [])
    (read : statement inner s.skipped = .ok (ids, s₁)) (bound₁ : s₁.Bounded) :
    (s₁.skipped.tokens = [] ∧ interactive inner s = .ok (.interactive ids, s₁.skipped)) ∨
      ∃ span, s₁.skipped.tokens ≠ [] ∧ interactive inner s = .error (.multipleStatements span) := by
  rw [interactive, bind_of_ok (skipNewlines_eq bound), bind_of_ok (peek?_eq _), isNone_head? left,
    if_neg (by decide)]
  cases rest : s₁.skipped.rest with
  | nil =>
    refine .inl ⟨congrArg (List.map _) rest, ?_⟩
    refine (bind_of_ok read).trans ((bind_of_ok (skipNewlines_eq bound₁)).trans ?_)
    rw [bind_of_ok (peekSpan?_eq _), rest]
    rfl
  | cons t ts =>
    refine .inr ⟨t.span, ?_, ?_⟩
    · rw [State.tokens, rest]
      exact List.cons_ne_nil _ _
    · refine (bind_of_ok read).trans ((bind_of_ok (skipNewlines_eq bound₁)).trans ?_)
      rw [bind_of_ok (peekSpan?_eq _), rest]
      rfl

/-! ### A line that is an expression -/

/-- After an expression and newlines a line has nothing to go on with. -/
theorem head_of_ended (ended : s.skipped.tokens = []) :
    s.tokens.head? = none ∨ s.tokens.head? = some .newline := by
  rw [State.tokens_skipped] at ended
  cases there : s.tokens with
  | nil => exact .inl rfl
  | cons t ts =>
    rw [there, List.dropWhile_cons] at ended
    split at ended
    · next newline => exact .inr (congrArg some (of_decide_eq_true newline))
    · cases ended

theorem more_stop {continues : Parse Bool} {item : Parse α} (asked : continues s = .ok (false, s)) :
    more continues item items s = .ok (items, s) := by
  rw [more_eq]
  exact Expression.iterate_stop (bind_of_ok asked)

/-- A line of one statement, with nothing or newlines after it. -/
theorem simpleStatements_one (read : smallStatement inner s = .ok (a, s₁))
    (ended : s₁.skipped.tokens = []) :
    ∃ s₂, simpleStatements inner s = .ok ([a], s₂) ∧ s₂.nodes = s₁.nodes ∧ s₂.total = s₁.total ∧
      s₂.skipped.tokens = [] := by
  have head := head_of_ended ended
  have other : s₁.tokens.head? ≠ some (.symbol .semicolon) := by
    rcases head with head | head <;> rw [head] <;> decide
  have start : simpleStatements inner s = _ :=
    (bind_of_ok read).trans (bind_of_ok (more_stop (bind_of_ok (eat_not other))))
  rcases head with head | head
  · refine ⟨s₁, ?_, rfl, rfl, ended⟩
    rw [start, bind_of_ok (peek?_eq s₁), head]
    rfl
  · obtain ⟨ts, there⟩ : ∃ ts, s₁.tokens = .newline :: ts := List.head?_eq_some_iff.mp head
    obtain ⟨span, s₂, passed, tokens, nodes, total⟩ := advance_eq there
    refine ⟨s₂, ?_, nodes, total, ?_⟩
    · rw [start, bind_of_ok (peek?_eq s₁), head]
      exact bind_of_ok passed
    · rw [State.tokens_skipped, there] at ended
      rw [State.tokens_skipped, tokens]
      exact ended

theorem expressionStatement_of_testList (read : testList inner s = .ok (e, s₁))
    (ended : s₁.skipped.tokens = []) :
    ∃ span, expressionStatement inner s =
      .ok (s₁.nodes.size, { s₁ with nodes := s₁.nodes.push ⟨.exprStmt e, span⟩ }) := by
  obtain ⟨span, spanned⟩ := spanOf_eq e s₁
  refine ⟨span, ?_⟩
  rw [expressionStatement, bind_of_ok read, bind_of_ok (peek?_eq s₁)]
  rcases head_of_ended ended with head | head
  all_goals
    rw [head]
    change (peek? >>= _) s₁ = _
    rw [bind_of_ok (peek?_eq s₁), head]
    exact (bind_of_ok spanned).trans rfl

theorem statement_of_testList (shallow : inner.Shallow d) (read : testList inner s = .ok (e, s₁))
    (ended : s₁.skipped.tokens = []) :
    ∃ s₂ span, statement inner s = .ok ([s₁.nodes.size], s₂) ∧
      s₂.nodes = s₁.nodes.push ⟨.exprStmt e, span⟩ ∧ s₂.total = s₁.total ∧ s₂.skipped.tokens = [] := by
  have opens := (testList_given shallow read).opens
  obtain ⟨t, head⟩ : ∃ t, s.tokens.head? = some t := by
    cases there : s.tokens.head? with
    | none => rw [there] at opens; cases opens
    | some t => exact ⟨t, rfl⟩
  rw [head, Option.any_some] at opens
  have line : statement inner s = simpleStatements inner s := by
    rw [statement, bind_of_ok (peek?_eq s), head]
    cases t with
    | keyword k => cases k <;> first | rfl | cases opens
    | _ => rfl
  have small : smallStatement inner s = expressionStatement inner s := by
    rw [smallStatement, bind_of_ok (peek?_eq s), head]
    cases t with
    | keyword k => cases k <;> first | rfl | cases opens
    | _ => rfl
  obtain ⟨span, whole⟩ := expressionStatement_of_testList read ended
  obtain ⟨s₂, done, nodes, total, rest⟩ := simpleStatements_one (small.trans whole) ended
  exact ⟨s₂, span, line.trans done, nodes, total, rest⟩

/-! ### The kinds of statements -/

/-- The parser gives a node that it adds last and that is no expression statement. -/
def EndsOther (p : Parse NodeId) : Prop :=
  ∀ s a s', p s = .ok (a, s') → ∃ n, s'.nodes[a]? = some n ∧ ∀ e, n.kind ≠ .exprStmt e

theorem EndsOther.bind {p : Parse α} {f : α → Parse NodeId} (h : ∀ a, EndsOther (f a)) :
    EndsOther (p >>= f) := by
  intro s a s' ran
  obtain ⟨x, s₁, _, rest⟩ := bind_ok ran
  exact h x s₁ a s' rest

theorem endsOther_push (other : ∀ e, kind ≠ .exprStmt e) : EndsOther (push kind span) := by
  intro s a s' ran
  exact ⟨_, (push_ok ran).found, other⟩

theorem endsOther_pushBetween {first last : NodeId} (other : ∀ e, kind ≠ .exprStmt e) :
    EndsOther (pushBetween kind first last) :=
  .bind fun _ => .bind fun _ => endsOther_push other

theorem endsOther_fail {f : α → Parse NodeId} : EndsOther (fail v span >>= f) := by
  intro s a s' ran
  obtain ⟨_, _, failed, _⟩ := bind_ok ran
  exact (fail_ok failed).elim

theorem endsOther_functionDef : EndsOther (functionDef inner) :=
  .bind fun _ => .bind fun _ => .bind fun _ => .bind fun _ => .bind fun _ => .bind fun _ =>
    endsOther_push nofun

theorem endsOther_whileStatement : EndsOther (whileStatement inner) :=
  .bind fun _ => .bind fun _ => .bind fun _ => endsOther_push nofun

theorem endsOther_forStatement : EndsOther (forStatement inner) :=
  .bind fun _ => .bind fun _ => .bind fun _ => .bind fun _ => .bind fun _ => .bind fun _ =>
    endsOther_push nofun

theorem endsOther_leaf (other : ∀ e, kind ≠ .exprStmt e) : EndsOther (leaf kind) :=
  .bind fun _ => endsOther_push other

theorem endsOther_globalStatement : EndsOther globalStatement :=
  .bind fun _ => .bind fun _ => .bind fun _ => endsOther_push nofun

theorem endsOther_returnStatement : EndsOther (returnStatement inner) := by
  refine .bind fun _ => .bind fun o => ?_
  split
  · exact endsOther_push nofun
  · exact endsOther_push nofun
  · exact endsOther_push nofun
  · exact .bind fun _ => .bind fun _ => endsOther_push nofun

theorem endsOther_assignment {first : NodeId} : EndsOther (assignment inner first) :=
  .bind fun _ => .bind fun _ => endsOther_pushBetween nofun

theorem endsOther_augmented {target : NodeId} : EndsOther (augmented inner target op) := by
  have rest : EndsOther (do
      let _ ← advance
      let value ← testList inner
      pushBetween (.augAssign target op value) target value) :=
    .bind fun _ => .bind fun _ => endsOther_pushBetween nofun
  refine .bind fun o => ?_
  cases o with
  | none => exact rest
  | some n =>
    dsimp only
    split
    · exact .bind fun _ => endsOther_fail
    · exact rest

theorem pushBranches_other {orelse : List NodeId} (branches : bs ≠ [])
    (h : pushBranches stop orelse bs s = .ok ([a], s')) :
    ∃ n, s'.nodes[a]? = some n ∧ ∀ e, n.kind ≠ .exprStmt e := by
  cases bs with
  | nil => contradiction
  | cons b bs =>
    obtain ⟨others, s₁, _, h⟩ := bind_ok h
    obtain ⟨id, s₂, pushed, h⟩ := bind_ok h
    obtain ⟨same, rfl⟩ := pure_ok h
    cases same
    exact endsOther_push (by simp) _ _ _ pushed

theorem ifStatement_other (h : ifStatement inner s = .ok ([a], s')) :
    ∃ n, s'.nodes[a]? = some n ∧ ∀ e, n.kind ≠ .exprStmt e := by
  obtain ⟨first, s₁, _, h⟩ := bind_ok h
  obtain ⟨branches, s₂, loop, h⟩ := bind_ok h
  have filled : branches ≠ [] :=
    more_ok (I := fun bs _ => bs ≠ []) loop (by simp) (fun _ _ _ inv _ => inv) fun _ _ _ _ _ _ _ _ => by simp
  obtain ⟨otherwise, s₃, _, h⟩ := bind_ok h
  cases otherwise with
  | true =>
    obtain ⟨⟨orelse, stop⟩, s₄, _, h⟩ := bind_ok h
    exact pushBranches_other filled h
  | false => exact pushBranches_other filled h

/-- An expression statement is read as an expression. -/
theorem testList_of_smallStatement (h : smallStatement inner s = .ok (a, s'))
    (found : s'.nodes[a]? = some n) (kind : n.kind = .exprStmt e) :
    ∃ s₁, testList inner s = .ok (e, s₁) ∧ s'.tokens = s₁.tokens := by
  have refuted {p : Parse NodeId} {s₁ : State} {P : Prop} (other : EndsOther p)
      (h : p s₁ = .ok (a, s')) : P := by
    obtain ⟨n', found', ne⟩ := other _ _ _ h
    rw [found] at found'
    cases found'
    exact absurd kind (ne e)
  obtain ⟨o, -, h⟩ := bind_still peek?_ok h
  split at h
  · exact (unexpected_ok h).elim
  · exact refuted (endsOther_leaf (by simp)) h
  · exact refuted (endsOther_leaf (by simp)) h
  · exact refuted (endsOther_leaf (by simp)) h
  · exact refuted endsOther_returnStatement h
  · exact refuted endsOther_globalStatement h
  · obtain ⟨first, s₁, read, h⟩ := bind_ok h
    obtain ⟨o, -, rest⟩ := bind_still peek?_ok h
    cases seen : augmentedOp? o with
    | some op =>
      rw [seen] at rest
      exact refuted endsOther_augmented rest
    | none =>
      rw [seen] at rest
      obtain ⟨o, -, rest⟩ := bind_still peek?_ok rest
      split at rest
      · exact refuted endsOther_assignment rest
      · obtain ⟨span, -, rest⟩ := bind_still spanOf_ok rest
        have found' := (push_ok rest).found
        rw [found] at found'
        cases found'
        cases kind
        obtain ⟨rfl, rfl⟩ := push_ok rest
        exact ⟨s₁, read, rfl⟩

theorem testList_of_statement (shallow : inner.Shallow d) (h : statement inner s = .ok ([a], s'))
    (found : s'.nodes[a]? = some n) (kind : n.kind = .exprStmt e)
    (plain : Token.symbol .semicolon ∉ s.tokens) (ended : s'.skipped.tokens = []) :
    ∃ s₁, testList inner s = .ok (e, s₁) ∧ s₁.skipped.tokens = [] := by
  have refuted {P : Prop} (other : ∃ n, s'.nodes[a]? = some n ∧ ∀ e, n.kind ≠ .exprStmt e) : P := by
    obtain ⟨n', found', ne⟩ := other
    rw [found] at found'
    cases found'
    exact absurd kind (ne e)
  have single {p : Parse NodeId} {s₁ : State} {P : Prop} (other : EndsOther p)
      (h : (p >>= fun x => pure [x]) s₁ = .ok ([a], s')) : P := by
    obtain ⟨x, s₂, read, h⟩ := bind_ok h
    obtain ⟨same, rfl⟩ := pure_ok h
    cases same
    exact refuted (other _ _ _ read)
  obtain ⟨o, -, h⟩ := bind_still peek?_ok h
  split at h
  · exact single endsOther_functionDef h
  · exact refuted (ifStatement_other h)
  · exact single endsOther_whileStatement h
  · exact single endsOther_forStatement h
  · obtain ⟨first, s₁, read, h⟩ := bind_ok h
    have inside := (smallStatement_made shallow read).built.tokens_subset
    have other : s₁.tokens.head? ≠ some (.symbol .semicolon) := fun head =>
      plain (inside (List.mem_of_head? head))
    rw [bind_of_ok (more_stop (bind_of_ok (eat_not other)))] at h
    obtain ⟨o, head, h⟩ := bind_still peek?_ok h
    split at h
    · obtain ⟨span, s₂, passed, h⟩ := bind_ok h
      obtain ⟨same, rfl⟩ := pure_ok h
      cases same
      have passes := advance_ok head.symm passed
      obtain ⟨s₃, whole, tokens⟩ := testList_of_smallStatement read (passes.nodes ▸ found) kind
      refine ⟨s₃, whole, ?_⟩
      rw [State.tokens_skipped, ← tokens, passes.tokens, List.dropWhile_cons_of_pos (by simp),
        ← State.tokens_skipped]
      exact ended
    · obtain ⟨same, rfl⟩ := pure_ok h
      cases same
      obtain ⟨s₃, whole, tokens⟩ := testList_of_smallStatement read found kind
      exact ⟨s₃, whole, by rw [State.tokens_skipped, ← tokens, ← State.tokens_skipped]; exact ended⟩
    · obtain ⟨_, _, _, h⟩ := bind_ok h
      exact (fail_ok h).elim

theorem expression_of_testList (shallow : inner.Shallow d) (bound : s.Bounded)
    (read : testList inner s.skipped = .ok (e, s₁)) (ended : s₁.skipped.tokens = []) :
    expression inner s = .ok (.expression e, s₁.skipped) := by
  have given := testList_given shallow read
  have left : s.skipped.tokens ≠ [] := by
    intro none
    have opens := given.opens
    rw [none] at opens
    cases opens
  rw [expression, bind_of_ok (skipNewlines_eq bound), bind_of_ok (peek?_eq _), isNone_head? left]
  refine (bind_of_ok read).trans
    ((bind_of_ok (skipNewlines_eq (given.built.bounded bound.skipped))).trans ?_)
  rw [bind_of_ok (peekSpan?_eq _), List.map_eq_nil_iff.mp ended]
  rfl

theorem testList_of_expression (shallow : inner.Shallow d) (bound : s.Bounded)
    (h : expression inner s = .ok (top, s')) :
    ∃ e s₁, testList inner s.skipped = .ok (e, s₁) ∧ s₁.skipped.tokens = [] ∧ top = .expression e ∧
      s' = s₁.skipped := by
  rw [expression, bind_of_ok (skipNewlines_eq bound)] at h
  obtain ⟨o, -, h⟩ := bind_still peek?_ok h
  split at h
  · obtain ⟨_, _, failed, _⟩ := bind_ok h
    exact (unexpected_ok failed).elim
  · obtain ⟨e, s₁, read, h⟩ := bind_ok h
    have bound₁ := (testList_given shallow read).built.bounded bound.skipped
    rw [bind_of_ok (skipNewlines_eq bound₁), bind_of_ok (peekSpan?_eq _)] at h
    cases rest : s₁.skipped.rest with
    | nil =>
      rw [rest] at h
      obtain ⟨rfl, rfl⟩ := pure_ok h
      exact ⟨e, s₁, read, congrArg (List.map _) rest, rfl, rfl⟩
    | cons t ts =>
      rw [rest] at h
      obtain ⟨_, _, failed, _⟩ := bind_ok h
      exact (fail_ok failed).elim

end Parse

/-! ### Trees of sources -/

namespace Tree

variable {tokens : List Token.Placed} {t : Tree}

theorem ofTokens_ok (h : ofTokens mode tokens = .ok t) :
    ∃ s, Parse.rootWithin Parse.maxNesting mode (.ofTokens tokens) = .ok (t.root, s) ∧ t.nodes = s.nodes := by
  rw [ofTokens_within] at h
  obtain ⟨⟨top, s⟩, read, made⟩ := except_bind_ok h
  cases made
  exact ⟨s, read, rfl⟩

theorem ofTokens_of_ok (mode : Mode)
    (h : Parse.rootWithin Parse.maxNesting mode (.ofTokens tokens) = .ok (top, s)) :
    ofTokens mode tokens = .ok ⟨s.nodes, top⟩ :=
  (ofTokens_within mode tokens).trans (except_bind_of_ok h rfl)

theorem ofTokens_of_error (mode : Mode)
    (h : Parse.rootWithin Parse.maxNesting mode (.ofTokens tokens) = .error e) :
    ofTokens mode tokens = .error e := by
  rw [ofTokens_within, ofTokensWithin, StateT.run, h]
  rfl

end Tree

section Modes

open Parse

variable (tokens : List Token.Placed)

/-- An expression, read as a module, has a node more. -/
theorem exec_of_eval (h : Tree.ofTokens .eval tokens = .ok t) :
    ∃ e span, t.root = .expression e ∧
      Tree.ofTokens .exec tokens = .ok ⟨t.nodes.push ⟨.exprStmt e, span⟩, .module [t.size]⟩ ∧
      Token.symbol .semicolon ∉ tokens.map (·.token) := by
  have shallow := within_shallow maxNesting
  have bound := bounded_ofTokens tokens
  obtain ⟨s, read, nodes⟩ := Tree.ofTokens_ok h
  obtain ⟨e, s₁, list, ended, top, rfl⟩ := testList_of_expression shallow bound read
  have given := testList_given shallow list
  have left : (State.ofTokens tokens).skipped.tokens ≠ [] := by
    intro none
    have opens := given.opens
    rw [none] at opens
    cases opens
  obtain ⟨s₂, span, line, added, total, ended₂⟩ := statement_of_testList shallow list ended
  have whole : rootWithin maxNesting .exec (.ofTokens tokens) = _ :=
    module_one outermost_follows bound left line ended₂
  refine ⟨e, span, top, ?_, ?_⟩
  · rw [Tree.ofTokens_of_ok _ whole]
    have same : s₂.skipped.nodes = t.nodes.push ⟨.exprStmt e, span⟩ := by
      rw [nodes]
      exact added
    rw [same, Tree.size, nodes]
    rfl
  · change Token.symbol .semicolon ∉ (State.ofTokens tokens).tokens
    refine not_mem_of_skipped (by decide) fun mem => ?_
    obtain ⟨used, passed, inLine⟩ := given.built.passed
    rw [passed] at mem
    rcases List.mem_append.mp mem with mem | mem
    · exact inLine _ mem
    · exact not_mem_of_skipped (by decide) (ended ▸ List.not_mem_nil) mem

theorem eval_of_exec {id e : NodeId} (h : Tree.ofTokens .exec tokens = .ok t) (one : t.root = .module [id])
    (kind : t.kind? id = some (.exprStmt e)) (plain : Token.symbol .semicolon ∉ tokens.map (·.token)) :
    ∃ t', Tree.ofTokens .eval tokens = .ok t' := by
  have shallow := within_shallow maxNesting
  have bound := bounded_ofTokens tokens
  obtain ⟨s, read, nodes⟩ := Tree.ofTokens_ok h
  rcases module_cases outermost_follows bound read with ⟨-, top, -⟩ | ⟨ids, s₁, left, line, -, which⟩
  · rw [one] at top
    cases top
  · rcases which with ⟨ended, top, rfl⟩ | ⟨-, body, top, long⟩
    · rw [one] at top
      cases top
      obtain ⟨n, found, same⟩ := Option.map_eq_some_iff.mp kind
      have inside := (skipNewlines_built (skipNewlines_eq bound)).tokens_subset
      obtain ⟨s₂, list, rest⟩ := testList_of_statement shallow line (n := n)
        (by rw [Tree.get?, nodes] at found; exact found) same (fun mem => plain (inside mem)) ended
      exact ⟨_, Tree.ofTokens_of_ok .eval (expression_of_testList shallow bound list rest)⟩
    · rw [one] at top
      cases top
      simp at long

/-- A single statement is a module as well. -/
theorem exec_of_single (h : Tree.ofTokens .single tokens = .ok t) :
    ∃ body, t.root = .interactive body ∧ Tree.ofTokens .exec tokens = .ok ⟨t.nodes, .module body⟩ := by
  have shallow := within_shallow maxNesting
  have bound := bounded_ofTokens tokens
  obtain ⟨s, read, nodes⟩ := Tree.ofTokens_ok h
  by_cases empty : (State.ofTokens tokens).skipped.tokens = []
  · have single : rootWithin maxNesting .single (.ofTokens tokens) = _ := interactive_none bound empty
    obtain ⟨top, rfl⟩ := Prod.mk.inj (Except.ok.inj (single.symm.trans read))
    refine ⟨[], top.symm, ?_⟩
    rw [nodes]
    exact Tree.ofTokens_of_ok .exec (module_none outermost_follows bound empty)
  · obtain ⟨ids, s₁, line⟩ := statement_of_interactive bound empty read
    have bound₁ := (statement_made shallow line).1.built.bounded bound.skipped
    rcases interactive_some bound empty line bound₁ with ⟨ended, done⟩ | ⟨span, -, failed⟩
    · obtain ⟨top, rfl⟩ := Prod.mk.inj (Except.ok.inj (done.symm.trans read))
      refine ⟨ids, top.symm, ?_⟩
      rw [nodes]
      exact Tree.ofTokens_of_ok .exec (module_one outermost_follows bound empty line ended)
    · cases failed.symm.trans read

theorem single_of_exec (h : Tree.ofTokens .exec tokens = .ok t) :
    ∃ body, t.root = .module body ∧
      (Tree.ofTokens .single tokens = .ok ⟨t.nodes, .interactive body⟩ ∨
        2 ≤ body.length ∧ ∃ span, Tree.ofTokens .single tokens = .error (.multipleStatements span)) := by
  have bound := bounded_ofTokens tokens
  obtain ⟨s, read, nodes⟩ := Tree.ofTokens_ok h
  rcases module_cases outermost_follows bound read with ⟨ended, top, rfl⟩ | ⟨ids, s₁, left, line, bound₁, which⟩
  · refine ⟨[], top, .inl ?_⟩
    rw [nodes]
    exact Tree.ofTokens_of_ok .single (interactive_none bound ended)
  · have single := interactive_some bound left line bound₁
    rcases which with ⟨ended, top, rfl⟩ | ⟨more, body, top, long⟩
    · refine ⟨ids, top, .inl ?_⟩
      rw [nodes]
      rcases single with ⟨-, done⟩ | ⟨span, more, -⟩
      · exact Tree.ofTokens_of_ok .single done
      · exact absurd ended more
    · refine ⟨body, top, .inr ⟨long, ?_⟩⟩
      rcases single with ⟨ended, -⟩ | ⟨span, -, failed⟩
      · exact absurd ended more
      · exact ⟨span, Tree.ofTokens_of_error .single failed⟩

end Modes

theorem ofSource_eq {flags : Flags} {source : String}
    (h : Token.tokenize flags source.toList = .ok tokens) (mode : Mode) :
    Tree.ofSource mode flags source = Tree.ofTokens mode tokens := by
  rw [Tree.ofSource, h]
  rfl

theorem tokens_of_ofSource {flags : Flags} {source : String} {t : Tree}
    (h : Tree.ofSource mode flags source = .ok t) :
    ∃ tokens, Token.tokenize flags source.toList = .ok tokens := by
  cases read : Token.tokenize flags source.toList with
  | ok tokens => exact ⟨tokens, rfl⟩
  | error e =>
    rw [Tree.ofSource, read] at h
    cases h

/-- The grammars of the three modes agree. A source is an expression just if it is a module of one
expression statement without a semicolon, and the module then has one node more. A single statement is
a module with the same nodes, and a module is a single statement unless it has more statements, which
is what the error says. -/
theorem modes_agree (flags : Flags) (source : String) :
    ((∃ t, Tree.ofSource .eval flags source = .ok t) ↔
      ∃ t id e tokens, Tree.ofSource .exec flags source = .ok t ∧ t.root = .module [id] ∧
        t.kind? id = some (.exprStmt e) ∧ Token.tokenize flags source.toList = .ok tokens ∧
        ∀ p ∈ tokens, p.token ≠ .symbol .semicolon) ∧
    (∀ t, Tree.ofSource .eval flags source = .ok t → ∃ e span, t.root = .expression e ∧
      Tree.ofSource .exec flags source = .ok ⟨t.nodes.push ⟨.exprStmt e, span⟩, .module [t.size]⟩) ∧
    (∀ t, Tree.ofSource .single flags source = .ok t → ∃ body, t.root = .interactive body ∧
      Tree.ofSource .exec flags source = .ok ⟨t.nodes, .module body⟩) ∧
    ∀ t, Tree.ofSource .exec flags source = .ok t → ∃ body, t.root = .module body ∧
      (Tree.ofSource .single flags source = .ok ⟨t.nodes, .interactive body⟩ ∨
        2 ≤ body.length ∧
          ∃ span, Tree.ofSource .single flags source = .error (.multipleStatements span)) := by
  refine ⟨⟨?_, ?_⟩, ?_, ?_, ?_⟩
  · rintro ⟨t, h⟩
    obtain ⟨tokens, read⟩ := tokens_of_ofSource h
    rw [ofSource_eq read] at h
    obtain ⟨e, span, -, whole, plain⟩ := exec_of_eval tokens h
    refine ⟨_, t.size, e, tokens, (ofSource_eq read .exec).trans whole, rfl, ?_, read, fun p mem same => ?_⟩
    · rw [Tree.kind?, Tree.get?, Tree.size, Array.getElem?_push_size]
      rfl
    · exact plain (List.mem_map.mpr ⟨p, mem, same⟩)
  · rintro ⟨t, id, e, tokens, h, one, kind, read, plain⟩
    rw [ofSource_eq read] at h ⊢
    refine eval_of_exec tokens h one kind fun mem => ?_
    obtain ⟨p, listed, same⟩ := List.mem_map.mp mem
    exact plain p listed same
  · intro t h
    obtain ⟨tokens, read⟩ := tokens_of_ofSource h
    rw [ofSource_eq read] at h ⊢
    obtain ⟨e, span, top, whole, -⟩ := exec_of_eval tokens h
    exact ⟨e, span, top, whole⟩
  · intro t h
    obtain ⟨tokens, read⟩ := tokens_of_ofSource h
    rw [ofSource_eq read] at h ⊢
    exact exec_of_single tokens h
  · intro t h
    obtain ⟨tokens, read⟩ := tokens_of_ofSource h
    rw [ofSource_eq read] at h ⊢
    exact single_of_exec tokens h

theorem modes_agree_call :
    ∃ t e span, Tree.ofSource .eval {} "f(x)" = .ok t ∧ t.root = .expression e ∧
      Tree.ofSource .exec {} "f(x)" = .ok ⟨t.nodes.push ⟨.exprStmt e, span⟩, .module [t.size]⟩ := by
  have read : (Tree.ofSource .eval {} "f(x)").isOk = true := by decide +kernel
  cases h : Tree.ofSource .eval {} "f(x)" with
  | ok t =>
    obtain ⟨e, span, top, whole⟩ := (modes_agree {} "f(x)").2.1 t h
    exact ⟨t, e, span, rfl, top, whole⟩
  | error e =>
    rw [h] at read
    cases read

end Scratchpad
