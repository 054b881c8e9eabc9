import Scratchpad.Proofs.Tree.Beside.Statement
import Scratchpad.Proofs.Tree.Joined
import Scratchpad.Proofs.Token.Significant

/-!
# The tree of one text after another

A module is its lines one after the other (`Lines`). The lines of the first text are read as if nothing
followed, and those of the second as if nothing had been made before. So the tree of both has the nodes of
the first and then those of the second, whose ids start after them (`ofTokens_joined`).
-/

namespace Scratchpad

namespace Parse

open Token (isLayout Closed)

variable {base : List NodeKind} {after : List Token} {inner : Inner} {front : List Token}
  {s s' s₁ s₂ : State} {ids ids' body : List NodeId}

/-- A line does not start with these. -/
theorem not_statement (shallow : inner.Shallow d) (head : s.tokens.head? = some t)
    (never : t ∈ [.dedent, .indent, .keyword .elifKw, .keyword .elseKw]) : statement inner s ≠ .ok (ids, s₁) := by
  intro h
  have line : statement inner s = simpleStatements inner s := by
    rw [statement, bind_of_ok (peek?_eq s), head]
    fin_cases never <;> rfl
  have small : smallStatement inner s = expressionStatement inner s := by
    rw [smallStatement, bind_of_ok (peek?_eq s), head]
    fin_cases never <;> rfl
  rw [line] at h
  obtain ⟨first, s₂, read, -⟩ := bind_ok h
  rw [small] at read
  obtain ⟨e, s₃, read, -⟩ := bind_ok read
  have opens := (testList_given shallow read).opens
  rw [head] at opens
  fin_cases never <;> cases opens

/-! ### Lines -/

theorem Lines.append (h : Lines inner s ids s₁) (h' : Lines inner s₁ ids' s₂) :
    Lines inner s (ids ++ ids') s₂ := by
  induction h with
  | done s => exact h'
  | line left read rest ih =>
    rw [List.append_assoc]
    exact .line left read (ih h')

theorem closed_of_suffix {ts ts' : List Token} (h : ts <:+ ts') (closed : Closed ts') : Closed ts := by
  obtain ⟨used, rfl⟩ := h
  intro last mem
  exact closed last (by rw [List.getLast?_append, mem]; rfl)

theorem map_rename_nil (kinds : List NodeKind) :
    kinds.map (·.rename (([] : List NodeKind).length + ·)) = kinds := by
  have same : (([] : List NodeKind).length + · : NodeId → NodeId) = id := funext Nat.zero_add
  rw [same, List.map_congr_left fun kind _ => kind.rename_id, List.map_id']

/-- What is left after newlines starts a line or is nothing. -/
theorem head_of_lines (shallow : inner.Shallow d) (h : Lines inner s.skipped ids s₁) (ended : s₁.tokens = [])
    (never : t ∈ [.dedent, .indent, .keyword .elifKw, .keyword .elseKw]) : s.tokens.head? ≠ some t := by
  intro head
  have still : s.skipped.tokens.head? = some t := by
    obtain ⟨ts, there⟩ := List.head?_eq_some_iff.mp head
    rw [State.tokens_skipped, there, List.dropWhile_cons_of_neg]
    · rfl
    · fin_cases never <;> decide
  generalize s.skipped = s' at h still
  cases h with
  | done =>
    rw [ended] at still
    cases still
  | line left read rest => exact not_statement shallow still never read

/-! ### Lines with more behind -/

/-- The first run is at the end of its text, and the second before what follows. -/
structure Reached (base : List NodeKind) (after : List Token) (s s' : State) : Prop where
  ended : s.tokens = []
  tokens : s'.tokens = after.dropWhile (· = .newline)
  kinds : s'.kinds = base ++ s.kinds.map (·.rename (base.length + ·))

/-- Where a line may start: in the text, at its end, or where a block is to be closed. -/
def Between (base : List NodeKind) (after : List Token) (s s' : State) : Prop :=
  Inside base after s s' ∨ Reached base after s s' ∨ s.tokens.head? = some .dedent

theorem Beside.skip (h : Beside base after front s s') (closed : Closed front) :
    Between base after s.skipped s'.skipped := by
  obtain ⟨back, back', seam, tokens, tokens'⟩ := h.tokens
  have skip (ts ts' : List Token) : (ts ++ ts').dropWhile (· = .newline) =
      if (ts.dropWhile (· = .newline)).isEmpty then ts'.dropWhile (· = .newline)
      else ts.dropWhile (· = .newline) ++ ts' := List.dropWhile_append
  have left := s.tokens_skipped
  have left' := s'.tokens_skipped
  rw [tokens, skip] at left
  rw [tokens', skip] at left'
  cases rest : front.dropWhile (· = .newline) with
  | nil =>
    rw [rest] at left left'
    cases seam with
    | plain => exact .inr (.inl ⟨left, left', h.kinds⟩)
    | padded n => exact .inr (.inr (by rw [left]; rfl))
  | cons t ts =>
    rw [rest] at left left'
    have still : Closed (t :: ts) := closed_of_suffix (rest ▸ List.dropWhile_suffix _) closed
    exact .inl ⟨t :: ts, ⟨List.cons_ne_nil t ts, still⟩, ⟨back, back', seam, left, left'⟩, h.kinds⟩

/-- The lines of the first text are read as if nothing followed. -/
theorem Lines.echo {other : Inner} (levels : Inner.Follows d other inner) (echoing : inner.Echoing base after)
    (shallow : inner.Shallow e)
    (fresh : after.head? ≠ some (.keyword .elifKw) ∧ after.head? ≠ some (.keyword .elseKw))
    (h : Lines inner s ids s₁) (ended : s₁.tokens = []) (bound : s'.Bounded) (start : Between base after s s') :
    ∃ s₁', Lines inner s' (ids.map (base.length + ·)) s₁' ∧ Reached base after s₁ s₁' ∧ s₁'.Bounded := by
  induction h generalizing s' with
  | done s =>
    rcases start with ⟨front, ⟨some, -⟩, beside⟩ | reached | closing
    · obtain ⟨back, back', -, tokens, -⟩ := beside.tokens
      rw [ended] at tokens
      exact absurd (List.append_eq_nil_iff.mp tokens.symm).1 some
    · exact ⟨s', .done s', reached, bound⟩
    · rw [ended] at closing
      cases closing
  | @line s s₁ s₂ ids ids' left read rest ih =>
    rcases start with inside | reached | closing
    · have tracked : Tracks d spends s' (statement other) (statement inner) := Follows.tracks s' bound
      obtain ⟨_, s₁', read', rfl, front, closed, beside⟩ :=
        echoes_statement echoing fresh s s' ids s₁ inside read tracked.lasts.1
      obtain ⟨s₂', rest', reached⟩ := ih ended (tracked.bounded read' bound).skipped (beside.skip closed)
      refine ⟨s₂', ?_, reached⟩
      rw [List.map_append]
      refine .line ?_ read' rest'
      obtain ⟨front, ⟨some, -⟩, beside⟩ := inside
      obtain ⟨back, back', -, -, tokens'⟩ := beside.tokens
      rw [tokens']
      exact List.append_ne_nil_of_left_ne_nil some _
    · exact absurd reached.ended left
    · exact absurd read (not_statement shallow closing List.mem_cons_self)

end Parse

/-! ### Two texts -/

namespace Tree

open Token (Closed)
open Parse

variable {tokens₁ tokens₂ tokens : List Token.Placed} {t₁ t₂ : Tree}

/-- How the first text stands to both. -/
theorem beside_joined (closed : Closed (tokens₁.map (·.token)))
    (joins : Token.Joins (tokens₁.map (·.token)) (tokens₂.map (·.token)) (tokens.map (·.token))) :
    ∃ after front, Closed front ∧ Beside [] after front (.ofTokens tokens₁) (.ofTokens tokens) ∧
      (after = tokens₂.map (·.token) ∨ after = .newline :: tokens₂.map (·.token)) := by
  rcases joins with both | ⟨lines, n, closed', first, both⟩
  · exact ⟨_, _, closed, ⟨⟨_, _, .plain, (List.append_nil _).symm, both⟩, rfl⟩, .inl rfl⟩
  · cases n with
    | zero => exact ⟨_, lines, closed', ⟨⟨_, _, .plain, first, both.trans (by simp)⟩, rfl⟩, .inr rfl⟩
    | succ n => exact ⟨_, lines, closed', ⟨⟨_, _, .padded n, first, both.trans (by simp)⟩, rfl⟩, .inl rfl⟩

/-- The nodes of the first text, then those of the second. -/
theorem ofTokens_joined (h₁ : ofTokens .exec tokens₁ = .ok t₁) (h₂ : ofTokens .exec tokens₂ = .ok t₂)
    (closed₁ : Closed (tokens₁.map (·.token))) (closed₂ : Closed (tokens₂.map (·.token)))
    (joins : Token.Joins (tokens₁.map (·.token)) (tokens₂.map (·.token)) (tokens.map (·.token))) :
    ∃ t, ofTokens .exec tokens = .ok t ∧ t₁.Joins t₂ t := by
  have shallow := within_shallow maxNesting
  obtain ⟨s₁, read₁, nodes₁⟩ := ofTokens_ok h₁
  obtain ⟨s₂, read₂, nodes₂⟩ := ofTokens_ok h₂
  obtain ⟨body₁, root₁, lines₁, ended₁⟩ := lines_of_module outermost_follows (bounded_ofTokens tokens₁) read₁
  obtain ⟨body₂, root₂, lines₂, ended₂⟩ := lines_of_module outermost_follows (bounded_ofTokens tokens₂) read₂
  obtain ⟨after, front, closed', beside, which⟩ := beside_joined closed₁ joins
  have fresh : after.head? ≠ some (.keyword .elifKw) ∧ after.head? ≠ some (.keyword .elseKw) := by
    rcases which with rfl | rfl
    · exact ⟨head_of_lines shallow lines₂ ended₂ (by decide), head_of_lines shallow lines₂ ended₂ (by decide)⟩
    · exact ⟨nofun, nofun⟩
  obtain ⟨s₁', lines₁', reached, bound⟩ := lines₁.echo outermost_follows (within_echoing fresh maxNesting) shallow
    fresh ended₁ (bounded_ofTokens tokens).skipped (beside.skip closed')
  have kinds₁ : s₁'.kinds = t₁.kinds := by
    rw [reached.kinds, map_rename_nil, List.nil_append, kinds, nodes₁]
    rfl
  have left : s₁'.tokens = (State.ofTokens tokens₂).skipped.tokens := by
    rw [reached.tokens, State.tokens_skipped]
    rcases which with rfl | rfl <;> rfl
  have before : s₁'.kinds = t₁.kinds ++
      (State.ofTokens tokens₂).skipped.kinds.map (·.rename (t₁.kinds.length + ·)) := by
    rw [kinds₁]
    exact (List.append_nil _).symm
  have start : Between t₁.kinds [] (State.ofTokens tokens₂).skipped s₁' := by
    by_cases none : s₁'.tokens = []
    · exact .inr (.inl ⟨left ▸ none, none, before⟩)
    · exact .inl ⟨s₁'.tokens, ⟨none, left ▸ closed_of_suffix (State.skipped_suffix _) closed₂⟩,
        ⟨[], [], .plain, by rw [left, List.append_nil], (List.append_nil _).symm⟩, before⟩
  obtain ⟨s₂', lines₂', last, -⟩ := lines₂.echo outermost_follows (within_echoing (by simp) maxNesting) shallow
    (by simp) ended₂ bound start
  have whole : rootWithin maxNesting .exec (.ofTokens tokens) = .ok (_, s₂') :=
    module_of_lines outermost_follows (lines₁'.append lines₂') last.tokens (bounded_ofTokens tokens)
  refine ⟨_, ofTokens_of_ok .exec whole, ?_, ⟨body₁, root₁⟩, ⟨body₂, root₂⟩, ?_⟩
  · have kinds₂ : t₂.kinds = s₂.kinds := by
      rw [kinds, nodes₂]
      rfl
    rw [← t₁.length_kinds, kinds₂]
    exact last.kinds
  · have same : body₁.map (([] : List NodeKind).length + ·) = body₁ := by simp
    rw [same, t₁.length_kinds, body, body, root₁, root₂]

/-- A text that has a statement has a token that is no layout, and starts at the margin. -/
theorem tokens_of_statement (h : ofTokens .exec tokens = .ok t) (nonempty : t.body ≠ []) :
    (∃ k ∈ tokens.map (·.token), Token.isLayout k = false) ∧
      (tokens.map (·.token)).head? ≠ some .indent := by
  have shallow := within_shallow maxNesting
  obtain ⟨s, read, -⟩ := ofTokens_ok h
  obtain ⟨ids, root, lines, ended⟩ := lines_of_module outermost_follows (bounded_ofTokens tokens) read
  refine ⟨?_, head_of_lines shallow lines ended (by decide)⟩
  rw [body, root] at nonempty
  generalize within : (State.ofTokens tokens).skipped = s₀ at lines
  cases lines with
  | done => exact absurd rfl nonempty
  | line left line rest =>
    obtain ⟨k, ks, there⟩ := List.exists_cons_of_ne_nil left
    have head : s₀.tokens.head? = some k := congrArg List.head? there
    refine ⟨k, ?_, ?_⟩
    · refine (State.skipped_suffix (.ofTokens tokens)).subset ?_
      rw [within, there]
      exact List.mem_cons_self
    · cases k with
      | newline =>
        rw [← within, State.tokens_skipped] at there
        have kept := List.head?_dropWhile_not (· = Token.newline) (State.ofTokens tokens).tokens
        rw [there] at kept
        cases kept
      | indent | dedent => exact absurd line (not_statement shallow head (by decide))
      | _ => rfl

variable {flags : Flags} {source₁ source₂ : String} (closes : flags.keepsBlocksOpen = false)
  (kept₁ : Text.dedent source₁.toList = source₁.toList) (kept₂ : Text.dedent source₂.toList = source₂.toList)
  (h₁ : ofSource .exec flags source₁ = .ok t₁) (h₂ : ofSource .exec flags source₂ = .ok t₂)
  (nonempty : t₂.body ≠ [])

include closes kept₁ kept₂ h₁ h₂ nonempty

theorem tokens_joined : ∃ tokens₁ tokens₂ tokens,
    Token.tokenize flags source₁.toList = .ok tokens₁ ∧ Token.tokenize flags source₂.toList = .ok tokens₂ ∧
    Token.tokenize flags (source₁.toList ++ '\n' :: source₂.toList) = .ok tokens ∧
    Token.Joins (tokens₁.map (·.token)) (tokens₂.map (·.token)) (tokens.map (·.token)) ∧
    ∃ k ∈ tokens₂.map (·.token), Token.isLayout k = false := by
  obtain ⟨tokens₁, read₁⟩ := tokens_of_ofSource h₁
  obtain ⟨tokens₂, read₂⟩ := tokens_of_ofSource h₂
  rw [ofSource_eq read₂] at h₂
  obtain ⟨some, flush⟩ := tokens_of_statement h₂ nonempty
  obtain ⟨tokens, read, joins⟩ := Token.tokenize_joined closes kept₁ kept₂ read₁ read₂ some flush
  exact ⟨tokens₁, tokens₂, tokens, read₁, read₂, read, joins, some⟩

theorem ofSource_joined :
    ∃ t, ofSource .exec flags (source₁ ++ "\n" ++ source₂) = .ok t ∧ t₁.Joins t₂ t := by
  obtain ⟨tokens₁, tokens₂, tokens, read₁, read₂, read, joins, -⟩ :=
    tokens_joined closes kept₁ kept₂ h₁ h₂ nonempty
  have both : (source₁ ++ "\n" ++ source₂).toList = source₁.toList ++ '\n' :: source₂.toList := by simp
  rw [← both] at read
  rw [ofSource_eq read₁] at h₁
  rw [ofSource_eq read₂] at h₂
  rw [ofSource_eq read]
  have closed {source : List Char} {tokens : List Token.Placed} (read : Token.tokenize flags source = .ok tokens) :=
    Token.closed_of_tokenize closes read
  exact ofTokens_joined h₁ h₂ (closed read₁) (closed read₂) joins

end Tree

end Scratchpad
