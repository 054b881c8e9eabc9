import Mathlib
import Scratchpad.Token.Layout

/-!
# Reading a text to its end

Every step of the lexer passes a character, so that `State.read`, a run with as many steps as there
are characters left, is the run (`read_step`). `Lexes cs ts after` says that within a line the
characters `cs`, where `after` follows, give just the tokens `ts`.
-/

namespace Scratchpad.Token

namespace State

variable {s s' : State} {start : Cursor}

theorem accept_ok {t : Token} (h : s.accept start t = .ok s') :
    s'.cursor = s.cursor ∧ s'.indents = s.indents ∧ s'.atLineStart = s.atLineStart ∧
      s'.tokens = ⟨t, start.spanTo s.cursor⟩ :: s.tokens := by
  unfold accept at h
  split at h
  · split at h
    · cases h
      exact ⟨rfl, rfl, rfl, rfl⟩
    · split at h
      · split at h
        · split at h <;> cases h
          exact ⟨rfl, rfl, rfl, rfl⟩
        · cases h
      · cases h
        exact ⟨rfl, rfl, rfl, rfl⟩
  · cases h
    exact ⟨rfl, rfl, rfl, rfl⟩

theorem indentTo_cursor (h : s.indentTo start width = .ok s') : s'.cursor = s.cursor := by
  have close : ∀ (s : State) (levels : List Nat), (s.closeWider start width levels).cursor = s.cursor := by
    intro s levels
    induction levels generalizing s with
    | nil => rfl
    | cons level outer ih =>
      unfold closeWider
      split
      · exact ih _
      · rfl
  unfold indentTo at h
  dsimp only at h
  split at h
  · cases h; rfl
  · split at h
    · split at h <;> cases h
      exact close s s.indents
    · cases h; rfl

theorem inline_shorter (here : s.cursor.rest = c :: rest) (h : s.inline c rest = .ok s') :
    s'.cursor.rest.length < s.cursor.rest.length := by
  have less : ∀ n, (s.cursor.next.skip n).rest.length < s.cursor.rest.length := by
    intro n
    simp [here]
  unfold inline at h
  dsimp only at h
  split at h
  · cases h
  · split at h
    · cases h
      exact less _
    · cases h
      split
      · exact less _
      · exact less _
    · rw [(accept_ok h).1]
      exact less _

theorem blankLine?_pos (h : blankLine? cs = some n) (more : cs ≠ []) : 0 < n := by
  unfold blankLine? at h
  split at h
  · contradiction
  · cases h; decide
  · cases h; decide
  · cases h
    split <;> omega
  · cases h

/-- Within a line a step reads one lexeme. -/
theorem step_inline (inside : (s.atLineStart && s.brackets.isEmpty) = false)
    (here : s.cursor.rest = c :: rest) : s.step = s.inline c rest := by
  unfold step
  simp only [inside, here]
  rfl

/-- A blank line is passed as a whole. -/
theorem step_blank (lineStart : (s.atLineStart && s.brackets.isEmpty) = true)
    (blank : blankLine? (s.cursor.rest.drop (measure 0 0 s.cursor.rest).2) = some more) :
    s.step = .ok { s with
      cursor := (s.cursor.skip (measure 0 0 s.cursor.rest).2).skip more
      afterBlank := s.afterBlank || more != 0 } := by
  unfold step
  simp [lineStart, blank]

/-- Any other line has its indentation measured before its first lexeme. -/
theorem step_indented (lineStart : (s.atLineStart && s.brackets.isEmpty) = true)
    (blank : blankLine? (s.cursor.rest.drop (measure 0 0 s.cursor.rest).2) = none)
    (here : s.cursor.rest.drop (measure 0 0 s.cursor.rest).2 = c :: rest) :
    s.step = (State.indentTo
      { s with cursor := s.cursor.skip (measure 0 0 s.cursor.rest).2, atLineStart := false }
      s.cursor (measure 0 0 s.cursor.rest).1) >>= (·.inline c rest) := by
  rw [here] at blank
  unfold step
  simp [lineStart, here, blank]

theorem step_shorter (more : s.cursor.rest ≠ []) (h : s.step = .ok s') :
    s'.cursor.rest.length < s.cursor.rest.length := by
  have positive := List.length_pos_of_ne_nil more
  cases lineStart : s.atLineStart && s.brackets.isEmpty with
  | false =>
    obtain ⟨c, rest, here⟩ := List.exists_cons_of_ne_nil more
    exact inline_shorter here (step_inline lineStart here ▸ h)
  | true =>
    cases blank : blankLine? (s.cursor.rest.drop (measure 0 0 s.cursor.rest).2) with
    | some n =>
      rw [step_blank lineStart blank] at h
      cases h
      simp only [Cursor.rest_skip, List.length_drop]
      by_cases left : s.cursor.rest.drop (measure 0 0 s.cursor.rest).2 = []
      · have := List.drop_eq_nil_iff.mp left
        omega
      · have := blankLine?_pos blank left
        omega
    | none =>
      match here : s.cursor.rest.drop (measure 0 0 s.cursor.rest).2 with
      | [] => rw [here] at blank; cases blank
      | c :: rest =>
        rw [step_indented lineStart blank here] at h
        match indented : State.indentTo _ s.cursor (measure 0 0 s.cursor.rest).1, h with
        | .ok s₁, h =>
          have cursor := indentTo_cursor indented
          have at₁ : s₁.cursor.rest = c :: rest := by rw [cursor, Cursor.rest_skip, here]
          have less := inline_shorter at₁ h
          rw [cursor, Cursor.rest_skip, List.length_drop] at less
          omega

/-- Steps until the text is read, as many as that takes. -/
def read (s : State) : Except LexError State := s.run s.cursor.rest.length

theorem run_step (more : s.cursor.rest ≠ []) : s.run (n + 1) = s.step >>= run n := by
  rw [run, if_neg (by simpa using more)]
  cases s.step <;> rfl

theorem run_done (done : s.cursor.rest = []) : s.run n = .ok s := by
  cases n with
  | zero => rfl
  | succ n => rw [run, if_pos (by simp [done])]

/-- More steps than there are characters make no difference. -/
theorem run_enough (enough : s.cursor.rest.length ≤ n) (enough' : s.cursor.rest.length ≤ m) :
    s.run n = s.run m := by
  by_cases done : s.cursor.rest = []
  · rw [run_done done, run_done done]
  · have positive := List.length_pos_of_ne_nil done
    induction n generalizing m s with
    | zero => omega
    | succ n ih =>
      cases m with
      | zero => omega
      | succ m =>
        rw [run_step done, run_step done]
        match next : s.step with
        | .error e => rfl
        | .ok s' =>
          have less := step_shorter done next
          by_cases done' : s'.cursor.rest = []
          · exact (run_done done').trans (run_done done').symm
          · exact ih (by omega) (by omega) done' (List.length_pos_of_ne_nil done')

theorem read_done (done : s.cursor.rest = []) : s.read = .ok s := run_done done

theorem read_step (more : s.cursor.rest ≠ []) : s.read = s.step >>= read := by
  obtain ⟨m, size⟩ : ∃ m, s.cursor.rest.length = m + 1 :=
    ⟨_, (Nat.succ_pred_eq_of_pos (List.length_pos_of_ne_nil more)).symm⟩
  rw [read, size, run_step more]
  match next : s.step with
  | .error e => rfl
  | .ok s' =>
    have less := step_shorter more next
    exact run_enough (by omega) (Nat.le_refl _)

/-- The lexer has passed the tokens `ts` within a line and stands before `after`. -/
structure Passes (s : State) (ts : List Token) (after : List Char) (s' : State) : Prop where
  read : s.read = s'.read
  rest : s'.cursor.rest = after
  tokens : s'.tokens.map (·.token) = ts.reverse ++ s.tokens.map (·.token)
  brackets : s'.brackets = s.brackets
  indents : s'.indents = s.indents
  inside : s'.atLineStart = false

theorem Passes.trans {s₁ s₂ s₃ : State} {after after' : List Char} (h : s₁.Passes ts after s₂)
    (h' : s₂.Passes ts' after' s₃) : s₁.Passes (ts ++ ts') after' s₃ where
  read := h.read.trans h'.read
  rest := h'.rest
  tokens := by rw [h'.tokens, h.tokens, List.reverse_append, List.append_assoc]
  brackets := h'.brackets.trans h.brackets
  indents := h'.indents.trans h.indents
  inside := h'.inside

end State

/-- Within a line, before `after`, the characters are read as the tokens. -/
def Lexes (cs : List Char) (ts : List Token) (after : List Char) : Prop :=
  ∀ s : State, s.atLineStart = false → s.cursor.rest = cs ++ after → ∃ s', s.Passes ts after s'

theorem lexes_nil (after : List Char) : Lexes [] [] after := fun s inside here =>
  ⟨s, rfl, here, rfl, rfl, rfl, inside⟩

theorem Lexes.append (h : Lexes cs ts (cs' ++ after)) (h' : Lexes cs' ts' after) :
    Lexes (cs ++ cs') (ts ++ ts') after := by
  intro s inside here
  obtain ⟨s₁, first⟩ := h s inside (here.trans (List.append_assoc ..))
  obtain ⟨s₂, second⟩ := h' s₁ first.inside first.rest
  exact ⟨s₂, first.trans second⟩

/-- Does the token neither open nor close a bracket? -/
def isPlain : Token → Bool
  | .symbol b => b.closer?.isNone && !b.isCloser
  | _ => true

theorem accept_plain {s : State} {start : Cursor} (h : isPlain t = true) :
    s.accept start t = .ok (s.push start t) := by
  unfold State.accept
  cases t with
  | symbol b =>
    simp only [isPlain, Bool.and_eq_true, Option.isNone_iff_eq_none, Bool.not_eq_true'] at h
    simp [h.1, h.2]
  | _ => rfl

/-- The lexer after a lexeme of `n` characters. -/
def State.passing (s : State) (n : Nat) : State :=
  { s with cursor := s.cursor.next.skip (n - 1), afterBlank := false }

theorem State.rest_passing {s : State} (here : s.cursor.rest = c :: cs ++ after) :
    (s.passing (cs.length + 1)).cursor.rest = after := by
  simp [passing, here]

/-- What a lexeme of `n` characters leads to. -/
def State.take (s : State) (n : Nat) : Lexeme → Except LexError State
  | .blank => .ok (s.passing n)
  | .newline => .ok (if s.brackets.isEmpty then
      { (s.passing n).push s.cursor .newline with atLineStart := true } else s.passing n)
  | .token t => (s.passing n).accept s.cursor t

theorem State.inline_of_scan {s : State} (scanned : scan c rest = .ok (lexeme, n)) :
    s.inline c rest = s.take n lexeme := by
  unfold inline
  rw [scanned]
  rfl

/-- The first step within a line. -/
theorem State.read_inline {s : State} (inside : s.atLineStart = false)
    (here : s.cursor.rest = c :: rest) (done : s.inline c rest = .ok s') : s.read = s'.read := by
  rw [read_step (by simp [here]), step_inline (by simp [inside]) here, done]
  rfl

theorem lexes_blank (scanned : scan c (cs ++ after) = .ok (.blank, cs.length + 1)) :
    Lexes (c :: cs) [] after := by
  intro s inside here
  exact ⟨s.passing (cs.length + 1), State.read_inline inside here (State.inline_of_scan scanned),
    State.rest_passing here, rfl, rfl, rfl, inside⟩

theorem lexes_token (plain : isPlain t = true)
    (scanned : scan c (cs ++ after) = .ok (.token t, cs.length + 1)) : Lexes (c :: cs) [t] after := by
  intro s inside here
  have done := (State.inline_of_scan (s := s) scanned).trans (accept_plain plain)
  exact ⟨_, State.read_inline inside here done, State.rest_passing here, rfl, rfl, rfl, inside⟩

/-- What is in brackets does not see them. -/
theorem lexes_brackets {opener closer : Symbol} {o b : Char} (pair : opener.closer? = some closer)
    (opens : ∀ rest, scan o rest = .ok (.token (.symbol opener), 1))
    (closes : ∀ rest, scan b rest = .ok (.token (.symbol closer), 1))
    (h : Lexes cs ts (b :: after)) :
    Lexes (o :: cs ++ [b]) (.symbol opener :: ts ++ [.symbol closer]) after := by
  intro s inside here
  have here₀ : s.cursor.rest = o :: [] ++ (cs ++ b :: after) := by simpa using here
  let s₁ : State := { (s.passing 1).push s.cursor (.symbol opener) with
    brackets := (opener, s.cursor.spanTo (s.passing 1).cursor) :: s.brackets }
  have opened : s.inline o (cs ++ b :: after) = .ok s₁ := by
    rw [State.inline_of_scan (opens _)]
    simp [State.take, State.accept, pair, s₁]
    rfl
  obtain ⟨s₂, inner⟩ := h s₁ inside (State.rest_passing here₀)
  have here₂ : s₂.cursor.rest = b :: [] ++ after := inner.rest
  have isCloser : closer.closer? = none ∧ closer.isCloser = true := by
    cases opener <;> cases pair <;> exact ⟨rfl, rfl⟩
  let s₃ : State := { (s₂.passing 1).push s₂.cursor (.symbol closer) with brackets := s.brackets }
  have closed : s₂.inline b after = .ok s₃ := by
    rw [State.inline_of_scan (closes _), State.take]
    have top : (s₂.passing 1).brackets = (opener, _) :: s.brackets := inner.brackets
    simp [State.accept, isCloser, top, pair, s₃]
  refine ⟨s₃, ⟨?_, State.rest_passing here₂, ?_, rfl, inner.indents, inner.inside⟩⟩
  · rw [State.read_inline inside (by simpa using here) opened, inner.read,
      State.read_inline inner.inside here₂ closed]
  · have tokens := inner.tokens
    simp only [s₁] at tokens
    simp [State.push, State.passing, tokens, s₃]

/-! ### Texts of one line -/

theorem State.indentTo_same {s : State} {start : Cursor} (h : s.indents.headD 0 = width) :
    s.indentTo start width = .ok s := by
  subst h
  unfold indentTo
  simp only [lt_irrefl, if_false]

/-- A line that starts at the margin, where no block is open. -/
theorem State.read_margin {s : State} (lineStart : (s.atLineStart && s.brackets.isEmpty) = true)
    (outer : s.indents = []) (flush : measure 0 0 s.cursor.rest = (0, 0))
    (full : blankLine? s.cursor.rest = none) : s.read = { s with atLineStart := false }.read := by
  match here : s.cursor.rest with
  | [] => rw [here] at full; cases full
  | c :: rest =>
    let s₁ : State := { s with atLineStart := false }
    have some : s.cursor.rest ≠ [] := by simp [here]
    have first : s.step = s₁.inline c rest := by
      rw [step_indented lineStart (by rw [flush]; exact full) (by rw [flush]; exact here), flush]
      exact congrArg (· >>= (inline · c rest)) (indentTo_same (s := s₁) (by simp [s₁, outer]))
    have same : s₁.step = s₁.inline c rest := step_inline rfl here
    have second : s₁.read = s₁.step >>= read := read_step some
    rw [read_step some, first, ← same]
    exact second.symm

theorem tokenize_line (flags : Flags) (h : Lexes cs (ts ++ [t]) []) (flush : measure 0 0 cs = (0, 0))
    (full : blankLine? cs = none) (last : t ≠ .newline ∧ t ≠ .dedent) :
    ∃ placed, tokenize flags cs = .ok placed ∧
      placed.map (·.token) = ts ++ [t] ++ [.newline] := by
  let s : State := { cursor := { rest := cs } }
  obtain ⟨s', passed⟩ := h { s with atLineStart := false } rfl (List.append_nil _).symm
  have read : s.read = .ok s' := by
    rw [State.read_margin rfl rfl flush full, passed.read, State.read_done passed.rest]
  have tokens : s'.tokens.map (·.token) = t :: ts.reverse := by
    simpa [s] using passed.tokens
  have latest : s'.tokens.head?.map (·.token) = some t := by rw [← List.head?_map, tokens]; rfl
  refine ⟨(s'.push s'.cursor .newline).tokens.reverse, ?_, ?_⟩
  · change s.read >>= State.finish flags = _
    rw [read]
    change s'.finish flags = _
    unfold State.finish
    have blocks : (s'.push s'.cursor .newline).indents = [] := passed.indents
    rw [passed.brackets, latest]
    cases t
    case newline => exact absurd rfl last.1
    case dedent => exact absurd rfl last.2
    all_goals simp [blocks, s]
  · rw [List.map_reverse, State.push, List.map_cons, tokens]
    simp

end Scratchpad.Token
