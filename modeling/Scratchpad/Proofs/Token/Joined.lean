import Scratchpad.Proofs.Text.Dedent
import Scratchpad.Proofs.Token.Longer

/-!
# The tokens of one text after another

Two texts that have tokens have tokens together, with a newline between them: those of the first, then
those of the second (`tokenize_joined`). The lexer reads the first text as it does alone (`Alike`), but
that the last line may now be passed with its newline (`Crossed`). The blocks that the end of the first
text closes are closed by the first line of the second, which starts at the margin. A newline is there
that is not there alone if the last line of the first text was begun and has no tokens.
-/

namespace Scratchpad.Token

/-! ### Lines -/

/-- A blank line is passed to the start of the next. -/
theorem blankLine?_start (h : blankLine? s = some n) :
    s.drop n = [] ∨ ('\n' :: s.drop n) <:+ s := by
  unfold blankLine? at h
  split at h
  · exact .inl (List.drop_nil)
  · cases h
    exact .inr (List.suffix_refl _)
  · cases h
    exact .inr (List.suffix_cons _ _)
  · rename_i rest
    dsimp only at h
    split at h
    · rename_i last
      cases h
      rw [Nat.add_comm, List.drop_succ_cons]
      exact .inl (List.isEmpty_iff.mp last)
    · rename_i later
      cases h
      rw [show 2 + commentLength rest = commentLength rest + 1 + 1 by omega, List.drop_succ_cons,
        ← List.drop_drop]
      match left : rest.drop (commentLength rest) with
      | [] => simp [left] at later
      | d :: back =>
        obtain rfl := newline_after_comment left
        right
        rw [List.drop_one, List.tail_cons, ← left]
        exact (List.drop_suffix _ _).trans (List.suffix_cons _ _)
  · cases h

namespace State

variable {s s' : State} {source : List Char}

/-- What the lexer keeps about the lines of the source. -/
structure Settled (source : List Char) (s : State) : Prop where
  within : s.cursor.rest <:+ source
  levels : ∀ width ∈ s.indents, 0 < width
  outside : s.atLineStart = true → s.brackets = []
  ended : s.atLineStart = true → s.tokens.head?.any (!endsLine ·.token) = false
  start : s.atLineStart = true → s.cursor.rest = [] ∨ Text.LineStart source s.cursor.rest

theorem settled_first (source : List Char) : (first source).Settled source where
  within := List.suffix_refl _
  levels _ mem := by cases mem
  outside _ := rfl
  ended _ := rfl
  start _ := .inr (.inl rfl)

/-- Within a line nothing is known about its start. -/
theorem Settled.go (h : s.Settled source) (rest : s'.cursor.rest <:+ s.cursor.rest)
    (indents : ∀ width ∈ s'.indents, width ∈ s.indents ∨ 0 < width) (inside : s'.atLineStart = false) :
    s'.Settled source where
  within := rest.trans h.within
  levels width mem := (indents width mem).elim (h.levels width) id
  outside here := by rw [inside] at here; cases here
  ended here := by rw [inside] at here; cases here
  start here := by rw [inside] at here; cases here

theorem rest_passing_suffix (s : State) (n : Nat) : (s.passing n).cursor.rest <:+ s.cursor.rest := by
  simp only [passing, Cursor.rest_skip, Cursor.rest_next]
  exact (List.drop_suffix _ _).trans (List.tail_suffix _)

theorem Settled.turn (h : s.Settled source) (turn : s.Turn s') : s'.Settled source := by
  have inLine (within : (s.atLineStart && s.brackets.isEmpty) = false) : s.atLineStart = false := by
    cases here : s.atLineStart with
    | false => rfl
    | true =>
      rw [here, h.outside here] at within
      cases within
  cases turn with
  | @line n outside blank =>
    have suffix : (s.cursor.rest.drop (measure 0 0 s.cursor.rest).2).drop n <:+ s.cursor.rest :=
      (List.drop_suffix _ _).trans (List.drop_suffix _ _)
    refine ⟨?_, h.levels, h.outside, h.ended, fun _ => ?_⟩
    · simp only [Cursor.rest_skip]
      exact suffix.trans h.within
    · simp only [Cursor.rest_skip]
      refine (blankLine?_start blank).imp id fun newline => .inr ?_
      exact newline.trans ((List.drop_suffix _ _).trans h.within)
  | indent outside width wider =>
    refine h.go ?_ (fun level mem => ?_) rfl
    · simp only [push, State.within, Cursor.rest_skip]
      exact List.drop_suffix _ _
    · rcases List.mem_cons.mp mem with rfl | old
      · exact .inr (by omega)
      · exact .inl old
  | dedent outside n le =>
    refine h.go ?_ (fun level mem => .inl (List.mem_of_mem_drop mem)) rfl
    simp only [State.within, Cursor.rest_skip]
    exact List.drop_suffix _ _
  | blank here scanned within =>
    exact h.go (rest_passing_suffix s _) (fun _ => .inl) (inLine within)
  | joined inside here scanned within =>
    exact h.go (rest_passing_suffix s _) (fun _ => .inl) (inLine within)
  | @newline c rest n outside here scanned within =>
    have newline : c = '\n' ∧ n = 1 := by
      cases scans_of_scan scanned with
      | newline sign => exact ⟨sign, rfl⟩
    obtain ⟨rfl, rfl⟩ := newline
    have rest' : (s.passing 1).cursor.rest = rest := by simp [passing, Cursor.skip, here]
    have suffix := h.within
    rw [here] at suffix
    refine ⟨(rest_passing_suffix s 1).trans h.within, h.levels, fun _ => outside, fun _ => rfl, fun _ => ?_⟩
    exact .inr (.inr (by rw [← rest'] at suffix; exact suffix))
  | @token c rest t n s' here scanned kept within =>
    obtain ⟨cursor, indents, lineStart, -⟩ := accept_ok kept
    refine h.go ?_ (fun width mem => .inl ?_) (lineStart.trans (inLine within))
    · rw [cursor]
      exact rest_passing_suffix s n
    · rw [indents] at mem
      exact mem

/-! ### The first text -/

/-- The lexer has as much before it, and `more`, and as many tokens behind it, after `front`. -/
structure Alike (front : List Token) (more : List Char) (s s' : State) : Prop where
  rest : s'.cursor.rest = s.cursor.rest ++ more
  kinds : s'.kinds = front ++ s.kinds
  indents : s'.indents = s.indents
  brackets : s'.brackets.map (·.1) = s.brackets.map (·.1)
  lineStart : s'.atLineStart = s.atLineStart

variable {front : List Token} {more : List Char} {start start' : Cursor}

theorem Alike.outside (h : Alike front more s s') : s'.brackets.isEmpty = s.brackets.isEmpty := by
  have same := congrArg List.isEmpty h.brackets
  simpa using same

theorem Alike.skip (h : Alike front more s s') (le : n ≤ s.cursor.rest.length) (b : Bool) :
    Alike front more { s with cursor := s.cursor.skip n, atLineStart := b }
      { s' with cursor := s'.cursor.skip n, atLineStart := b } where
  rest := by rw [Cursor.rest_skip, Cursor.rest_skip, h.rest, List.drop_append_of_le_length le]
  kinds := h.kinds
  indents := h.indents
  brackets := h.brackets
  lineStart := rfl

theorem Alike.passing (h : Alike front more s s') (here : s.cursor.rest = c :: tail)
    (le : n ≤ tail.length + 1) : Alike front more (s.passing n) (s'.passing n) where
  rest := by
    simp only [State.passing, Cursor.rest_skip, Cursor.rest_next, h.rest, here, List.cons_append,
      List.tail_cons]
    rw [List.drop_append_of_le_length (by omega)]
  kinds := h.kinds
  indents := h.indents
  brackets := h.brackets
  lineStart := h.lineStart

theorem kinds_push (s : State) (start : Cursor) (t : Token) : (s.push start t).kinds = s.kinds ++ [t] :=
  kinds_of_tokens rfl

theorem Alike.push (h : Alike front more s s') (t : Token) :
    Alike front more (s.push start t) (s'.push start' t) where
  rest := h.rest
  kinds := by rw [kinds_push, kinds_push, h.kinds, List.append_assoc]
  indents := h.indents
  brackets := h.brackets
  lineStart := h.lineStart

theorem Alike.accept {s₁ : State} (h : Alike front more s s') (done : s.accept start t = .ok s₁) :
    ∃ s₁', s'.accept start' t = .ok s₁' ∧ Alike front more s₁ s₁' := by
  have brackets := h.brackets
  have pushed : Alike front more (s.push start t) (s'.push start' t) := h.push t
  cases t with
  | symbol b =>
    simp only [State.accept] at done ⊢
    split_ifs at done ⊢ with opens closes
    · cases done
      exact ⟨_, rfl, pushed.rest, pushed.kinds, pushed.indents, by simp [brackets], pushed.lineStart⟩
    · rcases top : s.brackets with _ | ⟨⟨opener, _⟩, outer⟩
      · rw [top] at done
        cases done
      rcases top' : s'.brackets with _ | ⟨⟨opener', _⟩, outer'⟩
      · simp [top, top'] at brackets
      · rw [top, top'] at brackets
        simp only [List.map_cons, List.cons.injEq] at brackets
        obtain ⟨rfl, same⟩ := brackets
        simp only [top] at done
        dsimp only
        split_ifs at done ⊢ with pair
        cases done
        exact ⟨_, rfl, pushed.rest, pushed.kinds, pushed.indents, same, pushed.lineStart⟩
    · cases done
      exact ⟨_, rfl, pushed⟩
  | _ =>
    cases done
    exact ⟨_, rfl, pushed⟩

theorem Alike.closeWider (h : Alike front more s s') (levels : List Nat) :
    Alike front more (s.closeWider start width levels) (s'.closeWider start' width levels) := by
  induction levels generalizing s s' with
  | nil => exact ⟨h.rest, h.kinds, rfl, h.brackets, h.lineStart⟩
  | cons level outer ih =>
    unfold State.closeWider
    split
    · exact ih (h.push .dedent)
    · exact ⟨h.rest, h.kinds, rfl, h.brackets, h.lineStart⟩

theorem Alike.indentTo {s₁ : State} (h : Alike front more s s') (done : s.indentTo start width = .ok s₁) :
    ∃ s₁', s'.indentTo start' width = .ok s₁' ∧ Alike front more s₁ s₁' := by
  have closed : Alike front more (s.closeWider start width s.indents)
      (s'.closeWider start' width s.indents) := h.closeWider _
  simp only [State.indentTo, h.indents, closed.indents] at done ⊢
  split_ifs at done ⊢ with wider narrower fits
  · cases done
    have pushed : Alike front more (s.push start .indent) (s'.push start' .indent) := h.push .indent
    exact ⟨_, rfl, pushed.rest, pushed.kinds, rfl, pushed.brackets, pushed.lineStart⟩
  · cases done
    exact ⟨_, rfl, closed⟩
  · cases done
    exact ⟨_, rfl, h⟩

theorem Alike.take {s₁ : State} (h : Alike front more s s') (here : s.cursor.rest = c :: tail)
    (le : n ≤ tail.length + 1) (done : s.take n lexeme = .ok s₁) :
    ∃ s₁', s'.take n lexeme = .ok s₁' ∧ Alike front more s₁ s₁' := by
  have passed := h.passing here le
  cases lexeme with
  | blank =>
    cases done
    exact ⟨_, rfl, passed⟩
  | newline =>
    simp only [State.take, h.outside] at done ⊢
    cases done
    refine ⟨_, rfl, ?_⟩
    split
    · have pushed : Alike front more (State.push _ s.cursor .newline)
          (State.push _ s'.cursor .newline) := passed.push .newline
      exact ⟨pushed.rest, pushed.kinds, pushed.indents, pushed.brackets, rfl⟩
    · exact passed
  | token t => exact passed.accept done

theorem inline_ok {s₁ : State} (done : s.inline c tail = .ok s₁) :
    ∃ lexeme n, scan c tail = .ok (lexeme, n) ∧ s.take n lexeme = .ok s₁ := by
  cases scanned : scan c tail with
  | error e => simp [State.inline, scanned] at done
  | ok found => exact ⟨found.1, found.2, rfl, (inline_of_scan scanned).symm.trans done⟩

theorem Alike.inline {s₁ : State} (ends : EndsLine more) (h : Alike front more s s')
    (here : s.cursor.rest = c :: tail) (done : s.inline c tail = .ok s₁) :
    ∃ s₁', s'.inline c (tail ++ more) = .ok s₁' ∧ Alike front more s₁ s₁' := by
  obtain ⟨lexeme, n, scanned, taken⟩ := inline_ok done
  obtain ⟨le, longer⟩ := scan_longer ends scanned
  rw [inline_of_scan longer]
  exact h.take here le taken

theorem Alike.dropped (ends : EndsCode more) (h : Alike front more s s') :
    s'.cursor.rest.drop (measure 0 0 s'.cursor.rest).2 =
      s.cursor.rest.drop (measure 0 0 s.cursor.rest).2 ++ more := by
  have le := measure_le 0 0 s.cursor.rest
  rw [h.rest, measure_longer ends, List.drop_append_of_le_length (by omega)]

/-- Both lines have the same blanks at their front. -/
theorem Alike.indented {s₁ : State} (ends : EndsCode more) (h : Alike front more s s')
    (lineStart : (s.atLineStart && s.brackets.isEmpty) = true)
    (blank : blankLine? (s.cursor.rest.drop (measure 0 0 s.cursor.rest).2) = none)
    (blank' : blankLine? (s.cursor.rest.drop (measure 0 0 s.cursor.rest).2 ++ more) = none)
    (done : s.step = .ok s₁) :
    ∃ c tail s₂ s₂', Alike front more s₂ s₂' ∧ s₂.cursor.rest = c :: tail ∧ s₂.inline c tail = .ok s₁ ∧
      s'.step = s₂'.inline c (tail ++ more) := by
  have lineStart' : (s'.atLineStart && s'.brackets.isEmpty) = true := by rw [h.lineStart, h.outside, lineStart]
  have dropped := h.dropped ends
  have margin : measure 0 0 s'.cursor.rest = measure 0 0 s.cursor.rest := by
    rw [h.rest, measure_longer ends]
  rw [← dropped] at blank'
  match here : s.cursor.rest.drop (measure 0 0 s.cursor.rest).2 with
  | [] => rw [here] at blank; cases blank
  | c :: tail =>
    rw [here, List.cons_append] at dropped
    rw [step_indented lineStart blank here] at done
    rw [step_indented lineStart' blank' dropped, margin]
    match indented : State.indentTo s.within s.cursor (measure 0 0 s.cursor.rest).1, done with
    | .ok s₂, done =>
      have le := measure_le 0 0 s.cursor.rest
      have skipped := h.skip (show (measure 0 0 s.cursor.rest).2 ≤ s.cursor.rest.length by omega) false
      obtain ⟨s₂', indented', alike⟩ : ∃ s₂', State.indentTo _ s'.cursor _ = .ok s₂' ∧ _ :=
        skipped.indentTo indented
      have at₂ : s₂.cursor.rest = c :: tail := by
        rw [indentTo_cursor indented, State.within, Cursor.rest_skip, here]
      exact ⟨c, tail, s₂, s₂', alike, at₂, done, by rw [indented']; rfl⟩

/-- The text alone is read to its end, and with `more` the newline after it is passed too. Both stand
at the start of a line. -/
structure Crossed (front : List Token) (more : List Char) (s s' : State) : Prop where
  newline : more = '\n' :: s'.cursor.rest
  done : s.cursor.rest = []
  kinds : s'.kinds = front ++ s.kinds
  indents : s'.indents = s.indents
  outside : s'.brackets = []
  lineStart : s.atLineStart = true ∧ s'.atLineStart = true

/-- No last line is of blanks and a carriage return. -/
theorem Settled.noReturn (h : s.Settled source) (kept : Text.dedent source = source) (here : s.atLineStart = true) :
    s.cursor.rest.drop (measure 0 0 s.cursor.rest).2 ≠ ['\r'] := by
  intro last
  obtain ⟨n, length, all⟩ := measure_blanks 0 0 s.cursor.rest
  rw [length, Nat.zero_add] at last
  have whole := List.take_append_drop n s.cursor.rest
  rw [last] at whole
  have chars : ∀ c ∈ s.cursor.rest, c ≠ '\n' ∧ Text.isBlank c = true := by
    intro c mem
    rw [← whole] at mem
    rcases List.mem_append.mp mem with blank | carriage
    · rcases all c blank with rfl | rfl | rfl <;> decide
    · rw [List.mem_singleton.mp carriage]
      decide
  rcases h.start here with done | start
  · rw [done] at last
    simp at last
  · have full := Text.full_of_dedent kept start (fun mem => (chars _ mem).1 rfl) (by rw [← whole]; simp)
    have blank : Text.allBlank s.cursor.rest = true := List.all_eq_true.mpr fun c mem => (chars c mem).2
    rw [blank] at full
    cases full

theorem Alike.step {s₁ : State} (ends : EndsLine more) (kept : Text.dedent source = source) (settled : s.Settled source)
    (h : Alike front more s s') (left : s.cursor.rest ≠ []) (done : s.step = .ok s₁) :
    ∃ s₁', s'.step = .ok s₁' ∧ (Alike front more s₁ s₁' ∨ Crossed front more s₁ s₁') := by
  have inside : (s'.atLineStart && s'.brackets.isEmpty) = (s.atLineStart && s.brackets.isEmpty) := by
    rw [h.lineStart, h.outside]
  have dropped := h.dropped ends.endsCode
  cases lineStart : s.atLineStart && s.brackets.isEmpty with
  | false =>
    obtain ⟨c, tail, here⟩ := List.exists_cons_of_ne_nil left
    rw [step_inline lineStart here] at done
    have here' : s'.cursor.rest = c :: (tail ++ more) := by rw [h.rest, here, List.cons_append]
    rw [step_inline (inside.trans lineStart) here']
    obtain ⟨s₁', done', alike⟩ := h.inline ends here done
    exact ⟨s₁', done', .inl alike⟩
  | true =>
    have lineStart' := inside.trans lineStart
    obtain ⟨atStart, outside⟩ := Bool.and_eq_true_iff.mp lineStart
    obtain ⟨atStart', outside'⟩ := Bool.and_eq_true_iff.mp lineStart'
    cases blank : blankLine? (s.cursor.rest.drop (measure 0 0 s.cursor.rest).2) with
    | some n =>
      rw [step_blank lineStart blank] at done
      cases done
      rcases blankLine?_longer ends blank with ⟨le', longer⟩ | ⟨all, after, rfl, longer⟩
      · rw [← dropped] at longer
        refine ⟨_, step_blank lineStart' longer, .inl ⟨?_, h.kinds, h.indents, h.brackets, h.lineStart⟩⟩
        simp only [Cursor.rest_skip, dropped]
        exact List.drop_append_of_le_length le'
      · rw [← dropped] at longer
        refine ⟨_, step_blank lineStart' longer, .inr ⟨?_, ?_, h.kinds, h.indents,
          List.isEmpty_iff.mp outside', atStart, atStart'⟩⟩
        · simp only [Cursor.rest_skip, dropped]
          generalize s.cursor.rest.drop (measure 0 0 s.cursor.rest).2 = line
          simp
        · simp only [Cursor.rest_skip]
          exact List.drop_eq_nil_of_le all
    | none =>
      have blank' : blankLine? (_ ++ more) = none :=
        blankLine?_none_longer blank (settled.noReturn kept atStart)
      obtain ⟨c, tail, s₂, s₂', alike, at₂, rest, step⟩ := h.indented ends.endsCode lineStart blank blank' done
      obtain ⟨s₁', done', alike'⟩ := alike.inline ends at₂ rest
      exact ⟨s₁', step.trans done', .inl alike'⟩

/-- A text is read with `more` after it as it is alone. -/
theorem Alike.run {s₁ : State} (ends : EndsLine more) (kept : Text.dedent source = source) (settled : s.Settled source)
    (h : Alike front more s s') (done : s.run fuel = .ok s₁) :
    ∃ s₁', s'.read = s₁'.read ∧ (Alike front more s₁ s₁' ∨ Crossed front more s₁ s₁') := by
  induction fuel generalizing s s' with
  | zero =>
    cases done
    exact ⟨s', rfl, .inl h⟩
  | succ fuel ih =>
    by_cases none : s.cursor.rest = []
    · rw [run_done none] at done
      cases done
      exact ⟨s', rfl, .inl h⟩
    · rw [run_step none] at done
      match next : s.step, done with
      | .ok s₂, done =>
        obtain ⟨s₂', next', kept⟩ := h.step ends kept settled none next
        have first : s'.read = s₂'.read := by
          rw [read_step (by rw [h.rest]; simp [none]), next']
          rfl
        rcases kept with alike | crossed
        · obtain ⟨s₁', rest, result⟩ := ih (keeps_of_step Settled.turn none settled next) alike done
          exact ⟨s₁', first.trans rest, result⟩
        · change s₂.run fuel = .ok s₁ at done
          rw [run_done crossed.done] at done
          cases done
          exact ⟨s₂', first, .inr crossed⟩

/-! ### The seam -/

/-- The lexer at the start of a line, outside of brackets. -/
structure Fresh (left : List Char) (ks : List Token) (levels : List Nat) (s : State) : Prop where
  lineStart : s.atLineStart = true
  outside : s.brackets = []
  rest : s.cursor.rest = left
  kinds : s.kinds = ks
  indents : s.indents = levels

theorem Fresh.begins (h : s.Fresh left ks levels) : (s.atLineStart && s.brackets.isEmpty) = true := by
  rw [h.lineStart, h.outside]
  rfl

theorem scan_newline (rest : List Char) : scan '\n' rest = .ok (.newline, 1) := rfl

/-- After the first text and the newline the lexer stands at the front of the second. The newline is a
token unless a line starts before it. -/
theorem read_seam {s₁ : State} (kept : Text.dedent source = source) (after : List Char)
    (done : (first source).read = .ok s₁) (outside : s₁.brackets = []) :
    ∃ s₂ : State, (first (source ++ '\n' :: after)).read = s₂.read ∧
      s₂.Fresh after (s₁.kinds ++ if s₁.atLineStart then [] else [.newline]) s₁.indents := by
  have ends : EndsLine ('\n' :: after) := fun c head => (Option.some.inj head).symm
  have alike : Alike [] ('\n' :: after) (first source) (first (source ++ '\n' :: after)) :=
    ⟨rfl, rfl, rfl, rfl, rfl⟩
  obtain ⟨s₁', read, alike | crossed⟩ := alike.run ends kept (settled_first source) done
  · have rest := alike.rest
    rw [rest_of_run (Nat.le_refl _) done, List.nil_append] at rest
    have outside' : s₁'.brackets = [] := by
      have same := alike.brackets
      rw [outside] at same
      exact List.map_eq_nil_iff.mp same
    have start' : (s₁'.atLineStart && s₁'.brackets.isEmpty) = s₁.atLineStart := by
      rw [alike.lineStart, outside']
      exact Bool.and_true _
    have next {s₂ : State} (step : s₁'.step = .ok s₂) :
        (first (source ++ '\n' :: after)).read = s₂.read := by
      rw [read, read_step (by rw [rest]; simp), step]
      rfl
    have kinds := alike.kinds
    rw [List.nil_append] at kinds
    cases lineStart : s₁.atLineStart with
    | true =>
      have blank : blankLine? (s₁'.cursor.rest.drop (measure 0 0 s₁'.cursor.rest).2) = some 1 := by
        rw [rest]
        rfl
      refine ⟨_, next (step_blank (start'.trans lineStart) blank), alike.lineStart.trans lineStart, outside',
        ?_, kinds.trans (by simp), alike.indents⟩
      simp only [Cursor.rest_skip, rest]
      rfl
    | false =>
      have step : s₁'.step = .ok { (s₁'.passing 1).push s₁'.cursor .newline with atLineStart := true } := by
        rw [step_inline (start'.trans lineStart) rest, inline_of_scan (scan_newline after), take, outside']
        rfl
      refine ⟨_, next step, rfl, outside', ?_, ?_, alike.indents⟩
      · simp [push, State.passing, Cursor.skip, rest]
      · rw [← kinds]
        exact kinds_of_tokens rfl
  · have newline := (List.cons.inj crossed.newline).2
    refine ⟨s₁', read, crossed.lineStart.2, crossed.outside, newline.symm, ?_, crossed.indents⟩
    rw [crossed.kinds, crossed.lineStart.1]
    simp

/-! ### The second text -/

theorem kinds_turn (turn : s.Turn s') : s.kinds <+: s'.kinds := by
  cases turn with
  | line | blank | joined => exact List.prefix_refl _
  | indent | newline => exact ⟨_, (kinds_of_tokens rfl).symm⟩
  | dedent => exact ⟨_, (kinds_of_replicate rfl).symm⟩
  | token here scanned kept => exact ⟨_, (kinds_of_tokens (s := s) (accept_ok kept).2.2.2).symm⟩

/-- The tokens read so far are the first of all. -/
theorem kinds_run (h : s.run fuel = .ok s') : s.kinds <+: s'.kinds :=
  keeps_of_run (I := fun next => s.kinds <+: next.kinds)
    (fun before turn => before.trans (kinds_turn turn)) (List.prefix_refl _) h

/-- A line at the margin closes all blocks. -/
theorem closeWider_margin (s : State) (start : Cursor) (levels : List Nat)
    (positive : ∀ width ∈ levels, 0 < width) :
    s.closeWider start 0 levels = { s with
      tokens := List.replicate levels.length ⟨.dedent, start.spanTo s.cursor⟩ ++ s.tokens
      indents := [] } := by
  induction levels generalizing s with
  | nil => rfl
  | cons level outer ih =>
    rw [closeWider, if_pos (positive level List.mem_cons_self), ih _ fun w mem => positive w (.tail _ mem),
      List.length_cons, List.replicate_succ']
    simp [push]

/-- The lexer in a line at the margin, with all blocks closed. -/
def atMargin (s : State) : State :=
  { s.within with
    tokens := List.replicate s.indents.length ⟨.dedent, s.cursor.spanTo s.within.cursor⟩ ++ s.tokens
    indents := [] }

theorem indentTo_margin (positive : ∀ width ∈ s.indents, 0 < width) :
    s.within.indentTo s.cursor 0 = .ok s.atMargin := by
  unfold indentTo
  dsimp only
  rw [if_neg (Nat.not_lt_zero _), closeWider_margin s.within s.cursor s.within.indents positive]
  split
  · rfl
  · rename_i none
    have empty : s.indents = [] := by
      cases levels : s.indents with
      | nil => rfl
      | cons level outer =>
        simp only [within, levels] at none
        rw [levels] at positive
        exact absurd (positive level List.mem_cons_self) none
    rw [atMargin, empty]
    simp only [within, empty]
    rfl

theorem kinds_atMargin (s : State) :
    s.atMargin.kinds = s.kinds ++ List.replicate s.indents.length .dedent :=
  kinds_of_replicate rfl

/-- A line that is not at the margin opens a block. -/
theorem Fresh.indented {s₁ : State} (h : s.Fresh left [] []) (wide : 0 < (measure 0 0 left).1)
    (blank : blankLine? (left.drop (measure 0 0 left).2) = none) (done : s.step = .ok s₁) :
    s₁.kinds.head? = some .indent := by
  have opened : State.indentTo s.within s.cursor (measure 0 0 s.cursor.rest).1 =
      .ok { s.within.push s.cursor .indent with indents := [(measure 0 0 s.cursor.rest).1] } := by
    have here : s.within.indents = [] := h.indents
    rw [State.indentTo, here, h.rest]
    exact if_pos wide
  rw [← h.rest] at blank
  match here : s.cursor.rest.drop (measure 0 0 s.cursor.rest).2 with
  | [] => rw [here] at blank; cases blank
  | c :: tail =>
    rw [step_indented h.begins blank here] at done
    change (State.indentTo s.within _ _ >>= _) = _ at done
    rw [opened] at done
    have rest : ({ s.within.push s.cursor .indent with
        indents := [(measure 0 0 s.cursor.rest).1] } : State).cursor.rest = c :: tail := by
      simp only [push, State.within, Cursor.rest_skip, here]
    obtain ⟨later, whole⟩ := kinds_turn (turn_of_inline rfl rest done)
    have first : ({ s.within.push s.cursor .indent with
        indents := [(measure 0 0 s.cursor.rest).1] } : State).kinds = [.indent] := by
      have pushed := kinds_push s.within s.cursor .indent
      rw [show s.within.kinds = [] from h.kinds] at pushed
      exact pushed
    rw [← whole, first]
    rfl

/-- Where the first line that is not blank starts at the margin, the lexer closes the open blocks and
then reads the text as it does alone. -/
theorem Fresh.read {u v : State} (kept : Text.dedent source = source) (settled : s.Settled source)
    (alone : s.Fresh left [] []) (h : u.Fresh left ks levels) (positive : ∀ width ∈ levels, 0 < width)
    (done : s.run fuel = .ok v) (some : v.kinds ≠ []) (flush : v.kinds.head? ≠ Option.some .indent) :
    ∃ v' : State, u.read = v'.read ∧
      Alike (ks ++ List.replicate levels.length .dedent) [] v v' := by
  induction fuel generalizing s u left with
  | zero =>
    cases done
    exact absurd alone.kinds some
  | succ fuel ih =>
    by_cases none : s.cursor.rest = []
    · rw [run_done none] at done
      cases done
      exact absurd alone.kinds some
    have same : u.cursor.rest = s.cursor.rest := h.rest.trans alone.rest.symm
    rw [run_step none] at done
    cases next : s.step with
    | error e => rw [next] at done; cases done
    | ok s₁ =>
      rw [next] at done
      change s₁.run fuel = .ok v at done
      have settled₁ := keeps_of_step Settled.turn none settled next
      have goOn {u₁ : State} (step : u.step = .ok u₁) : u.read = u₁.read := by
        rw [read_step (by rwa [same]), step]
        rfl
      cases blank : blankLine? (s.cursor.rest.drop (measure 0 0 s.cursor.rest).2) with
      | some n =>
        rw [step_blank alone.begins blank] at next
        cases next
        rw [← same] at blank
        rw [goOn (step_blank h.begins blank)]
        refine ih settled₁ ⟨alone.lineStart, alone.outside, rfl, alone.kinds, alone.indents⟩
          ⟨h.lineStart, h.outside, ?_, h.kinds, h.indents⟩ done
        simp only [Cursor.rest_skip, same]
      | none =>
        by_cases wide : 0 < (measure 0 0 left).1
        · -- The text would start with a block.
          rw [alone.rest] at blank
          have opens := alone.indented wide blank next
          obtain ⟨later, whole⟩ := kinds_run done
          cases kinds : s₁.kinds with
          | nil => rw [kinds] at opens; cases opens
          | cons t ts =>
            rw [kinds] at opens whole
            rw [← whole] at flush
            exact absurd opens flush
        · have margin : (measure 0 0 s.cursor.rest).1 = 0 := by
            rw [alone.rest]
            omega
          cases here : s.cursor.rest.drop (measure 0 0 s.cursor.rest).2 with
          | nil => rw [here] at blank; cases blank
          | cons c tail =>
            rw [step_indented alone.begins blank here, margin] at next
            change (s.within.indentTo s.cursor 0 >>= _) = _ at next
            rw [indentTo_margin (by simp [alone.indents])] at next
            rw [← same] at blank here margin
            have step := step_indented h.begins blank here
            rw [margin] at step
            change _ = (u.within.indentTo u.cursor 0 >>= _) at step
            rw [indentTo_margin (by simpa [h.indents] using positive)] at step
            have alike : Alike (ks ++ List.replicate levels.length .dedent) [] s.atMargin u.atMargin := by
              refine ⟨?_, ?_, rfl, ?_, rfl⟩
              · simp only [atMargin, State.within, Cursor.rest_skip, same, List.append_nil]
              · rw [kinds_atMargin, kinds_atMargin, h.kinds, h.indents, alone.kinds, alone.indents]
                simp
              · simp only [atMargin, State.within, h.outside, alone.outside]
            have rest : s.atMargin.cursor.rest = c :: tail := by
              simp only [atMargin, State.within, Cursor.rest_skip, ← same, here]
            have ends : EndsLine [] := by simp [EndsLine]
            obtain ⟨u₁, first, alike₁⟩ := alike.inline ends rest next
            rw [List.append_nil] at first
            obtain ⟨v', read, alike' | crossed⟩ := alike₁.run ends kept settled₁ done
            · exact ⟨v', (goOn (step.trans first)).trans read, alike'⟩
            · cases crossed.newline

end State

/-! ### Whole texts -/

/-- The newline that closes the last line. -/
def lineEnd (ts : List Token) : List Token := if ts.getLast?.any (!State.endsLine ·) then [.newline] else []

theorem State.lineEnd_kinds (s : State) :
    lineEnd s.kinds = if s.tokens.head?.any (!endsLine ·.token) then [.newline] else [] := by
  have last : s.kinds.getLast? = s.tokens.head?.map (·.token) := by
    rw [kinds, List.map_reverse, List.getLast?_reverse, List.head?_map]
  rw [lineEnd, last, Option.any_map]

theorem State.ended_kinds (s : State) : s.ended.map (·.token) = s.kinds ++ lineEnd s.kinds := by
  rw [lineEnd_kinds, ended, List.map_append, kinds]
  split <;> rfl

variable {flags : Flags} {source : List Char}

/-- The tokens of a text that is read to its end outside of brackets, with all blocks closed. -/
theorem tokenize_of_read {s : State} (closes : flags.keepsBlocksOpen = false)
    (read : (State.first source).read = .ok s) (outside : s.brackets = []) :
    ∃ tokens, tokenize flags source = .ok tokens ∧
      tokens.map (·.token) = s.kinds ++ lineEnd s.kinds ++ List.replicate s.indents.length .dedent := by
  refine ⟨_, by rw [tokenize_eq, read]; exact State.finish_eq flags outside, ?_⟩
  rw [List.map_append, List.map_replicate, State.ended_kinds]
  simp [State.closing, closes]

theorem kinds_of_tokenize (closes : flags.keepsBlocksOpen = false)
    (h : tokenize flags source = .ok tokens) :
    ∃ s, (State.first source).read = .ok s ∧ s.brackets = [] ∧
      tokens.map (·.token) = s.kinds ++ lineEnd s.kinds ++ List.replicate s.indents.length .dedent := by
  obtain ⟨s, read, outside, -⟩ := tokenize_ok h
  obtain ⟨tokens', same, kinds⟩ := tokenize_of_read closes read outside
  rw [h] at same
  cases same
  exact ⟨s, read, outside, kinds⟩

/-- Nothing, or tokens of which the last is one of the layout. -/
def Closed (ts : List Token) : Prop := ∀ t ∈ ts.getLast?, isLayout t = true

theorem closed_lineEnd (ts : List Token) : Closed (ts ++ lineEnd ts) := by
  unfold lineEnd
  split
  · intro t last
    rw [List.getLast?_concat] at last
    cases last
    rfl
  · rename_i ended
    intro t last
    rw [List.append_nil] at last
    rw [Option.mem_def.mp last] at ended
    cases t <;> simp_all [State.endsLine, isLayout]

theorem Closed.dedents (h : Closed ts) (n : Nat) : Closed (ts ++ List.replicate n .dedent) := by
  cases n with
  | zero => simpa using h
  | succ n =>
    intro t last
    rw [List.replicate_succ', ← List.append_assoc, List.getLast?_concat] at last
    cases last
    rfl

theorem closed_of_tokenize (closes : flags.keepsBlocksOpen = false)
    (h : tokenize flags source = .ok tokens) : Closed (tokens.map (·.token)) := by
  obtain ⟨s, -, -, kinds⟩ := kinds_of_tokenize closes h
  rw [kinds]
  exact (closed_lineEnd _).dedents _

/-- Tokens one after the other. A line that is begun and has no tokens has a newline for itself. -/
def Joins (ts₁ ts₂ ts : List Token) : Prop :=
  ts = ts₁ ++ ts₂ ∨ ∃ lines n, Closed lines ∧ ts₁ = lines ++ List.replicate n .dedent ∧
    ts = lines ++ .newline :: List.replicate n .dedent ++ ts₂

/-- Two texts have tokens together if they have tokens one by one and the second starts at the margin. -/
theorem tokenize_joined {s₁ s₂ : List Char} (closes : flags.keepsBlocksOpen = false)
    (kept₁ : Text.dedent s₁ = s₁) (kept₂ : Text.dedent s₂ = s₂) (h₁ : tokenize flags s₁ = .ok tokens₁)
    (h₂ : tokenize flags s₂ = .ok tokens₂) (some : ∃ t ∈ tokens₂.map (·.token), isLayout t = false)
    (flush : (tokens₂.map (·.token)).head? ≠ Option.some .indent) :
    ∃ tokens, tokenize flags (s₁ ++ '\n' :: s₂) = .ok tokens ∧
      Joins (tokens₁.map (·.token)) (tokens₂.map (·.token)) (tokens.map (·.token)) := by
  obtain ⟨u, read₁, outside₁, kinds₁⟩ := kinds_of_tokenize closes h₁
  obtain ⟨v, read₂, outside₂, kinds₂⟩ := kinds_of_tokenize closes h₂
  have settled : u.Settled s₁ := State.keeps_of_run State.Settled.turn (State.settled_first s₁) read₁
  obtain ⟨w, seam, fresh⟩ := State.read_seam kept₁ s₂ read₁ outside₁
  -- The second text has tokens before its end is reached.
  have begun : v.kinds ≠ [] := by
    intro none
    obtain ⟨t, mem, inLine⟩ := some
    rw [kinds₂, none] at mem
    rw [(List.mem_replicate.mp mem).2] at inLine
    cases inLine
  have flush' : v.kinds.head? ≠ Option.some .indent := by
    intro indent
    apply flush
    rw [kinds₂]
    cases kinds : v.kinds with
    | nil => exact absurd kinds begun
    | cons t ts =>
      rw [kinds] at indent
      exact indent
  obtain ⟨v', read, alike⟩ := State.Fresh.read kept₂ (State.settled_first s₂)
    ⟨rfl, rfl, rfl, rfl, rfl⟩ fresh settled.levels read₂ begun flush'
  have done : v'.cursor.rest = [] := by
    rw [alike.rest, State.rest_of_run (Nat.le_refl _) read₂]
    rfl
  have outside : v'.brackets = [] := by
    have same := alike.brackets
    rw [outside₂] at same
    exact List.map_eq_nil_iff.mp same
  obtain ⟨tokens, found, kinds⟩ := tokenize_of_read closes
    ((seam.trans read).trans (State.read_done done)) outside
  refine ⟨tokens, found, ?_⟩
  have last : lineEnd v'.kinds = lineEnd v.kinds := by
    rw [alike.kinds, lineEnd, lineEnd, List.getLast?_append_of_ne_nil _ begun]
  rw [kinds, last, alike.kinds, alike.indents, kinds₁, kinds₂]
  cases lineStart : u.atLineStart with
  | true =>
    have ended : lineEnd u.kinds = [] := by rw [State.lineEnd_kinds, settled.ended lineStart]; rfl
    left
    rw [ended]
    simp
  | false =>
    by_cases ended : lineEnd u.kinds = []
    · have closed := closed_lineEnd u.kinds
      rw [ended] at closed ⊢
      rw [List.append_nil] at closed
      exact .inr ⟨u.kinds, u.indents.length, closed, by simp, by simp⟩
    · have newline : lineEnd u.kinds = [.newline] := by
        unfold lineEnd at ended ⊢
        split
        · rfl
        · rename_i none
          rw [if_neg none] at ended
          exact absurd rfl ended
      left
      rw [newline]
      simp

end Scratchpad.Token
