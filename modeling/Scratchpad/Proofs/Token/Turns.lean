import Scratchpad.Proofs.Token.Read

/-!
# What a step of the lexer can do

A run is a chain of turns: a blank line is passed, the open blocks are compared with the blanks at
the front of a line, or one lexeme is read. What every turn keeps, every run keeps (`keeps_of_run`),
and the end adds what `finish_eq` says.
-/

namespace Scratchpad.Token

/-! ### Lexemes -/

theorem endNumber_ok {text : List Char} (h : endNumber text size rest value = .ok (t, n)) :
    value = some t := by
  unfold endNumber at h
  dsimp only at h
  split at h
  · cases h
  · split at h
    · cases h
      rfl
    · cases h

theorem scanBased_ok (h : scanBased base mark s = .ok (t, n)) : ∃ i, t = .int i := by
  unfold scanBased at h
  dsimp only at h
  split at h
  · cases h
  · exact ⟨_, (Option.some.inj (endNumber_ok h)).symm⟩

theorem scanDecimal_ok (h : scanDecimal s = .ok (t, n)) : (∃ i, t = .int i) ∨ ∃ d, t = .float d := by
  unfold scanDecimal at h
  dsimp only at h
  have value := endNumber_ok h
  split at value
  · obtain ⟨i, -, rfl⟩ := Option.map_eq_some_iff.mp value
    exact .inl ⟨i, rfl⟩
  · cases value
    exact .inr ⟨_, rfl⟩

theorem scanNumber_ok (h : scanNumber s = .ok (t, n)) : (∃ i, t = .int i) ∨ ∃ d, t = .float d := by
  unfold scanNumber at h
  split at h
  · split at h
    · exact .inl (scanBased_ok h)
    · exact scanDecimal_ok h
  · exact scanDecimal_ok h

theorem map_ok {x : Scanned α} {f : α × Nat → β × Nat} (h : x.map f = .ok r) :
    ∃ a, x = .ok a ∧ f a = r := by
  cases x with
  | error e => cases h
  | ok a =>
    cases h
    exact ⟨a, rfl, rfl⟩

theorem scanText_ok (h : scanText raw size s = .ok (t, n)) : ∃ text, t = .text text := by
  unfold scanText at h
  split at h
  · cases h
  · obtain ⟨⟨chars, n'⟩, -, made⟩ := map_ok h
    cases made
    exact ⟨_, rfl⟩

/-- What a lexeme at the front of `c :: rest` can be, and the size of those that are no tokens. -/
inductive Scans (c : Char) (rest : List Char) : Lexeme → Nat → Prop where
  | blank (kind : isInlineBlank c = true) : Scans c rest .blank 1
  | joined (next : continuation? (c :: rest) = some n) : Scans c rest .blank n
  | comment (sign : c = '#') : Scans c rest .blank (commentLength (c :: rest))
  | newline (sign : c = '\n') : Scans c rest .newline 1
  | text (s : String) (n : Nat) : Scans c rest (.token (.text s)) n
  | int (i : Int64) (n : Nat) : Scans c rest (.token (.int i)) n
  | float (d : Double) (n : Nat) : Scans c rest (.token (.float d)) n
  | word (named : scanName (c :: rest) = (t, n)) : Scans c rest (.token t) n
  | symbol (b : Symbol) (n : Nat) : Scans c rest (.token (.symbol b)) n

theorem scans_of_scan (h : scan c rest = .ok (lexeme, n)) : Scans c rest lexeme n := by
  have token {x : Scanned Token} {f : Token × Nat → Lexeme × Nat} (made : x.map f = .ok (lexeme, n))
      (as : ∀ p, f p = (.token p.1, p.2)) : ∃ t, lexeme = .token t ∧ x = .ok (t, n) := by
    obtain ⟨⟨t, m⟩, found, same⟩ := map_ok made
    rw [as] at same
    cases same
    exact ⟨t, rfl, found⟩
  unfold scan at h
  dsimp only at h
  split at h
  · cases h
    exact .blank (by assumption)
  split at h
  · cases h
    exact .joined (by assumption)
  split at h
  · rename_i sign
    cases h
    exact .newline (by simpa using sign)
  split at h
  · rename_i sign
    cases h
    exact .comment (by simpa using sign)
  split at h
  · obtain ⟨t, rfl, scanned⟩ := token h fun _ => rfl
    obtain ⟨text, rfl⟩ := scanText_ok scanned
    exact .text text n
  split at h
  · obtain ⟨t, rfl, scanned⟩ := token h fun _ => rfl
    rcases scanNumber_ok scanned with ⟨i, rfl⟩ | ⟨d, rfl⟩
    · exact .int i n
    · exact .float d n
  split at h
  · obtain ⟨t, rfl, scanned⟩ := token h fun _ => rfl
    obtain ⟨text, rfl⟩ := scanText_ok scanned
    exact .text text n
  split at h
  · obtain ⟨t, rfl, scanned⟩ := token h fun _ => rfl
    exact .word (Except.ok.inj scanned)
  split at h
  · cases h
    exact .symbol _ _
  · cases h

theorem isLayout_scanName (s : List Char) : isLayout (scanName s).1 = false := by
  unfold scanName
  dsimp only
  split <;> rfl

theorem isLayout_of_scan (h : scan c rest = .ok (.token t, n)) : isLayout t = false := by
  cases scans_of_scan h with
  | word named =>
    have same : (scanName (c :: rest)).1 = t := by rw [named]
    exact same ▸ isLayout_scanName _
  | _ => rfl

/-- The blanks that are measured. -/
theorem measure_blanks (width size : Nat) (cs : List Char) :
    ∃ n, (measure width size cs).2 = size + n ∧ ∀ c ∈ cs.take n, c = ' ' ∨ c = '\t' ∨ c = '\x0c' := by
  induction cs generalizing width size with
  | nil => exact ⟨0, rfl, by simp⟩
  | cons c cs ih =>
    have more {width' : Nat} (kind : c = ' ' ∨ c = '\t' ∨ c = '\x0c') :
        ∃ n, (measure width' (size + 1) cs).2 = size + n ∧
          ∀ d ∈ (c :: cs).take n, d = ' ' ∨ d = '\t' ∨ d = '\x0c' := by
      obtain ⟨n, length, all⟩ := ih width' (size + 1)
      refine ⟨n + 1, by omega, fun d mem => ?_⟩
      rcases List.mem_cons.mp mem with rfl | old
      · exact kind
      · exact all d old
    unfold measure
    split
    · exact more (.inl ‹_›)
    · split
      · exact more (.inr (.inl ‹_›))
      · split
        · exact more (.inr (.inr ‹_›))
        · exact ⟨0, rfl, by simp⟩

theorem take_commentLength (s : List Char) : s.take (commentLength s) = s.takeWhile (· != '\n') := by
  unfold commentLength
  exact (List.prefix_iff_eq_take.mp (List.takeWhile_prefix _)).symm

theorem drop_commentLength (s : List Char) : s.drop (commentLength s) = s.dropWhile (· != '\n') := by
  have whole := List.takeWhile_append_dropWhile (p := (· != '\n')) (l := s)
  rw [← take_commentLength] at whole
  exact List.append_cancel_left ((List.take_append_drop _ s).trans whole.symm)

/-- A comment ends with its line. -/
theorem newline_after_comment {s : List Char} (h : s.drop (commentLength s) = c :: rest) : c = '\n' := by
  have stops := List.head?_dropWhile_not (· != '\n') s
  rw [← drop_commentLength, h] at stops
  simpa using stops

/-! ### Turns -/

namespace State

variable {s s' : State} {start : Cursor}

/-- The brackets open after a token. -/
theorem accept_brackets {t : Token} (h : s.accept start t = .ok s') :
    (isPlain t = true ∧ s'.brackets = s.brackets) ∨
      (∃ opener closer, t = .symbol opener ∧ opener.closer? = some closer ∧
        s'.brackets = (opener, start.spanTo s.cursor) :: s.brackets) ∨
      (∃ opener closer span, t = .symbol closer ∧ opener.closer? = some closer ∧
        s.brackets = (opener, span) :: s'.brackets) := by
  unfold accept at h
  split at h
  · rename_i b
    split at h
    · rename_i opens
      cases h
      obtain ⟨closer, pair⟩ := Option.isSome_iff_exists.mp opens
      exact .inr (.inl ⟨b, closer, rfl, pair, rfl⟩)
    · rename_i opens
      split at h
      · split at h
        · rename_i opener span outer top
          split at h
          · rename_i pair
            cases h
            exact .inr (.inr ⟨opener, b, span, rfl, pair, top⟩)
          · cases h
        · cases h
      · rename_i closes
        cases h
        refine .inl ⟨?_, rfl⟩
        have none : b.closer? = none := by simpa using opens
        simp [isPlain, none, closes]
  · rename_i other
    cases h
    refine .inl ⟨?_, rfl⟩
    cases t with
    | symbol b => exact absurd rfl (other b)
    | _ => rfl

/-- The lexer after the blanks at the front of a line. -/
def within (s : State) : State :=
  { s with cursor := s.cursor.skip (measure 0 0 s.cursor.rest).2, atLineStart := false }

/-- The tokens read so far, in their order and without their places. -/
def kinds (s : State) : List Token := s.tokens.reverse.map (·.token)

theorem kinds_of_tokens (h : s'.tokens = ⟨t, span⟩ :: s.tokens) : s'.kinds = s.kinds ++ [t] := by
  simp [kinds, h]

theorem kinds_of_replicate (h : s'.tokens = List.replicate n ⟨t, span⟩ ++ s.tokens) :
    s'.kinds = s.kinds ++ List.replicate n t := by
  simp [kinds, h]

/-- One turn of the lexer. -/
inductive Turn (s : State) : State → Prop where
  | line (outside : s.brackets = [])
      (blank : blankLine? (s.cursor.rest.drop (measure 0 0 s.cursor.rest).2) = some n)
      (lineStart : s.atLineStart = true) :
      Turn s { s with
        cursor := (s.cursor.skip (measure 0 0 s.cursor.rest).2).skip n
        afterBlank := s.afterBlank || n != 0 }
  | indent (outside : s.brackets = []) (width : Nat) (wider : s.indents.headD 0 < width)
      (lineStart : s.atLineStart = true) (measured : (measure 0 0 s.cursor.rest).1 = width)
      (full : blankLine? (s.cursor.rest.drop (measure 0 0 s.cursor.rest).2) = none) :
      Turn s { s.within.push s.cursor .indent with indents := width :: s.indents }
  | dedent (outside : s.brackets = []) (n : Nat) (le : n ≤ s.indents.length)
      (lineStart : s.atLineStart = true) :
      Turn s { s.within with
        tokens := List.replicate n ⟨.dedent, s.cursor.spanTo s.within.cursor⟩ ++ s.tokens
        indents := s.indents.drop n }
  | blank (here : s.cursor.rest = c :: rest) (scanned : scan c rest = .ok (.blank, n))
      (within : (s.atLineStart && s.brackets.isEmpty) = false) : Turn s (s.passing n)
  | joined (inside : s.brackets ≠ []) (here : s.cursor.rest = c :: rest)
      (scanned : scan c rest = .ok (.newline, n))
      (within : (s.atLineStart && s.brackets.isEmpty) = false) : Turn s (s.passing n)
  | newline (outside : s.brackets = []) (here : s.cursor.rest = c :: rest)
      (scanned : scan c rest = .ok (.newline, n))
      (within : (s.atLineStart && s.brackets.isEmpty) = false) :
      Turn s { (s.passing n).push s.cursor .newline with atLineStart := true }
  | token (here : s.cursor.rest = c :: rest) (scanned : scan c rest = .ok (.token t, n))
      (kept : (s.passing n).accept s.cursor t = .ok next)
      (within : (s.atLineStart && s.brackets.isEmpty) = false) : Turn s next

theorem closeWider_eq (s : State) (start : Cursor) (width : Nat) (levels : List Nat) :
    ∃ n ≤ levels.length, s.closeWider start width levels =
      { s with
        tokens := List.replicate n ⟨.dedent, start.spanTo s.cursor⟩ ++ s.tokens
        indents := levels.drop n } := by
  induction levels generalizing s with
  | nil => exact ⟨0, Nat.le_refl _, rfl⟩
  | cons level outer ih =>
    unfold closeWider
    split
    · obtain ⟨n, le, closed⟩ := ih (s.push start .dedent)
      refine ⟨n + 1, Nat.succ_le_succ le, ?_⟩
      rw [closed, List.replicate_succ']
      simp [push]
    · exact ⟨0, Nat.zero_le _, rfl⟩

/-- A line opens one block, or closes some. -/
theorem indentTo_ok (h : s.indentTo start width = .ok s') :
    (s.indents.headD 0 < width ∧
        s' = { s.push start .indent with indents := width :: s.indents }) ∨
      ∃ n ≤ s.indents.length, s' = { s with
        tokens := List.replicate n ⟨.dedent, start.spanTo s.cursor⟩ ++ s.tokens
        indents := s.indents.drop n } := by
  unfold indentTo at h
  dsimp only at h
  split at h
  · rename_i wider
    cases h
    exact .inl ⟨wider, rfl⟩
  · split at h
    · split at h
      · obtain ⟨n, le, closed⟩ := s.closeWider_eq start width s.indents
        cases h
        exact .inr ⟨n, le, closed⟩
      · cases h
    · cases h
      exact .inr ⟨0, Nat.zero_le _, rfl⟩

theorem turn_of_inline (within : (s.atLineStart && s.brackets.isEmpty) = false)
    (here : s.cursor.rest = c :: rest) (h : s.inline c rest = .ok s') : s.Turn s' := by
  cases scanned : scan c rest with
  | error e => simp [inline, scanned] at h
  | ok found =>
    obtain ⟨lexeme, n⟩ := found
    rw [inline_of_scan scanned] at h
    cases lexeme with
    | blank =>
      cases h
      exact .blank here scanned within
    | newline =>
      by_cases outside : s.brackets = []
      · simp only [take, outside, List.isEmpty_nil, if_true] at h
        cases h
        exact .newline outside here scanned within
      · simp only [take, List.isEmpty_iff, outside, if_false] at h
        cases h
        exact .joined outside here scanned within
    | token t => exact .token here scanned h within

/-- What every turn keeps, a step keeps. A step at the start of a line may take two turns. -/
theorem keeps_of_step {I : State → Prop} (turn : ∀ {s s' : State}, I s → s.Turn s' → I s')
    (more : s.cursor.rest ≠ []) (kept : I s) (h : s.step = .ok s') : I s' := by
  cases lineStart : s.atLineStart && s.brackets.isEmpty with
  | false =>
    obtain ⟨c, rest, here⟩ := List.exists_cons_of_ne_nil more
    exact turn kept (turn_of_inline lineStart here (step_inline lineStart here ▸ h))
  | true =>
    have outside : s.brackets = [] := List.isEmpty_iff.mp (Bool.and_eq_true_iff.mp lineStart).2
    have starts : s.atLineStart = true := (Bool.and_eq_true_iff.mp lineStart).1
    cases blank : blankLine? (s.cursor.rest.drop (measure 0 0 s.cursor.rest).2) with
    | some n =>
      rw [step_blank lineStart blank] at h
      cases h
      exact turn kept (.line outside blank starts)
    | none =>
      match here : s.cursor.rest.drop (measure 0 0 s.cursor.rest).2 with
      | [] => rw [here] at blank; cases blank
      | c :: rest =>
        rw [step_indented lineStart blank here] at h
        match indented : State.indentTo s.within s.cursor (measure 0 0 s.cursor.rest).1, h with
        | .ok s₁, h =>
          have ⟨kept₁, within₁⟩ : I s₁ ∧ (s₁.atLineStart && s₁.brackets.isEmpty) = false := by
            rcases indentTo_ok indented with ⟨wider, rfl⟩ | ⟨n, le, rfl⟩
            · exact ⟨turn kept (.indent outside _ wider starts rfl blank), rfl⟩
            · exact ⟨turn kept (.dedent outside n le starts), rfl⟩
          have at₁ : s₁.cursor.rest = c :: rest := by
            rw [indentTo_cursor indented, within, Cursor.rest_skip, here]
          exact turn kept₁ (turn_of_inline within₁ at₁ h)

/-- What every turn keeps, a run keeps. -/
theorem keeps_of_run {I : State → Prop} (turn : ∀ {s s' : State}, I s → s.Turn s' → I s')
    (kept : I s) (h : s.run fuel = .ok s') : I s' := by
  induction fuel generalizing s with
  | zero =>
    cases h
    exact kept
  | succ fuel ih =>
    by_cases done : s.cursor.rest = []
    · rw [run_done done] at h
      cases h
      exact kept
    · rw [run_step done] at h
      match next : s.step, h with
      | .ok s₁, h => exact ih (keeps_of_step turn done kept next) h

/-- A run with a step for each character reads the text to its end. -/
theorem rest_of_run (enough : s.cursor.rest.length ≤ fuel) (h : s.run fuel = .ok s') :
    s'.cursor.rest = [] := by
  induction fuel generalizing s with
  | zero =>
    cases h
    exact List.eq_nil_of_length_eq_zero (Nat.le_zero.mp enough)
  | succ fuel ih =>
    by_cases done : s.cursor.rest = []
    · rw [run_done done] at h
      cases h
      exact done
    · rw [run_step done] at h
      match next : s.step, h with
      | .ok s₁, h =>
        have less := step_shorter done next
        exact ih (by omega) h

/-! ### The end -/

/-- Does the token end a line? -/
def endsLine : Token → Bool
  | .newline | .dedent => true
  | _ => false

/-- The tokens, the last line closed. -/
def ended (s : State) : List Placed :=
  s.tokens.reverse ++
    if s.tokens.head?.any (!endsLine ·.token) then [⟨.newline, s.cursor.spanTo s.cursor⟩] else []

/-- How many blocks are closed at the end. -/
def closing (flags : Flags) (s : State) : Nat :=
  if !flags.keepsBlocksOpen || s.afterBlank then s.indents.length else 0

theorem tokens_closed (s : State) (levels : List Nat) :
    (levels.foldl (fun s _ => s.push s.cursor .dedent) s).tokens =
      List.replicate levels.length ⟨.dedent, s.cursor.spanTo s.cursor⟩ ++ s.tokens := by
  induction levels generalizing s with
  | nil => rfl
  | cons level outer ih =>
    rw [List.foldl_cons, ih, List.length_cons, List.replicate_succ']
    simp [push]

/-- With all brackets closed, the end adds a newline and the blocks to close. -/
theorem finish_eq (flags : Flags) (outside : s.brackets = []) :
    s.finish flags =
      .ok (s.ended ++ List.replicate (s.closing flags) ⟨.dedent, s.cursor.spanTo s.cursor⟩) := by
  have closed (s : State) :
      (if (!flags.keepsBlocksOpen || s.afterBlank) = true then
        s.indents.foldl (fun s _ => s.push s.cursor .dedent) s else s).tokens.reverse =
      s.tokens.reverse ++
        List.replicate (s.closing flags) ⟨.dedent, s.cursor.spanTo s.cursor⟩ := by
    unfold closing
    split
    · rw [tokens_closed, List.reverse_append, List.reverse_replicate]
    · simp
  unfold finish ended
  rw [outside]
  dsimp only
  rw [closed]
  cases latest : s.tokens.head? with
  | none => simp
  | some p =>
    obtain ⟨t, span⟩ := p
    cases t <;> simp [endsLine, push, closing]

theorem finish_open (flags : Flags) (inside : s.brackets = b :: outer) :
    s.finish flags = .error ⟨.unclosedBracket, b.2⟩ := by
  unfold finish
  rw [inside]

end State

/-- The lexer at the front of a text. -/
def State.first (source : List Char) : State := { cursor := { rest := source } }

theorem tokenize_eq (flags : Flags) (source : List Char) :
    tokenize flags source = (State.first source).read >>= State.finish flags := rfl

/-- A text with tokens is read to its end, where all brackets are closed. -/
theorem tokenize_ok (h : tokenize flags source = .ok tokens) :
    ∃ s, (State.first source).read = .ok s ∧ s.brackets = [] ∧
      tokens = s.ended ++ List.replicate (s.closing flags) ⟨.dedent, s.cursor.spanTo s.cursor⟩ := by
  rw [tokenize_eq] at h
  match read : (State.first source).read, h with
  | .ok s, h =>
    change s.finish flags = .ok tokens at h
    match inside : s.brackets with
    | [] =>
      rw [State.finish_eq flags inside] at h
      cases h
      exact ⟨s, rfl, inside, rfl⟩
    | b :: outer =>
      rw [State.finish_open flags inside] at h
      cases h

end Scratchpad.Token
