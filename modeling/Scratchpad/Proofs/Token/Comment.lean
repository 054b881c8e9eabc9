import Scratchpad.Proofs.Token.Significant

/-!
# A comment at the end

A comment after the last character of a text with tokens leaves the tokens as they are
(`comment_is_neutral`). The lexer reads the text as it does alone, with the comment still before it
(`Alike`). At the end it passes the comment too, by itself or together with a comment or the blanks that
the text ends in (`Swallowed`).
-/

namespace Scratchpad.Token

variable {comment : List Char}

theorem endsCode_comment (comment : List Char) : EndsCode ('#' :: comment) :=
  fun _ head => .inr (Option.some.inj head).symm

theorem takeWhile_inLine {s : List Char} (inLine : '\n' ∉ s) : s.takeWhile (· != '\n') = s := by
  refine List.takeWhile_eq_self_iff.mpr fun c mem => bne_iff_ne.mpr ?_
  rintro rfl
  exact inLine mem

theorem blankLine?_alone (inLine : '\n' ∉ comment) :
    blankLine? ('#' :: comment) = some ('#' :: comment).length := by
  simp [blankLine?, commentLength, takeWhile_inLine inLine, Nat.add_comm]

/-- A comment is made longer by another one only where the text ends. -/
theorem commentLength_comment (inLine : '\n' ∉ comment) (s : List Char) :
    (commentLength s < s.length ∧ commentLength (s ++ '#' :: comment) = commentLength s) ∨
      (commentLength s = s.length ∧ commentLength (s ++ '#' :: comment) = (s ++ '#' :: comment).length) := by
  have le := commentLength_le s
  have whole : ('#' :: comment).takeWhile (· != '\n') = '#' :: comment := takeWhile_inLine (by simpa using inLine)
  have long : (s ++ '#' :: comment).takeWhile (· != '\n') = _ := List.takeWhile_append
  rw [whole] at long
  unfold commentLength at le ⊢
  rw [long]
  split
  · rename_i all
    exact .inr ⟨all, rfl⟩
  · rename_i stops
    exact .inl ⟨by omega, rfl⟩

/-- A blank line stays one. It is passed as before, or with the comment where the text ends. -/
theorem blankLine?_comment (inLine : '\n' ∉ comment) (h : blankLine? s = some n) :
    (n ≤ s.length ∧ blankLine? (s ++ '#' :: comment) = some n) ∨
      (s.length ≤ n ∧ blankLine? (s ++ '#' :: comment) = some (s ++ '#' :: comment).length) := by
  unfold blankLine? at h
  split at h
  · exact .inr ⟨Nat.zero_le _, blankLine?_alone inLine⟩
  · cases h
    exact .inl ⟨by simp, rfl⟩
  · cases h
    exact .inl ⟨by simp, rfl⟩
  · rename_i rest
    dsimp only at h
    rw [List.cons_append, blankLine?]
    rcases commentLength_comment inLine rest with ⟨less, same⟩ | ⟨all, longer⟩
    · rw [if_neg (by simpa using less)] at h
      cases h
      rw [same, if_neg (by simp; omega)]
      exact .inl ⟨by simp only [List.length_cons]; omega, rfl⟩
    · rw [if_pos (by simp [all])] at h
      cases h
      rw [longer, if_pos (by simp)]
      exact .inr ⟨by simp only [List.length_cons]; omega, by simp [Nat.add_comm]⟩
  · cases h

theorem blankLine?_none_comment (h : blankLine? s = none) : blankLine? (s ++ '#' :: comment) = none := by
  by_cases carriage : s = ['\r']
  · subst carriage
    rfl
  · exact blankLine?_none_longer h carriage

namespace State

variable {s s' s₁ : State} {front : List Token}

/-- The text and the comment after it are both read to the end. -/
structure Swallowed (s s' : State) : Prop where
  done : s.cursor.rest = []
  alike : Alike [] [] s s'

theorem Alike.inline_comment (inLine : '\n' ∉ comment) (h : Alike [] ('#' :: comment) s s')
    (here : s.cursor.rest = c :: tail) (done : s.inline c tail = .ok s₁) :
    ∃ s₁', s'.inline c (tail ++ '#' :: comment) = .ok s₁' ∧
      (Alike [] ('#' :: comment) s₁ s₁' ∨ s₁.Swallowed s₁') := by
  obtain ⟨lexeme, n, scanned, taken⟩ := inline_ok done
  by_cases code : c = '#'
  · subst code
    rw [scan_comment] at scanned
    cases scanned
    cases taken
    rw [inline_of_scan (scan_comment _)]
    refine ⟨_, rfl, ?_⟩
    rcases commentLength_comment inLine ('#' :: tail) with ⟨less, same⟩ | ⟨all, longer⟩
    · rw [← List.cons_append, same]
      exact .inl (h.passing here (Nat.le_of_lt less))
    · rw [← List.cons_append, longer, all]
      have rest : s'.cursor.rest = '#' :: (tail ++ '#' :: comment) := by rw [h.rest, here, List.cons_append]
      refine .inr ⟨by simp [State.passing, here], ?_, h.kinds, h.indents, h.brackets, h.lineStart⟩
      simp [State.passing, here, rest]
  · obtain ⟨le, longer⟩ := scan_code_longer (endsCode_comment comment) scanned code
    rw [inline_of_scan longer]
    obtain ⟨s₁', taken', alike⟩ := h.take here le taken
    exact ⟨s₁', taken', .inl alike⟩

theorem Alike.step_comment (inLine : '\n' ∉ comment) (h : Alike [] ('#' :: comment) s s')
    (left : s.cursor.rest ≠ []) (done : s.step = .ok s₁) :
    ∃ s₁', s'.step = .ok s₁' ∧ (Alike [] ('#' :: comment) s₁ s₁' ∨ s₁.Swallowed s₁') := by
  have inside : (s'.atLineStart && s'.brackets.isEmpty) = (s.atLineStart && s.brackets.isEmpty) := by
    rw [h.lineStart, h.outside]
  cases lineStart : s.atLineStart && s.brackets.isEmpty with
  | false =>
    obtain ⟨c, tail, here⟩ := List.exists_cons_of_ne_nil left
    rw [step_inline lineStart here] at done
    have here' : s'.cursor.rest = c :: (tail ++ '#' :: comment) := by rw [h.rest, here, List.cons_append]
    rw [step_inline (inside.trans lineStart) here']
    exact h.inline_comment inLine here done
  | true =>
    have dropped := h.dropped (endsCode_comment comment)
    cases blank : blankLine? (s.cursor.rest.drop (measure 0 0 s.cursor.rest).2) with
    | some n =>
      rw [step_blank lineStart blank] at done
      cases done
      rcases blankLine?_comment inLine blank with ⟨le, longer⟩ | ⟨all, longer⟩
      · rw [← dropped] at longer
        refine ⟨_, step_blank (inside.trans lineStart) longer, .inl ⟨?_, h.kinds, h.indents, h.brackets, h.lineStart⟩⟩
        simp only [Cursor.rest_skip, dropped]
        exact List.drop_append_of_le_length le
      · rw [← dropped] at longer
        refine ⟨_, step_blank (inside.trans lineStart) longer, .inr ⟨?_, ?_, h.kinds, h.indents, h.brackets, h.lineStart⟩⟩
        · simp only [Cursor.rest_skip]
          exact List.drop_eq_nil_of_le all
        · simp only [Cursor.rest_skip]
          rw [List.drop_length, List.drop_eq_nil_of_le all]
          rfl
    | none =>
      obtain ⟨c, tail, s₂, s₂', alike, at₂, rest, step⟩ :=
        h.indented (endsCode_comment comment) lineStart blank (blankLine?_none_comment blank) done
      rw [step]
      exact alike.inline_comment inLine at₂ rest

/-- A text is read with a comment after it as it is alone. -/
theorem Alike.run_comment (inLine : '\n' ∉ comment) (h : Alike [] ('#' :: comment) s s')
    (done : s.run fuel = .ok s₁) :
    ∃ s₁', s'.read = s₁'.read ∧ (Alike [] ('#' :: comment) s₁ s₁' ∨ s₁.Swallowed s₁') := by
  induction fuel generalizing s s' with
  | zero =>
    cases done
    exact ⟨s', rfl, .inl h⟩
  | succ fuel ih =>
    by_cases none : s.cursor.rest = []
    · rw [run_done none] at done
      cases done
      exact ⟨s', rfl, .inl h⟩
    · rw [run_step none] at done
      match next : s.step, done with
      | .ok s₂, done =>
        obtain ⟨s₂', next', kept⟩ := h.step_comment inLine none next
        have first : s'.read = s₂'.read := by
          rw [read_step (by rw [h.rest]; simp), next']
          rfl
        rcases kept with alike | swallowed
        · obtain ⟨s₁', rest, result⟩ := ih alike done
          exact ⟨s₁', first.trans rest, result⟩
        · change s₂.run fuel = .ok s₁ at done
          rw [run_done swallowed.done] at done
          cases done
          exact ⟨s₂', first, .inr swallowed⟩

/-- A comment alone is passed in one step. -/
theorem Alike.swallow (inLine : '\n' ∉ comment) (h : Alike [] ('#' :: comment) s s')
    (done : s.cursor.rest = []) : ∃ s₁', s'.step = .ok s₁' ∧ s.Swallowed s₁' := by
  have rest : s'.cursor.rest = '#' :: comment := by rw [h.rest, done, List.nil_append]
  have length : commentLength ('#' :: comment) = comment.length + 1 := by
    rw [commentLength, takeWhile_inLine (by simpa using inLine), List.length_cons]
  cases lineStart : s'.atLineStart && s'.brackets.isEmpty with
  | false =>
    refine ⟨_, (step_inline lineStart rest).trans (inline_of_scan (scan_comment comment)), done, ?_, h.kinds,
      h.indents, h.brackets, h.lineStart⟩
    simp [State.passing, rest, done, length]
  | true =>
    have blank : blankLine? (s'.cursor.rest.drop (measure 0 0 s'.cursor.rest).2) = some (comment.length + 1) := by
      rw [rest]
      exact blankLine?_alone inLine
    refine ⟨_, step_blank lineStart blank, done, ?_, h.kinds, h.indents, h.brackets, h.lineStart⟩
    simp only [Cursor.rest_skip, rest, done]
    simp [measure]

end State

/-- A comment at the end of a text with tokens leaves the tokens as they are, and leaves the text as
quiet as it is. -/
theorem comment_is_neutral (source comment : List Char) (tokens : List Placed) (inLine : '\n' ∉ comment)
    (h : tokenize {} source = .ok tokens) :
    (∃ tokens', tokenize {} (source ++ '#' :: comment) = .ok tokens' ∧
      tokens'.map (·.token) = tokens.map (·.token)) ∧
    Quiet.isQuiet (source ++ '#' :: comment) = Quiet.isQuiet source := by
  have closes : Flags.keepsBlocksOpen {} = false := rfl
  obtain ⟨s, read, outside, kinds⟩ := kinds_of_tokenize closes h
  have start : State.Alike [] ('#' :: comment) (State.first source) (State.first (source ++ '#' :: comment)) :=
    ⟨rfl, rfl, rfl, rfl, rfl⟩
  obtain ⟨s', read', swallowed⟩ : ∃ s', (State.first (source ++ '#' :: comment)).read = .ok s' ∧ s.Swallowed s' := by
    obtain ⟨s₁, read₁, alike | swallowed⟩ := start.run_comment inLine read
    · obtain ⟨s₂, step, swallowed⟩ := alike.swallow inLine (State.rest_of_run (Nat.le_refl _) read)
      have done : s₂.cursor.rest = [] := by rw [swallowed.alike.rest, swallowed.done]; rfl
      refine ⟨s₂, ?_, swallowed⟩
      rw [read₁, State.read_step (by rw [alike.rest]; simp), step]
      exact State.read_done done
    · have done : s₁.cursor.rest = [] := by rw [swallowed.alike.rest, swallowed.done]; rfl
      exact ⟨s₁, read₁.trans (State.read_done done), swallowed⟩
  have outside' : s'.brackets = [] := by
    have same := swallowed.alike.brackets
    rw [outside] at same
    exact List.map_eq_nil_iff.mp same
  obtain ⟨tokens', found, kinds'⟩ := tokenize_of_read closes read' outside'
  have same : tokens'.map (·.token) = tokens.map (·.token) := by
    rw [kinds', kinds, swallowed.alike.kinds, swallowed.alike.indents, List.nil_append]
  refine ⟨⟨tokens', found, same⟩, ?_⟩
  rw [isQuiet_of_tokenize found, isQuiet_of_tokenize h, same]

/-- A quiet block whose last line is carried on by a backslash. -/
def carried : List Char := "if x:\n\ts = '#';\\\n".toList

theorem comment_is_neutral_carried :
    ∃ tokens tokens', tokenize {} carried = .ok tokens ∧ tokenize {} (carried ++ '#' :: " is;".toList) = .ok tokens' ∧
      tokens'.map (·.token) = tokens.map (·.token) ∧ tokens.length = 11 ∧
      Quiet.isQuiet (carried ++ '#' :: " is;".toList) = true := by
  have size : (tokenize {} carried).toOption.map (·.length) = some 11 := by decide +kernel
  cases read : tokenize {} carried with
  | error e =>
    rw [read] at size
    cases size
  | ok tokens =>
    rw [read] at size
    obtain ⟨⟨tokens', read', same⟩, quiet⟩ := comment_is_neutral carried " is;".toList tokens (by decide) read
    refine ⟨tokens, tokens', rfl, read', same, Option.some.inj size, quiet.trans ?_⟩
    decide +kernel

end Scratchpad.Token
