import Scratchpad.Proofs.Token.Joined
import Scratchpad.Quiet

/-!
# Tokens without layout

Layout apart, the tokens of a text are its lexemes one after the other: `Reads cs ts` says that scanning
`cs` to its end gives the tokens `ts`, and `reads_of_tokenize` that a text with tokens is read so. The last
of these tokens tells whether a text is quiet (`isQuiet_of_tokenize`).
-/

namespace Scratchpad.Token

/-- Scanned to its end, the text gives the tokens. -/
inductive Reads : List Char → List Token → Prop where
  | nil : Reads [] []
  | blank (scanned : scan c rest = .ok (.blank, n)) (later : Reads (rest.drop (n - 1)) ts) : Reads (c :: rest) ts
  | newline (scanned : scan c rest = .ok (.newline, n)) (later : Reads (rest.drop (n - 1)) ts) :
      Reads (c :: rest) ts
  | token (scanned : scan c rest = .ok (.token t, n)) (later : Reads (rest.drop (n - 1)) ts) :
      Reads (c :: rest) (t :: ts)

/-- The tokens that are no layout. -/
def significant (ts : List Token) : List Token := ts.filter (!isLayout ·)

theorem significant_append (ts ts' : List Token) :
    significant (ts ++ ts') = significant ts ++ significant ts' := List.filter_append ..

theorem significant_layout (h : ∀ t ∈ ts, isLayout t = true) : significant ts = [] := by
  simpa [significant] using h

/-! ### Quiet texts -/

theorem lastIsSemicolon_eq (tokens : List Placed) :
    Quiet.lastIsSemicolon tokens =
      decide ((significant (tokens.map (·.token))).getLast? = some (.symbol .semicolon)) := by
  have last : (significant (tokens.map (·.token))).getLast? =
      (tokens.reverse.find? fun t => !isLayout t.token).map (·.token) := by
    rw [significant, List.getLast?_filter, ← List.map_reverse, List.find?_map]
    rfl
  rw [Quiet.lastIsSemicolon, last]
  cases tokens.reverse.find? fun t => !isLayout t.token <;> simp

theorem isQuiet_of_tokenize (h : tokenize {} source = .ok tokens) :
    Quiet.isQuiet source =
      decide ((significant (tokens.map (·.token))).getLast? = some (.symbol .semicolon)) := by
  rw [Quiet.isQuiet, h]
  exact lastIsSemicolon_eq tokens

/-! ### Lexemes -/

theorem Reads.unique (h : Reads cs ts) (h' : Reads cs ts') : ts = ts' := by
  induction h generalizing ts' with
  | nil =>
    cases h'
    rfl
  | blank scanned _ ih =>
    cases h' with
    | blank scanned' later =>
      cases scanned.symm.trans scanned'
      exact ih later
    | newline scanned' => cases scanned.symm.trans scanned'
    | token scanned' => cases scanned.symm.trans scanned'
  | newline scanned _ ih =>
    cases h' with
    | blank scanned' => cases scanned.symm.trans scanned'
    | newline scanned' later =>
      cases scanned.symm.trans scanned'
      exact ih later
    | token scanned' => cases scanned.symm.trans scanned'
  | token scanned _ ih =>
    cases h' with
    | blank scanned' => cases scanned.symm.trans scanned'
    | newline scanned' => cases scanned.symm.trans scanned'
    | token scanned' later =>
      cases scanned.symm.trans scanned'
      rw [ih later]

theorem scan_inlineBlank (kind : isInlineBlank c = true) (rest : List Char) :
    scan c rest = .ok (.blank, 1) := by
  unfold scan
  simp [kind]

theorem reads_inlineBlank (kind : isInlineBlank c = true) (h : Reads rest ts) : Reads (c :: rest) ts :=
  .blank (scan_inlineBlank kind rest) h

/-- The blanks at the front of a line are read as blanks within a line. -/
theorem reads_measured (width size : Nat) (h : Reads (cs.drop ((measure width size cs).2 - size)) ts) :
    Reads cs ts := by
  induction cs generalizing width size with
  | nil => simpa using h
  | cons c cs ih =>
    have next (width' : Nat) (kind : isInlineBlank c = true)
        (h : Reads ((c :: cs).drop ((measure width' (size + 1) cs).2 - size)) ts) : Reads (c :: cs) ts := by
      obtain ⟨n, length, -⟩ := measure_blanks width' (size + 1) cs
      rw [length, show size + 1 + n - size = n + 1 by omega, List.drop_succ_cons] at h
      refine reads_inlineBlank kind (ih width' (size + 1) ?_)
      rwa [length, Nat.add_sub_cancel_left]
    rw [measure] at h
    split at h
    · rename_i space
      exact next _ (by rw [space]; rfl) h
    · split at h
      · rename_i tab
        exact next _ (by rw [tab]; rfl) h
      · split at h
        · rename_i feed
          exact next _ (by rw [feed]; rfl) h
        · simpa using h

/-- A blank line is read as blanks and a newline. -/
theorem reads_blankLine (blank : blankLine? cs = some n) (h : Reads (cs.drop n) ts) : Reads cs ts := by
  unfold blankLine? at blank
  split at blank
  · simpa using h
  · cases blank
    exact .newline (State.scan_newline _) h
  · cases blank
    exact reads_inlineBlank rfl (.newline (State.scan_newline _) h)
  · rename_i rest
    dsimp only at blank
    have length : commentLength ('#' :: rest) = commentLength rest + 1 := by simp [commentLength]
    refine .blank (scan_comment rest) ?_
    rw [length, Nat.add_sub_cancel]
    split at blank
    · rename_i last
      cases blank
      rwa [Nat.add_comm, List.drop_succ_cons] at h
    · rename_i later
      cases blank
      rw [show 2 + commentLength rest = commentLength rest + 1 + 1 by omega, List.drop_succ_cons,
        ← List.drop_drop] at h
      match left : rest.drop (commentLength rest) with
      | [] => simp [left] at later
      | d :: back =>
        obtain rfl := newline_after_comment left
        rw [left] at h
        exact .newline (State.scan_newline _) h
  · cases blank

namespace State

variable {s s' s'' : State}

/-- What is read from here is what is read from there, after the tokens between. -/
def Advances (s s' : State) : Prop :=
  ∃ new, significant s'.kinds = significant s.kinds ++ new ∧
    ∀ ts, Reads s'.cursor.rest ts → Reads s.cursor.rest (new ++ ts)

theorem Advances.trans (h : s.Advances s') (h' : s'.Advances s'') : s.Advances s'' := by
  obtain ⟨new, kinds, reads⟩ := h
  obtain ⟨new', kinds', reads'⟩ := h'
  refine ⟨new ++ new', by rw [kinds', kinds, List.append_assoc], fun ts later => ?_⟩
  rw [List.append_assoc]
  exact reads _ (reads' ts later)

/-- Layout is no token that is read. -/
theorem advances_layout (layout : List Token) (all : ∀ t ∈ layout, isLayout t = true)
    (kinds : s'.kinds = s.kinds ++ layout)
    (reads : ∀ ts, Reads s'.cursor.rest ts → Reads s.cursor.rest ts) : s.Advances s' :=
  ⟨[], by rw [kinds, significant_append, significant_layout all], reads⟩

theorem rest_passing_eq (here : s.cursor.rest = c :: rest) (n : Nat) :
    (s.passing n).cursor.rest = rest.drop (n - 1) := by
  simp [passing, here]

theorem advances_turn (turn : s.Turn s') : s.Advances s' := by
  have within (ts : List Token) (h : Reads s.within.cursor.rest ts) : Reads s.cursor.rest ts := by
    simp only [State.within, Cursor.rest_skip] at h
    exact reads_measured 0 0 h
  cases turn with
  | line outside blank =>
    refine advances_layout [] (by simp) (List.append_nil _).symm fun ts h => ?_
    simp only [Cursor.rest_skip] at h
    exact reads_measured 0 0 (reads_blankLine blank h)
  | indent => exact advances_layout [.indent] (by simp [isLayout]) (kinds_of_tokens rfl) within
  | dedent outside n =>
    refine advances_layout (List.replicate n .dedent) (fun t mem => ?_) (kinds_of_replicate rfl) within
    rw [(List.mem_replicate.mp mem).2]
    rfl
  | blank here scanned =>
    refine advances_layout [] (by simp) (List.append_nil _).symm fun ts h => ?_
    rw [rest_passing_eq here] at h
    rw [here]
    exact .blank scanned h
  | joined inside here scanned =>
    refine advances_layout [] (by simp) (List.append_nil _).symm fun ts h => ?_
    rw [rest_passing_eq here] at h
    rw [here]
    exact .newline scanned h
  | newline outside here scanned =>
    refine advances_layout [.newline] (by simp [isLayout]) (kinds_of_tokens rfl) fun ts h => ?_
    rw [here]
    exact .newline scanned (rest_passing_eq here _ ▸ h)
  | @token c rest t n _ here scanned kept =>
    obtain ⟨cursor, -, -, tokens⟩ := accept_ok kept
    refine ⟨[t], ?_, fun ts h => ?_⟩
    · rw [kinds_of_tokens (s := s) tokens, significant_append]
      simp [significant, isLayout_of_scan scanned]
    · rw [cursor, rest_passing_eq here] at h
      rw [here]
      exact .token scanned h

end State

/-- Layout apart, the tokens of a text are those that it is read as. -/
theorem reads_of_tokenize (h : tokenize flags source = .ok tokens) :
    Reads source (significant (tokens.map (·.token))) := by
  obtain ⟨s, read, outside, rfl⟩ := tokenize_ok h
  obtain ⟨new, kinds, reads⟩ := State.keeps_of_run (I := (State.first source).Advances)
    (fun before turn => before.trans (State.advances_turn turn)) ⟨[], by simp, fun _ => id⟩ read
  have all := reads [] (by rw [State.rest_of_run (Nat.le_refl _) read]; exact .nil)
  have ending : significant (lineEnd s.kinds) = [] := by
    unfold lineEnd
    split <;> rfl
  have closing : significant (List.replicate (s.closing flags) .dedent) = [] :=
    significant_layout fun t mem => by rw [(List.mem_replicate.mp mem).2]; rfl
  rw [List.map_append, List.map_replicate, State.ended_kinds, significant_append, significant_append, ending,
    closing, kinds]
  simpa [State.kinds, State.first, significant] using all

end Scratchpad.Token
