import Scratchpad.Proofs.Token.Turns

/-!
# Spans tile the source

A token lies where its span says, and tokens other than indents and dedents follow one another
without overlap. A character that no such token covers is blank, joins two lines or is in a comment
(`Accounted`). The lexer always stands after a text that is tiled in this way (`Tiled`).
-/

namespace Scratchpad.Token

open String (utf8Len)

/-! ### Places -/

/-- The span of `piece` where it stands after `before`. -/
def placeOf (before piece : List Char) : Span where
  line := 1 + before.count '\n'
  col := 1 + (before.reverse.takeWhile (· != '\n')).length
  start := utf8Len before
  stop := utf8Len before + utf8Len piece

/-- The span is the place of a part of the source. -/
def Located (source : List Char) (span : Span) : Prop :=
  ∃ before piece after, source = before ++ piece ++ after ∧ span = placeOf before piece

/-- The cursor after `before`. -/
def Cursor.behind (before rest : List Char) : Cursor where
  rest := rest
  line := (placeOf before []).line
  col := (placeOf before []).col
  offset := utf8Len before

theorem Cursor.next_behind (before rest : List Char) (c : Char) :
    (behind before (c :: rest)).next = behind (before ++ [c]) rest := by
  unfold next behind placeOf
  dsimp only
  split
  · rename_i newline
    subst newline
    simp [Nat.add_assoc]
  · rename_i other
    have inside : (c != '\n') = true := by simpa using other
    have count : List.count '\n' [c] = 0 := by simp [other]
    simp [inside, count, Nat.add_assoc]

theorem Cursor.skip_behind (n : Nat) (before rest : List Char) :
    (behind before rest).skip n = behind (before ++ rest.take n) (rest.drop n) := by
  induction n generalizing before rest with
  | zero => simp [skip]
  | succ n ih =>
    cases rest with
    | nil =>
      have still : (behind before []).next = behind before [] := rfl
      rw [skip, still, ih]
      simp
    | cons c rest =>
      rw [skip, next_behind, ih]
      simp

theorem Cursor.spanTo_behind (before piece rest rest' : List Char) :
    (behind before rest).spanTo (behind (before ++ piece) rest') = placeOf before piece := by
  simp [spanTo, behind, placeOf]

/-! ### Tiles -/

/-- Characters that only separate tokens. -/
def isBlank (c : Char) : Bool := isInlineBlank c || c == '\n'

/-- Does the text start with the end of a line? -/
def startsWithEnd : List Char → Bool
  | '\n' :: _ => true
  | '\r' :: '\n' :: _ => true
  | _ => false

/-- The text up to some place is made up of the tokens before that place and of what stands between
them: blanks, backslashes that join lines, and comments that end with their line. -/
inductive Tiles : List Char → List Placed → List Char → Prop where
  | start (source : List Char) : Tiles [] [] source
  | blank (h : Tiles before ts (c :: after)) (kind : isBlank c = true) :
      Tiles (before ++ [c]) ts after
  | joined (h : Tiles before ts ('\\' :: after)) (ends : startsWithEnd after = true) :
      Tiles (before ++ ['\\']) ts after
  | comment (h : Tiles before ts ('#' :: piece ++ after)) (line : '\n' ∉ piece)
      (ends : ∀ c ∈ after.head?, c = '\n') : Tiles (before ++ '#' :: piece) ts after
  | token (h : Tiles before ts (piece ++ after)) (some : piece ≠ []) (t : Token) :
      Tiles (before ++ piece) (ts ++ [⟨t, placeOf before piece⟩]) after

theorem Tiles.blanks (h : Tiles before ts (piece ++ after)) (kind : ∀ c ∈ piece, isBlank c = true) :
    Tiles (before ++ piece) ts after := by
  induction piece generalizing before with
  | nil => simpa using h
  | cons c piece ih =>
    have first := h.blank (kind c List.mem_cons_self)
    have all := ih first fun c mem => kind c (.tail _ mem)
    rwa [List.append_assoc] at all

theorem utf8Len_pos (some : piece ≠ []) : 0 < utf8Len piece := by
  cases piece with
  | nil => contradiction
  | cons c piece =>
    have := c.utf8Size_pos
    rw [String.utf8Len_cons]
    omega

/-- Each token lies in what is read, and is not empty. -/
theorem Tiles.bounds (h : Tiles before ts after) :
    ∀ p ∈ ts, p.span.start < p.span.stop ∧ p.span.stop ≤ utf8Len before := by
  induction h with
  | start source => exact fun p mem => by cases mem
  | blank _ _ ih | joined _ _ ih | comment _ _ _ ih =>
    intro p mem
    have old := ih p mem
    rw [String.utf8Len_append]
    omega
  | @token before ts piece after h some t ih =>
    intro p mem
    rw [String.utf8Len_append]
    rcases List.mem_append.mp mem with old | new
    · have old := ih p old
      omega
    · have longer := utf8Len_pos some
      rw [List.mem_singleton.mp new]
      simp only [placeOf]
      omega

/-- One token ends before the other starts. -/
def Before (p q : Placed) : Prop := p.span.start < q.span.start ∧ p.span.stop ≤ q.span.start

theorem Tiles.inOrder (h : Tiles before ts after) : ts.Pairwise Before := by
  induction h with
  | start source => exact .nil
  | blank _ _ ih | joined _ _ ih | comment _ _ _ ih => exact ih
  | token h some t ih =>
    refine List.pairwise_append.mpr ⟨ih, List.pairwise_singleton _ _, fun p mem q new => ?_⟩
    have bounds := h.bounds p mem
    rw [List.mem_singleton.mp new]
    simp only [Before, placeOf]
    omega

/-- Why a character stands where it does: a token covers it, or it is blank, or a backslash before the
end of a line, or in a comment, which runs to the end of its line and has no token in it. -/
inductive Accounted (ts : List Placed) (before : List Char) (c : Char) (after : List Char) : Prop where
  | covered (p : Placed) (mem : p ∈ ts) (low : p.span.start ≤ utf8Len before)
      (high : utf8Len before < p.span.stop)
  | blank (kind : isBlank c = true)
  | joined (sign : c = '\\') (ends : startsWithEnd after = true)
  | comment (front piece back : List Char)
      (whole : before ++ c :: after = front ++ '#' :: piece ++ back) (line : '\n' ∉ piece)
      (ends : ∀ c ∈ back.head?, c = '\n') (low : utf8Len front ≤ utf8Len before)
      (high : utf8Len before < utf8Len (front ++ '#' :: piece))
      (apart : ∀ p ∈ ts, p.span.stop ≤ utf8Len front ∨ utf8Len (front ++ '#' :: piece) ≤ p.span.start)

theorem split_append {before piece front back : List Char} (h : before ++ piece = front ++ c :: back) :
    (∃ mid, before = front ++ c :: mid ∧ back = mid ++ piece) ∨
      ∃ mid, front = before ++ mid ∧ piece = mid ++ c :: back := by
  rcases List.append_eq_append_iff.mp h with ⟨mid, here, there⟩ | ⟨mid, here, there⟩
  · exact .inr ⟨mid, here, there⟩
  · cases mid with
    | nil => exact .inr ⟨[], by simpa using here.symm, there.symm⟩
    | cons d mid =>
      cases there
      exact .inl ⟨mid, here, rfl⟩

theorem split_concat {before front back : List Char} (h : before ++ [d] = front ++ c :: back) :
    (∃ mid, before = front ++ c :: mid ∧ back = mid ++ [d]) ∨ (c = d ∧ back = []) := by
  rcases split_append h with old | ⟨mid, -, one⟩
  · exact .inl old
  · cases mid with
    | nil =>
      cases one
      exact .inr ⟨rfl, rfl⟩
    | cons _ mid => simp at one

/-- Every character before the place is accounted for, whatever tokens come later. -/
theorem Tiles.accounted (h : Tiles before ts after) (later : ∀ p ∈ ts', utf8Len before ≤ p.span.start)
    (whole : before = front ++ c :: back) : Accounted (ts ++ ts') front c (back ++ after) := by
  -- A character of the last piece stands for itself, and later tokens start after that piece.
  have earlier {before piece : List Char} {q : Placed}
      (start : utf8Len (before ++ piece) ≤ q.span.start) : utf8Len before ≤ q.span.start := by
    rw [String.utf8Len_append] at start
    omega
  induction h generalizing ts' front c back with
  | start source => simp at whole
  | blank _ kind ih =>
    rcases split_concat whole with ⟨mid, old, rfl⟩ | ⟨rfl, -⟩
    · rw [List.append_assoc]
      exact ih (fun p mem => earlier (later p mem)) old
    · exact .blank kind
  | joined _ ends ih =>
    rcases split_concat whole with ⟨mid, old, rfl⟩ | ⟨sign, rfl⟩
    · rw [List.append_assoc]
      exact ih (fun p mem => earlier (later p mem)) old
    · exact .joined sign ends
  | @comment before ts piece after h line ends ih =>
    rcases split_append whole with ⟨mid, old, rfl⟩ | ⟨mid, rfl, here⟩
    · rw [List.append_assoc]
      exact ih (fun p mem => earlier (later p mem)) old
    · refine .comment before piece after ?_ line ends ?_ ?_ fun p mem => ?_
      · rw [whole]
        simp
      · simp
      · rw [whole, String.utf8Len_append _ (c :: back), String.utf8Len_cons]
        have := c.utf8Size_pos
        omega
      · rcases List.mem_append.mp mem with old | new
        · exact .inl (h.bounds p old).2
        · exact .inr (later p new)
  | @token before ts piece after h some t ih =>
    rw [List.append_assoc]
    rcases split_append whole with ⟨mid, old, rfl⟩ | ⟨mid, rfl, here⟩
    · rw [List.append_assoc]
      refine ih (fun p mem => ?_) old
      rcases List.mem_cons.mp mem with rfl | new
      · exact Nat.le_refl _
      · exact earlier (later p new)
    · refine .covered ⟨t, placeOf before piece⟩ (by simp) ?_ ?_
      · simp [placeOf]
      · have := c.utf8Size_pos
        simp only [placeOf, here, String.utf8Len_append, String.utf8Len_cons]
        omega

/-! ### Blanks, joined lines and comments -/

/-- The blanks at the front of a line are blank. -/
theorem Tiles.margin (h : Tiles before ts after) :
    Tiles (before ++ after.take (measure 0 0 after).2) ts (after.drop (measure 0 0 after).2) := by
  obtain ⟨n, length, all⟩ := measure_blanks 0 0 after
  rw [length, Nat.zero_add]
  refine Tiles.blanks (by rwa [List.take_append_drop]) fun c mem => ?_
  rcases all c mem with rfl | rfl | rfl <;> rfl

theorem Tiles.toLineEnd (h : Tiles before ts ('#' :: rest)) :
    Tiles (before ++ '#' :: rest.take (commentLength rest)) ts (rest.drop (commentLength rest)) := by
  refine Tiles.comment (by simpa using h) ?_ ?_
  · rw [take_commentLength]
    intro mem
    simpa using List.mem_takeWhile_imp mem
  · rw [drop_commentLength]
    intro c head
    have stops := List.head?_dropWhile_not (· != '\n') rest
    rw [Option.mem_def.mp head] at stops
    simpa using stops

theorem Tiles.line (h : Tiles before ts after) (blank : blankLine? after = some n) :
    Tiles (before ++ after.take n) ts (after.drop n) := by
  unfold blankLine? at blank
  split at blank
  · cases blank
    simpa using h
  · cases blank
    exact h.blank rfl
  · cases blank
    have first := h.blank (c := '\r') rfl
    have second := first.blank (c := '\n') rfl
    rwa [List.append_assoc] at second
  · rename_i rest
    have comment := h.toLineEnd
    dsimp only at blank
    split at blank
    · cases blank
      rw [Nat.add_comm]
      exact comment
    · rename_i more
      cases blank
      match left : rest.drop (commentLength rest) with
      | [] => simp [left] at more
      | d :: back =>
        rw [left] at comment
        have whole := comment.blank (by rw [newline_after_comment left]; rfl)
        have taken : ('#' :: rest).take (2 + commentLength rest) =
            '#' :: rest.take (commentLength rest) ++ [d] := by
          rw [show 2 + commentLength rest = commentLength rest + 1 + 1 by omega, List.take_succ_cons,
            List.take_add_one, ← List.head?_drop, left]
          rfl
        have dropped : ('#' :: rest).drop (2 + commentLength rest) = back := by
          rw [show 2 + commentLength rest = commentLength rest + 1 + 1 by omega, List.drop_succ_cons,
            ← List.drop_drop, left]
          rfl
        rw [taken, dropped, ← List.append_assoc]
        exact whole
  · cases blank

theorem Tiles.between (h : Tiles before ts (c :: rest)) (scanned : scan c rest = .ok (.blank, n)) :
    Tiles (before ++ (c :: rest).take (n - 1 + 1)) ts ((c :: rest).drop (n - 1 + 1)) := by
  cases scans_of_scan scanned with
  | blank kind => exact h.blank (by simp [isBlank, kind])
  | joined next =>
    unfold continuation? at next
    split at next
    · rename_i here
      cases here
      cases next
      have first := h.joined rfl
      have second := first.blank (c := '\n') rfl
      rwa [List.append_assoc] at second
    · rename_i here
      cases here
      cases next
      have first := h.joined rfl
      have second := first.blank (c := '\r') rfl
      have third := second.blank (c := '\n') rfl
      rw [List.append_assoc, List.append_assoc] at third
      exact third
    · cases next
  | comment sign =>
    subst sign
    have length : commentLength ('#' :: rest) = commentLength rest + 1 := by simp [commentLength]
    rw [length]
    exact h.toLineEnd

/-! ### What the lexer keeps -/

/-- Does the token open or close a block? -/
def isBlock : Token → Bool
  | .indent | .dedent => true
  | _ => false

/-- The tokens that take up characters: those that neither open nor close a block. -/
def solid (ts : List Placed) : List Placed := ts.filter (!isBlock ·.token)

theorem solid_append (ts ts' : List Placed) : solid (ts ++ ts') = solid ts ++ solid ts' :=
  List.filter_append ..

theorem solid_replicate (n : Nat) (span : Span) : solid (List.replicate n ⟨.dedent, span⟩) = [] := by
  rw [solid, List.filter_replicate]
  rfl

theorem isBlock_of_scan (h : scan c rest = .ok (.token t, n)) : isBlock t = false := by
  have inLine := isLayout_of_scan h
  cases t <;> first | rfl | cases inLine

namespace State

variable {s s' : State} {source : List Char}

/-- The lexer stands after a text that is tiled by the tokens read so far. -/
structure Tiled (source before : List Char) (s : State) : Prop where
  whole : source = before ++ s.cursor.rest
  cursor : s.cursor = Cursor.behind before s.cursor.rest
  tiles : Tiles before (solid s.tokens.reverse) s.cursor.rest
  located : ∀ p ∈ s.tokens, Located source p.span

theorem tiled_first (source : List Char) : (first source).Tiled source [] where
  whole := rfl
  cursor := rfl
  tiles := .start source
  located _ mem := by cases mem

/-- The lexer moves on by `n` characters. -/
theorem Tiled.skip (h : s.Tiled source before) (cursor : s'.cursor = s.cursor.skip n)
    (tiles : Tiles (before ++ s.cursor.rest.take n) (solid s'.tokens.reverse) (s.cursor.rest.drop n))
    (located : ∀ p ∈ s'.tokens, p ∉ s.tokens → p.span = s.cursor.spanTo s'.cursor) :
    s'.Tiled source (before ++ s.cursor.rest.take n) := by
  have rest : s'.cursor.rest = s.cursor.rest.drop n := by rw [cursor, Cursor.rest_skip]
  have behind : s'.cursor = .behind (before ++ s.cursor.rest.take n) (s.cursor.rest.drop n) := by
    rw [cursor, h.cursor]
    exact Cursor.skip_behind ..
  refine ⟨?_, rest ▸ behind, rest ▸ tiles, fun p mem => ?_⟩
  · rw [rest, List.append_assoc, List.take_append_drop]
    exact h.whole
  · by_cases old : p ∈ s.tokens
    · exact h.located p old
    · refine ⟨before, s.cursor.rest.take n, s.cursor.rest.drop n, ?_, ?_⟩
      · rw [List.append_assoc, List.take_append_drop]
        exact h.whole
      · rw [located p mem old, behind, h.cursor]
        exact Cursor.spanTo_behind ..

/-- A token that takes up the next `n` characters. -/
theorem Tiled.token (h : s.Tiled source before) (here : s.cursor.rest = c :: rest)
    (cursor : s'.cursor = s.cursor.skip (n + 1)) (kind : isBlock t = false)
    (tokens : s'.tokens = ⟨t, s.cursor.spanTo s'.cursor⟩ :: s.tokens) :
    s'.Tiled source (before ++ s.cursor.rest.take (n + 1)) := by
  have span : s.cursor.spanTo s'.cursor = placeOf before (s.cursor.rest.take (n + 1)) := by
    rw [cursor, h.cursor, Cursor.skip_behind]
    exact Cursor.spanTo_behind ..
  refine h.skip cursor ?_ fun p mem new => ?_
  · rw [tokens, span, List.reverse_cons, solid_append]
    have kept : solid [⟨t, placeOf before (s.cursor.rest.take (n + 1))⟩] =
        [⟨t, placeOf before (s.cursor.rest.take (n + 1))⟩] := by simp [solid, kind]
    rw [kept]
    refine Tiles.token ?_ (by simp [here]) t
    rw [List.take_append_drop]
    exact h.tiles
  · rw [tokens] at mem
    rcases List.mem_cons.mp mem with rfl | old
    · rfl
    · exact absurd old new

theorem Tiled.turn (h : ∃ before, s.Tiled source before) (turn : s.Turn s') :
    ∃ before, s'.Tiled source before := by
  obtain ⟨before, h⟩ := h
  have none {p : Placed} {q : Span} (old : p ∈ s.tokens) (new : p ∉ s.tokens) : p.span = q :=
    absurd old new
  cases turn with
  | line outside blank =>
    have margin : s.within.Tiled source _ := h.skip rfl h.tiles.margin fun p old new => none old new
    have line := margin.tiles.line (by rw [within, Cursor.rest_skip]; exact blank)
    exact ⟨_, margin.skip rfl line fun p old new => absurd old new⟩
  | indent outside width =>
    refine ⟨_, h.skip rfl ?_ fun p mem new => ?_⟩
    · have same : solid (s.within.push s.cursor .indent).tokens.reverse = solid s.tokens.reverse := by
        simp [push, within, solid, isBlock]
      exact same ▸ h.tiles.margin
    · rcases List.mem_cons.mp mem with rfl | old
      · rfl
      · exact none old new
  | dedent outside n le =>
    refine ⟨_, h.skip rfl ?_ fun p mem new => ?_⟩
    · rw [List.reverse_append, List.reverse_replicate, solid_append, solid_replicate, List.append_nil]
      exact h.tiles.margin
    · rcases List.mem_append.mp mem with dedent | old
      · rw [(List.mem_replicate.mp dedent).2]
      · exact none old new
  | @blank c rest n here scanned =>
    have tiles := h.tiles
    rw [here] at tiles
    have between := tiles.between scanned
    rw [← here] at between
    have passed : (s.passing n).Tiled source _ := h.skip rfl between fun p old new => none old new
    exact ⟨_, passed⟩
  | joined inside here scanned =>
    cases scans_of_scan scanned with
    | newline sign =>
      have tiles := h.tiles
      rw [here] at tiles
      have blank := tiles.blank (by rw [sign]; rfl)
      have passed : (s.passing 1).Tiled source (before ++ s.cursor.rest.take 1) :=
        h.skip rfl (by rw [here]; exact blank) fun p old new => none old new
      exact ⟨_, passed⟩
  | newline outside here scanned =>
    exact ⟨_, h.token here (t := .newline) rfl rfl rfl⟩
  | token here scanned kept =>
    obtain ⟨cursor, -, -, tokens⟩ := accept_ok kept
    rw [← cursor] at tokens
    exact ⟨_, h.token here cursor (isBlock_of_scan scanned) tokens⟩

/-- At the end of the text the newline and the dedents that are added are empty. -/
theorem Tiled.ended (h : s.Tiled source before) (done : s.cursor.rest = []) :
    before = source ∧ s.cursor.spanTo s.cursor = placeOf source [] := by
  have whole : before = source := by
    have := h.whole
    rw [done, List.append_nil] at this
    exact this.symm
  refine ⟨whole, ?_⟩
  rw [h.cursor, ← whole]
  simpa using Cursor.spanTo_behind before [] s.cursor.rest s.cursor.rest

end State

/-! ### Whole texts -/

theorem Located.bounds (h : Located source span) :
    span.start ≤ span.stop ∧ span.stop ≤ utf8Len source := by
  obtain ⟨before, piece, after, rfl, rfl⟩ := h
  simp only [placeOf, String.utf8Len_append]
  omega

/-- A text with tokens is tiled by them. What the end adds is an empty newline. -/
theorem tiles_of_tokenize (h : tokenize flags source = .ok tokens) :
    ∃ ts ends, Tiles source ts [] ∧ solid tokens = ts ++ ends ∧ ends.length ≤ 1 ∧
      (∀ p ∈ ends, p = ⟨.newline, placeOf source []⟩) ∧ ∀ p ∈ tokens, Located source p.span := by
  obtain ⟨s, read, -, rfl⟩ := tokenize_ok h
  have done : s.cursor.rest = [] := State.rest_of_run (Nat.le_refl _) read
  obtain ⟨before, tiled⟩ : ∃ before, s.Tiled source before :=
    State.keeps_of_run State.Tiled.turn ⟨[], State.tiled_first source⟩ read
  obtain ⟨rfl, span⟩ := tiled.ended done
  have here : Located before (placeOf before []) := ⟨before, [], [], by simp, rfl⟩
  have tiles := tiled.tiles
  rw [done] at tiles
  rw [span, solid_append, solid_replicate, List.append_nil, State.ended, solid_append, span]
  refine ⟨_, _, tiles, rfl, ?_, ?_, fun p mem => ?_⟩
  · split <;> simp [solid, isBlock]
  · split
    · intro p mem
      rw [List.mem_singleton.mp (List.mem_filter.mp mem).1]
    · intro p mem
      cases mem
  · rcases List.mem_append.mp mem with ended | dedent
    · rcases List.mem_append.mp ended with old | newline
      · exact tiled.located p (List.mem_reverse.mp old)
      · split at newline
        · rw [List.mem_singleton.mp newline]
          exact here
        · cases newline
    · rw [(List.mem_replicate.mp dedent).2]
      exact here

/-- Only the layout is empty anywhere. -/
theorem proper_of_tokenize (h : tokenize flags source = .ok tokens) (mem : p ∈ tokens)
    (inLine : isLayout p.token = false) : p.span.start < p.span.stop := by
  obtain ⟨ts, ends, tiles, split, -, empty, -⟩ := tiles_of_tokenize h
  have kept : p ∈ solid tokens := by
    refine List.mem_filter.mpr ⟨mem, ?_⟩
    cases t : p.token <;> first | rfl | simp [t, isLayout] at inLine
  rw [split] at kept
  rcases List.mem_append.mp kept with inside | last
  · exact (tiles.bounds p inside).1
  · rw [empty p last] at inLine
    cases inLine

theorem inOrder_of_tokenize (h : tokenize flags source = .ok tokens) : (solid tokens).Pairwise Before := by
  obtain ⟨ts, ends, tiles, split, one, empty, -⟩ := tiles_of_tokenize h
  rw [split]
  refine List.pairwise_append.mpr ⟨tiles.inOrder, ?_, fun p mem q last => ?_⟩
  · match ends, one with
    | [], _ => exact .nil
    | [q], _ => exact List.pairwise_singleton ..
  · have bounds := tiles.bounds p mem
    rw [Before, empty q last]
    simp only [placeOf]
    omega

/-- Spans tile the source. Every span is the place of a part of the source; those of tokens other than
indents and dedents stand in order and apart; and every character is accounted for. -/
theorem spans_tile_source (h : tokenize flags source = .ok tokens) :
    (∀ p ∈ tokens, Located source p.span ∧ p.span.start ≤ p.span.stop ∧
      p.span.stop ≤ utf8Len source) ∧
    (solid tokens).Pairwise Before ∧
    ∀ before c after, source = before ++ c :: after → Accounted (solid tokens) before c after := by
  obtain ⟨ts, ends, tiles, split, one, empty, located⟩ := tiles_of_tokenize h
  refine ⟨fun p mem => ⟨located p mem, (located p mem).bounds⟩, inOrder_of_tokenize h, fun before c after whole => ?_⟩
  have later : ∀ p ∈ ends, utf8Len source ≤ p.span.start := by
    intro p mem
    rw [empty p mem]
    exact Nat.le_refl _
  rw [split]
  simpa using tiles.accounted later whole

/-- A text over two lines, joined lines, a comment and a block. -/
def mixed : List Char := "x = '''é\n#''' \\\n + y # z\nif x:\n\ty".toList

theorem spans_tile_source_mixed :
    ∃ tokens, tokenize {} mixed = .ok tokens ∧ (solid tokens).length = 12 ∧
      (∀ p ∈ tokens, p.span.stop ≤ 34) ∧ (solid tokens).Pairwise Before ∧
      Accounted (solid tokens) (mixed.take 23) 'z' (mixed.drop 24) := by
  have size : (tokenize {} mixed).toOption.map (fun ts => (solid ts).length) = some 12 := by
    decide +kernel
  cases read : tokenize {} mixed with
  | error e =>
    rw [read] at size
    cases size
  | ok tokens =>
    rw [read] at size
    obtain ⟨located, inOrder, accounted⟩ := spans_tile_source read
    refine ⟨tokens, rfl, Option.some.inj size, fun p mem => ?_, inOrder, ?_⟩
    · exact (located p mem).2.2.trans (by decide +kernel)
    · exact accounted _ _ _ (by decide +kernel)

end Scratchpad.Token
