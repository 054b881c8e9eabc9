import Scratchpad.Proofs.Text.Canonical
import Scratchpad.Shell

/-!
# Where reports point

The place of an error is one in the dedented text, and a report marks it in the text as it was given. The lines of
the two correspond (`lineAt_dedent`), and what the given line has in front of the other is the margin. So the mark
stands as many columns too far to the left as the margin is wide (`caret_off_by_margin`).
-/

namespace Scratchpad

namespace Text

/-- The line with the number, the first being 1; an empty one where there is none. -/
def lineAt (s : List Char) (number : Nat) : List Char := ((lines s)[number - 1]?).getD []

/-! ### Lines of dedented texts -/

theorem stripReturn_dedentBody (blank : ∀ c ∈ p, isBlank c = true)
    (front : allBlank body = false → p <+: stripReturn body) :
    stripReturn (dedentBody p.length body) = dedentBody p.length (stripReturn body) := by
  cases kind : allBlank body with
  | true =>
    rw [dedentBody, dedentBody, allBlank_stripReturn, kind]
    rfl
  | false =>
    obtain ⟨rest, rfl⟩ := (front kind).trans (stripReturn_begins body)
    have solid : allBlank rest = false := by rwa [allBlank_append blank] at kind
    rw [dedentBody, dedentBody, allBlank_stripReturn, kind, stripReturn_append p (ne_nil_of_full solid)]
    simp

theorem lines_inLine (inLine : '\n' ∉ line) (i : Nat) :
    ((lines line)[i]?).getD [] = if i = 0 then line else [] := by
  by_cases empty : line = []
  · subst empty
    simp [lines, rawLines]
  · rw [lines, rawLines_line empty inLine, List.map_singleton, lineBody_inLine inLine]
    cases i <;> rfl

theorem lines_dedentBody (blank : ∀ c ∈ p, isBlank c = true) (s : List Char)
    (front : ∀ line ∈ fullLines s, p <+: line) (i : Nat) :
    ((lines (eachLine (dedentBody p.length) s))[i]?).getD [] =
      dedentBody p.length (((lines s)[i]?).getD []) := by
  induction s using line_induction generalizing i with
  | last line single =>
    rw [eachLine_last rfl single, lines_inLine single, lines_inLine (newline_not_mem_dedentBody _ single)]
    split <;> rfl
  | more line after single ih =>
    rw [fullLines_more single] at front
    rw [eachLine_more single, lines_more (newline_not_mem_dedentBody _ single), lines_more single]
    cases i with
    | zero =>
      refine stripReturn_dedentBody blank fun full => front _ (List.mem_append_left _ ?_)
      simp [full]
    | succ i => exact ih (fun line mem => front line (List.mem_append_right _ mem)) i

theorem lineAt_dedent (s : List Char) (number : Nat) :
    lineAt (dedent s) number = dedentBody (margin s).length (lineAt s number) := by
  rcases dedent_cases s with ⟨flush, filled, same⟩ | slow
  · rw [same, flush, dedentBody]
    split
    next blank =>
      by_contra full
      unfold lineAt at blank full
      cases found : (lines s)[number - 1]? with
      | none => simp [found] at full
      | some line =>
        rw [found] at blank full
        have empty := List.any_eq_false.mp filled line (List.mem_of_getElem? found)
        simp_all
    next => rfl
  · rw [slow]
    exact lines_dedentBody (margin_blank s) s (fun line => margin_begins) (number - 1)

/-- The margin is what a line has in front, unless the line is blank. -/
theorem margin_append_lineAt (full : allBlank (lineAt s number) = false) :
    lineAt s number = margin s ++ lineAt (dedent s) number := by
  have listed : lineAt s number ∈ fullLines s := by
    refine List.mem_filter.mpr ⟨?_, by rw [full]; rfl⟩
    unfold lineAt at full ⊢
    cases found : (lines s)[number - 1]? with
    | none => simp [found, allBlank] at full
    | some line => exact List.mem_of_getElem? found
  obtain ⟨rest, parts⟩ := margin_begins listed
  rw [lineAt_dedent, dedentBody, full, ← parts]
  simp

theorem dedentBody_ends (width : Nat) (body : List Char) : dedentBody width body <:+ body := by
  unfold dedentBody
  split
  · exact List.nil_suffix
  · exact List.drop_suffix width body

theorem drop_eq_drop_iff {l l' : List Char} (back : l' <:+ l) (n : Nat) :
    l.drop n = l'.drop n ↔ l' = l ∨ l.length ≤ n := by
  constructor
  · intro same
    have lengths := congrArg List.length same
    have shorter := back.length_le
    simp only [List.length_drop] at lengths
    by_cases inside : n < l.length
    · exact .inl (back.eq_of_length (by omega))
    · exact .inr (by omega)
  · rintro (rfl | beyond)
    · rfl
    · rw [List.drop_eq_nil_of_le beyond, List.drop_eq_nil_of_le (back.length_le.trans beyond)]

end Text

/-! ### What is shown -/

namespace Report

/-- The line of the place is shown, and the mark under it. -/
theorem excerpt_shows {source : String} {span : Span} (low : 1 ≤ span.line)
    (high : span.line ≤ (Text.lines source.toList).length) :
    ∃ front back width, excerpt source span = front ++
      sourceLine span width span.line (.ofList (Text.lineAt source.toList span.line)) ++ back := by
  have inside : span.line - 1 < ((Text.lines source.toList).map String.ofList).length := by
    rw [List.length_map]
    omega
  have here : ((Text.lines source.toList).map String.ofList)[span.line - 1]? =
      some (.ofList (Text.lineAt source.toList span.line)) := by
    rw [List.length_map] at inside
    simp [Text.lineAt, List.getElem?_eq_getElem inside]
  unfold excerpt
  dsimp only
  rw [if_neg (Nat.not_le.mpr inside)]
  generalize (Text.lines source.toList).map String.ofList = lines at inside here ⊢
  generalize String.ofList (Text.lineAt source.toList span.line) = line at here ⊢
  -- Among the lines shown it comes after those before it, of which there are two at most.
  have there : ((lines.take (span.line - 1 + 3)).drop (span.line - 1 - 2))[span.line - 1 - (span.line - 1 - 2)]? =
      some line := by
    rw [List.getElem?_drop, List.getElem?_take, if_pos (by omega),
      show span.line - 1 - 2 + (span.line - 1 - (span.line - 1 - 2)) = span.line - 1 by omega, here]
  have listed : sourceLine span (toString (min (span.line + 2) lines.length)).length span.line line ∈
      ((lines.take (span.line - 1 + 3)).drop (span.line - 1 - 2)).mapIdx fun i line =>
        sourceLine span (toString (min (span.line + 2) lines.length)).length (span.line - 1 - 2 + i + 1) line := by
    refine List.mem_of_getElem? (i := span.line - 1 - (span.line - 1 - 2)) ?_
    rw [List.getElem?_mapIdx, there, Option.map_some,
      show span.line - 1 - 2 + (span.line - 1 - (span.line - 1 - 2)) + 1 = span.line by omega]
  obtain ⟨front, back, parts⟩ := List.append_of_mem listed
  refine ⟨String.join front, String.join back, (toString (min (span.line + 2) lines.length)).length, ?_⟩
  rw [parts, String.join_append, String.join_cons, String.append_assoc]

theorem render_shows {r : Report} {place : Span} (placed : r.span = some place) (low : 1 ≤ place.line)
    (high : place.line ≤ (Text.lines source.toList).length) (label : String) :
    ∃ front back width, r.render label source = front ++
      sourceLine place width place.line (.ofList (Text.lineAt source.toList place.line)) ++ back := by
  obtain ⟨front, back, width, shown⟩ := excerpt_shows low high
  refine ⟨"error: " ++ r.message ++ "\n" ++ ("  --> " ++ label ++ ":" ++ toString place.line ++ ":" ++
    toString place.col ++ "\n\n" ++ front), back ++ advice "suggestion" r.suggestion ++ advice "help" r.help, width, ?_⟩
  simp only [render, placed, shown, String.append_assoc]

end Report

/-- The outcome of a run, and with it the place of an error, is that of the dedented text. -/
theorem Runner.outcome_dedented {source source' : String} {mode : Mode} {config : Config}
    (same : Text.dedent source'.toList = Text.dedent source.toList)
    (quiet : Quiet.isQuiet source'.toList = Quiet.isQuiet source.toList) :
    (Runner.run { source := source', mode, config } fuel w).map (·.outcome) =
      (Runner.run { source, mode, config } fuel w).map (·.outcome) := by
  unfold Runner.run Runner.ensureCode Runner.ensureTree
  dsimp only
  rw [same]
  cases Tree.ofSource mode {} (.ofList (Text.dedent source.toList)) with
  | error e => rfl
  | ok t =>
    have surfaced : Runner.surfaced { source := source', mode, config, tree := some t } t =
        Runner.surfaced { source, mode, config, tree := some t } t := by
      unfold Runner.surfaced Runner.isQuieted
      rw [quiet]
    simp only [Except.bind, bind, pure, Except.pure]
    rw [surfaced]
    cases Code.ofTree (Runner.surfaced { source, mode, config, tree := some t } t) mode with
    | error e => rfl
    | ok c =>
      simp only [Option.map_bind]
      rfl

theorem Shell.evaluate_fails (h : Shell.evaluate s mode config fuel source label = some (s', false)) :
    ∃ result e, Runner.run { source, mode, config } fuel s.world = some result ∧ result.outcome = .error e ∧
      s'.errors = s.errors ++ (Report.ofRunError e).render label source := by
  unfold Shell.evaluate at h
  cases ran : Runner.run { source, mode, config } fuel s.world with
  | none => simp [ran] at h
  | some result =>
    rw [ran] at h
    cases outcome : result.outcome with
    | ok value => cases value <;> simp [outcome] at h
    | error e =>
      simp only [outcome, Option.bind_eq_bind, Option.bind_some, Option.pure_def, Option.some.injEq, Prod.mk.injEq,
        and_true] at h
      exact ⟨result, e, rfl, outcome, by rw [← h]⟩

/-- A report marks the place of an error, which is one in the dedented text, in the text that was given. Of the line
shown there the dedented text has what is behind the margin, or nothing if the line is blank. From the column of the
mark on the two are the same only if the line is not changed at all, or ends before that column. -/
theorem caret_off_by_margin (s s' : Shell.State) (mode : Mode) (config : Config) (fuel : Nat) (source label : String)
    (h : Shell.evaluate s mode config fuel source label = some (s', false)) :
    ∃ result e, Runner.run { source, mode, config } fuel s.world = some result ∧ result.outcome = .error e ∧
      s'.errors = s.errors ++ (Report.ofRunError e).render label source ∧
      (∀ source' : String, Text.dedent source'.toList = Text.dedent source.toList →
        Quiet.isQuiet source'.toList = Quiet.isQuiet source.toList →
        (Runner.run { source := source', mode, config } fuel s.world).map (·.outcome) = some (.error e)) ∧
      ∀ span, (Report.ofRunError e).span = some span →
        let shown := Text.lineAt source.toList span.line
        let read := Text.lineAt (Text.dedent source.toList) span.line
        (1 ≤ span.line → span.line ≤ (Text.lines source.toList).length → ∃ front back width,
          (Report.ofRunError e).render label source =
            front ++ Report.sourceLine span width span.line (.ofList shown) ++ back) ∧
        (if Text.allBlank shown then read = [] else shown = Text.margin source.toList ++ read) ∧
        (shown.drop (span.col - 1) = read.drop (span.col - 1) ↔ read = shown ∨ shown.length ≤ span.col - 1) := by
  obtain ⟨result, e, ran, outcome, errors⟩ := Shell.evaluate_fails h
  refine ⟨result, e, ran, outcome, errors, fun source' same quiet => ?_, fun span placed => ?_⟩
  · rw [Runner.outcome_dedented same quiet, ran, Option.map_some, outcome]
  refine ⟨fun low high => Report.render_shows placed low high label, ?_, Text.drop_eq_drop_iff ?_ _⟩
  · split
    next blank => rw [Text.lineAt_dedent, Text.dedentBody, if_pos blank]
    next full => exact Text.margin_append_lineAt (Bool.eq_false_iff.mpr full)
  · rw [Text.lineAt_dedent]
    exact Text.dedentBody_ends _ _

theorem caret_off_by_margin_name :
    ∃ e, (Runner.run { source := "x" } 100 {}).map (·.outcome) = some (.error e) ∧
      ∀ span, (Report.ofRunError e).span = some span →
        let shown := Text.lineAt "  x".toList span.line
        let read := Text.lineAt (Text.dedent "  x".toList) span.line
        (shown.drop (span.col - 1) = read.drop (span.col - 1) ↔ read = shown ∨ shown.length ≤ span.col - 1) := by
  have failed : (Shell.evaluate {} .exec {} 100 "  x" "<string>").map (·.2) = some false := by decide +kernel
  obtain ⟨⟨s', -⟩, h, rfl⟩ := Option.map_eq_some_iff.mp failed
  obtain ⟨-, e, -, -, -, same, place⟩ := caret_off_by_margin {} s' .exec {} 100 "  x" "<string>" h
  exact ⟨e, same "x" (by decide +kernel) (by decide +kernel), fun span placed => (place span placed).2.2⟩

/-- The name stands in column 3 of the text that is shown; the mark is in column 1, under the margin. -/
theorem caret_under_margin :
    (Shell.evaluate {} .exec {} 100 "  x" "<string>").map (fun r => (r.1.errors, r.2)) =
        some ("error: NameError: name 'x' is not defined\n  --> <string>:1:1\n\n1 |   x\n  | ^\n\n" ++
          "suggestion: Check the name's spelling or assign it before use\n", false) ∧
      (Text.lineAt "  x".toList 1).drop (1 - 1) ≠ (Text.lineAt (Text.dedent "  x".toList) 1).drop (1 - 1) := by
  decide +kernel

end Scratchpad
