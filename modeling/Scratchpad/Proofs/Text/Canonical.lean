import Scratchpad.Proofs.Text.Trimmed

/-!
# Dedented texts are canonical

`dedent` changes a text line by line (`eachLine`), and so does `indent`, which puts blanks in front of all
lines that are not blank. What the two do to these lines (`fullLines`) tells what they do to the margin: it is
what all the lines have in common, so that a common front of them is a front of the margin (`margin_map`).
-/

namespace Scratchpad.Text

/-- The lines that are not blank. -/
def fullLines (s : List Char) : List (List Char) := (lines s).filter fun line => !allBlank line

/-- Changes every line; its newline stays. -/
def eachLine (f : List Char → List Char) (s : List Char) : List Char :=
  (rawLines s).flatMap fun line => f (splitEnd line).1 ++ (splitEnd line).2

/-- A line with `p` in front of it, unless it is blank. -/
def indentBody (p body : List Char) : List Char := if allBlank body then body else p ++ body

/-- The text with `p` in front of every line that is not blank. -/
def indent (p : List Char) : List Char → List Char := eachLine (indentBody p)

/-- A line without so many characters at its front; a blank one is emptied. -/
def dedentBody (width : Nat) (body : List Char) : List Char := if allBlank body then [] else body.drop width

/-! ### Line by line -/

section EachLine

variable {f g : List Char → List Char} {s line after : List Char}

theorem eachLine_more (inLine : '\n' ∉ line) :
    eachLine f (line ++ '\n' :: after) = f line ++ '\n' :: eachLine f after := by
  have parts : splitEnd (line ++ ['\n']) = (line, ['\n']) := by simp [splitEnd]
  rw [eachLine, rawLines_first inLine, List.flatMap_cons, parts, List.append_assoc]
  rfl

theorem eachLine_last (nothing : f [] = []) (inLine : '\n' ∉ line) : eachLine f line = f line := by
  by_cases empty : line = []
  · rw [empty, nothing]
    rfl
  · have last : line.getLast? ≠ some '\n' := fun last => inLine (List.mem_of_getLast? last)
    rw [eachLine, rawLines_line empty inLine, List.flatMap_singleton, splitEnd, if_neg last, List.append_nil]

theorem eachLine_eachLine (nothing : f [] = []) (nothing' : g [] = [])
    (inLine : ∀ line, '\n' ∉ line → '\n' ∉ g line) (s : List Char) :
    eachLine f (eachLine g s) = eachLine (fun line => f (g line)) s := by
  induction s using line_induction with
  | last line single =>
    rw [eachLine_last nothing' single, eachLine_last nothing (inLine line single),
      eachLine_last (by rw [nothing', nothing]) single]
  | more line after single ih => rw [eachLine_more single, eachLine_more (inLine line single), eachLine_more single, ih]

theorem eachLine_congr (same : ∀ line ∈ rawLines s, f (splitEnd line).1 = g (splitEnd line).1) :
    eachLine f s = eachLine g s :=
  List.flatMap_congr fun line mem => by rw [same line mem]

theorem eachLine_id (s : List Char) : eachLine id s = s := by
  simp [eachLine, splitEnd_append, flatten_rawLines]

theorem dedentLine_eq (width : Nat) (line : List Char) :
    dedentLine width line = dedentBody width (splitEnd line).1 ++ (splitEnd line).2 := by
  unfold dedentLine dedentBody
  dsimp only
  split <;> rfl

theorem dedent_cases (s : List Char) :
    (margin s = [] ∧ hasBlankLine s = false ∧ dedent s = s) ∨
      dedent s = eachLine (dedentBody (margin s).length) s := by
  have slow : (rawLines s).flatMap (dedentLine (margin s).length) = eachLine (dedentBody (margin s).length) s :=
    List.flatMap_congr fun line _ => dedentLine_eq _ line
  by_cases kept : margin s = [] ∧ hasBlankLine s = false
  · exact .inl ⟨kept.1, kept.2, dedent_self kept.1 kept.2⟩
  · rw [dedent, slow]
    exact .inr (if_neg (by simpa using kept))

end EachLine

/-! ### Lines that are not blank -/

/-- A line without the carriage return at its end. -/
def stripReturn (body : List Char) : List Char := if body.getLast? = some '\r' then body.dropLast else body

theorem stripReturn_begins (body : List Char) : stripReturn body <+: body := by
  unfold stripReturn
  split
  · exact List.dropLast_prefix body
  · exact List.prefix_rfl

theorem stripReturn_append (front : List Char) (some : body ≠ []) :
    stripReturn (front ++ body) = front ++ stripReturn body := by
  unfold stripReturn
  rw [List.getLast?_append_of_ne_nil _ some, List.dropLast_append_of_ne_nil some]
  split <;> rfl

theorem allBlank_stripReturn (body : List Char) : allBlank (stripReturn body) = allBlank body := by
  have same := allBlank_lineBody (body ++ ['\n'])
  rw [lineBody_newline, ← stripReturn] at same
  simpa [splitEnd] using same

theorem lines_more (inLine : '\n' ∉ line) (after : List Char) :
    lines (line ++ '\n' :: after) = stripReturn line :: lines after := by
  rw [lines, rawLines_first inLine, List.map_cons, lineBody_newline]
  rfl

theorem fullLines_more (inLine : '\n' ∉ line) (after : List Char) :
    fullLines (line ++ '\n' :: after) =
      (if allBlank line then [] else [stripReturn line]) ++ fullLines after := by
  rw [fullLines, lines_more inLine, List.filter_cons, allBlank_stripReturn]
  cases allBlank line <;> rfl

theorem fullLines_last (inLine : '\n' ∉ line) : fullLines line = if allBlank line then [] else [line] := by
  by_cases empty : line = []
  · rw [empty]
    rfl
  · rw [fullLines, lines, rawLines_line empty inLine, List.map_singleton, lineBody_inLine inLine,
      List.filter_singleton]
    cases allBlank line <;> rfl

theorem ne_nil_of_full (full : allBlank body = false) : body ≠ [] := by
  rintro rfl
  cases full

theorem newline_not_mem_dedentBody (width : Nat) (inLine : '\n' ∉ line) : '\n' ∉ dedentBody width line := by
  unfold dedentBody
  split
  · exact List.not_mem_nil
  · exact fun mem => inLine (List.mem_of_mem_drop mem)

theorem not_mem_indentBody {c : Char} (front : c ∉ p) (rest : c ∉ line) : c ∉ indentBody p line := by
  unfold indentBody
  split
  · exact rest
  · exact fun mem => (List.mem_append.mp mem).elim front rest

/-- Blanks in front of a line do not make it blank, nor do they keep it from being so. -/
theorem allBlank_append (blank : ∀ c ∈ p, isBlank c = true) (body : List Char) :
    allBlank (p ++ body) = allBlank body := by
  rw [allBlank, List.all_append, List.all_eq_true.mpr blank, Bool.true_and]
  rfl

/-- Blank lines stay blank, and the others are changed to what `g` makes of them. -/
theorem fullLines_eachLine {f g : List Char → List Char} (nothing : f [] = [])
    (inLine : ∀ line, '\n' ∉ line → '\n' ∉ f line)
    (blank : ∀ body, allBlank body = true → allBlank (f body) = true) (s : List Char)
    (full : ∀ body, allBlank body = false → (∃ line ∈ fullLines s, line <+: body) →
      allBlank (f body) = false ∧ f body = g body ∧ stripReturn (f body) = g (stripReturn body)) :
    fullLines (eachLine f s) = (fullLines s).map g := by
  induction s using line_induction with
  | last line single =>
    rw [eachLine_last nothing single, fullLines_last (inLine line single), fullLines_last single]
    rw [fullLines_last single] at full
    cases kind : allBlank line with
    | true => simp [blank line kind]
    | false =>
      obtain ⟨solid, same, -⟩ := full line kind ⟨line, by simp [kind], List.prefix_rfl⟩
      simp [solid, ← same]
  | more line after single ih =>
    rw [fullLines_more single] at full
    rw [eachLine_more single, fullLines_more (inLine line single), fullLines_more single, List.map_append,
      ih fun body kind ⟨line, mem, starts⟩ => full body kind ⟨line, List.mem_append_right _ mem, starts⟩]
    congr 1
    cases kind : allBlank line with
    | true => simp [blank line kind]
    | false =>
      obtain ⟨solid, -, same⟩ :=
        full line kind ⟨_, List.mem_append_left _ (by simp [kind]), stripReturn_begins line⟩
      simp [solid, same]

theorem fullLines_indent (blank : ∀ c ∈ p, isBlank c = true) (inLine : '\n' ∉ p) (s : List Char) :
    fullLines (indent p s) = (fullLines s).map (p ++ ·) := by
  refine fullLines_eachLine rfl (fun line => not_mem_indentBody inLine) (fun body all => ?_) s
    fun body full _ => ?_
  · rwa [indentBody, if_pos all]
  · rw [indentBody, if_neg (by simp [full]), allBlank_append blank, stripReturn_append p (ne_nil_of_full full)]
    exact ⟨full, rfl, rfl⟩

/-- Blanks with which all the lines start are taken away from them. -/
theorem fullLines_dedentBody (blank : ∀ c ∈ p, isBlank c = true) (s : List Char)
    (front : ∀ line ∈ fullLines s, p <+: line) :
    fullLines s = (fullLines (eachLine (dedentBody p.length) s)).map (p ++ ·) := by
  have cut : fullLines (eachLine (dedentBody p.length) s) = (fullLines s).map (·.drop p.length) := by
    refine fullLines_eachLine rfl (fun line => newline_not_mem_dedentBody _) (fun body all => ?_) s
      fun body full ⟨line, mem, starts⟩ => ?_
    · rw [dedentBody, if_pos all]
      rfl
    · obtain ⟨rest, rfl⟩ := (front line mem).trans starts
      have solid : allBlank rest = false := by rwa [allBlank_append blank] at full
      rw [dedentBody, if_neg (by simp [full]), stripReturn_append p (ne_nil_of_full solid), List.drop_left,
        List.drop_left]
      exact ⟨solid, rfl, rfl⟩
  rw [cut, List.map_map]
  conv_lhs => rw [← List.map_id (fullLines s)]
  refine List.map_congr_left fun line mem => ?_
  obtain ⟨rest, rfl⟩ := front line mem
  simp

/-! ### Margins -/

theorem commonPrefix_append (p a b : List Char) : commonPrefix (p ++ a) (p ++ b) = p ++ commonPrefix a b := by
  induction p with
  | nil => rfl
  | cons c p ih =>
    rw [List.cons_append, List.cons_append, commonPrefix, if_pos rfl, ih]
    rfl

theorem common_map (p : List Char) (any : ls ≠ []) : common (ls.map (p ++ ·)) = p ++ common ls := by
  obtain ⟨first, others, rfl⟩ := List.exists_cons_of_ne_nil any
  change (others.map (p ++ ·)).foldl commonPrefix (p ++ first) = p ++ others.foldl commonPrefix first
  induction others generalizing first with
  | nil => rfl
  | cons line others ih =>
    rw [List.map_cons, List.foldl_cons, List.foldl_cons, commonPrefix_append]
    exact ih _ (by simp)

theorem margin_fullLines (s : List Char) : margin s = common ((fullLines s).map (·.takeWhile isBlank)) :=
  margin_eq s

/-- Blanks that are taken from all lines are taken from the margin. -/
theorem margin_map (blank : ∀ c ∈ p, isBlank c = true) (h : fullLines s = (fullLines t).map (p ++ ·))
    (any : fullLines t ≠ []) : margin s = p ++ margin t := by
  rw [margin_fullLines, margin_fullLines, h, ← common_map p (by simpa using any), List.map_map, List.map_map]
  congr 1
  refine List.map_congr_left fun line _ => ?_
  exact List.takeWhile_append_of_pos blank

theorem margin_begins (mem : line ∈ fullLines s) : margin s <+: line := by
  rw [margin_fullLines]
  exact (prefix_of_common (List.mem_map_of_mem mem)).trans (List.takeWhile_prefix _)

theorem margin_blank (s : List Char) : ∀ c ∈ margin s, isBlank c = true := by
  intro c mem
  rw [margin_fullLines] at mem
  cases full : fullLines s with
  | nil =>
    rw [full] at mem
    cases mem
  | cons line others =>
    rw [full] at mem
    exact List.mem_takeWhile_imp ((prefix_of_common List.mem_cons_self).subset mem)

/-- Where all lines start with a blank, there is a margin. -/
theorem margin_ne_nil (blank : isBlank c = true) (any : fullLines s ≠ [])
    (all : ∀ line ∈ fullLines s, line.head? = some c) : margin s ≠ [] := by
  have starts : (fullLines s).map (·.takeWhile isBlank) =
      ((fullLines s).map (·.tail.takeWhile isBlank)).map ([c] ++ ·) := by
    rw [List.map_map]
    refine List.map_congr_left fun line mem => ?_
    obtain ⟨rest, rfl⟩ := List.head?_eq_some_iff.mp (all line mem)
    simp [blank]
  rw [margin_fullLines, starts, common_map [c] (by simpa using any)]
  exact nofun

/-! ### Dedented texts -/

theorem fullLines_dedent (s : List Char) : fullLines s = (fullLines (dedent s)).map (margin s ++ ·) := by
  rcases dedent_cases s with ⟨flush, -, same⟩ | slow
  · rw [same, flush]
    exact (List.map_id _).symm
  · rw [slow]
    exact fullLines_dedentBody (margin_blank s) s fun line => margin_begins

theorem margin_dedent (s : List Char) : margin (dedent s) = [] := by
  by_cases any : fullLines (dedent s) = []
  · rw [margin_fullLines, any]
    rfl
  · have whole := margin_map (margin_blank s) (fullLines_dedent s) any
    exact List.append_cancel_left (whole.symm.trans (List.append_nil _).symm)

section RawLines

variable {line s : List Char}

theorem lineBody_begins (line : List Char) : lineBody line <+: (splitEnd line).1 := by
  unfold lineBody
  split
  · rename_i body parts
    rw [parts]
  · rename_i body newline _ parts
    rw [parts]
    dsimp only
    split
    · exact List.dropLast_prefix body
    · exact List.prefix_rfl

theorem mem_fullLines (mem : line ∈ rawLines s) (full : allBlank (splitEnd line).1 = false) :
    lineBody line ∈ fullLines s := by
  refine List.mem_filter.mpr ⟨List.mem_map_of_mem mem, ?_⟩
  rw [allBlank_lineBody, full]
  rfl

theorem mem_of_splitEnd (mem : line ∈ rawLines s) (inside : c ∈ (splitEnd line).1) : c ∈ s := by
  rw [← flatten_rawLines s]
  refine List.mem_flatten.mpr ⟨line, mem, ?_⟩
  rw [← splitEnd_append line]
  exact List.mem_append_left _ inside

end RawLines

theorem dedent_dedent (s : List Char) : dedent (dedent s) = dedent s := by
  rcases dedent_cases s with ⟨-, -, same⟩ | slow
  · rw [same, same]
  · rcases dedent_cases (dedent s) with ⟨-, -, same⟩ | again
    · exact same
    · rw [again, margin_dedent, slow, eachLine_eachLine rfl rfl fun line => newline_not_mem_dedentBody _]
      refine eachLine_congr fun line mem => ?_
      -- What is left of a line that is not blank is not blank either: only blanks are taken from it.
      cases full : allBlank (splitEnd line).1 with
      | true =>
        rw [dedentBody, dedentBody, if_pos full]
        rfl
      | false =>
        obtain ⟨rest, parts⟩ := (margin_begins (mem_fullLines mem full)).trans (lineBody_begins line)
        have solid : allBlank rest = false := by rwa [← parts, allBlank_append (margin_blank s)] at full
        have left : dedentBody (margin s).length (splitEnd line).1 = rest := by
          rw [dedentBody, if_neg (by simp [full]), ← parts, List.drop_left]
        rw [left, dedentBody, if_neg (by simp [solid]), List.length_nil, List.drop_zero]

/-- Without carriage returns a text that is left alone is what its lines are changed to. -/
theorem dedent_eq_eachLine (noReturn : '\r' ∉ s) : dedent s = eachLine (dedentBody (margin s).length) s := by
  rcases dedent_cases s with ⟨flush, filled, same⟩ | slow
  · rw [same]
    conv_lhs => rw [← eachLine_id s]
    refine eachLine_congr fun line mem => ?_
    rw [flush, dedentBody, id_eq]
    split
    · rename_i all
      have body : lineBody line = (splitEnd line).1 := by
        unfold lineBody
        split
        · rename_i parts
          rw [parts]
        · rename_i body newline _ parts
          rw [parts]
          refine if_neg fun last => noReturn (mem_of_splitEnd mem ?_)
          rw [parts]
          exact List.mem_of_getLast? last
      have kept := List.any_eq_false.mp filled _ (List.mem_map_of_mem mem)
      rw [body] at kept
      simpa [all] using kept
    · rfl
  · exact slow

theorem dedent_indent (noReturn : '\r' ∉ s) (blank : ∀ c ∈ p, isBlank c = true) (inLine : '\n' ∉ p)
    (noReturn' : '\r' ∉ p) : dedent (indent p s) = dedent s := by
  by_cases any : fullLines s = []
  · have same : indent p s = s := by
      conv_rhs => rw [← eachLine_id s]
      refine eachLine_congr fun line mem => ?_
      cases full : allBlank (splitEnd line).1 with
      | true => rw [indentBody, if_pos full, id_eq]
      | false => exact absurd (mem_fullLines mem full) (by simp [any])
    rw [same]
  · have without : '\r' ∉ indent p s := by
      intro mem
      obtain ⟨line, listed, inside⟩ := List.mem_flatMap.mp mem
      rcases List.mem_append.mp inside with here | last
      · exact not_mem_indentBody noReturn' (fun here => noReturn (mem_of_splitEnd listed here)) here
      · unfold splitEnd at last
        split at last <;> simp at last
    rw [dedent_eq_eachLine without, dedent_eq_eachLine noReturn,
      margin_map blank (fullLines_indent blank inLine s) any, indent,
      eachLine_eachLine rfl rfl fun line => not_mem_indentBody inLine]
    refine eachLine_congr fun line _ => ?_
    cases full : allBlank (splitEnd line).1 with
    | true => simp [dedentBody, indentBody, full]
    | false => simp [dedentBody, indentBody, full, allBlank_append blank, List.drop_append]

/-- Dedenting a dedented text changes nothing. Its lines that are not blank are those of the text in their
order, less blanks with which all of them start, and no blank is in front of all of them any more. A text
without carriage returns is dedented to the same text whatever blanks are put in front of all its lines. -/
theorem dedent_is_canonical (s : List Char) :
    dedent (dedent s) = dedent s ∧
    (∀ c, isBlank c = true → fullLines (dedent s) ≠ [] → ∃ line ∈ fullLines (dedent s), line.head? ≠ some c) ∧
    (∃ p, (∀ c ∈ p, isBlank c = true) ∧ fullLines s = (fullLines (dedent s)).map (p ++ ·)) ∧
    ('\r' ∉ s → ∀ p, (∀ c ∈ p, isBlank c = true ∧ c ≠ '\n' ∧ c ≠ '\r') → dedent (indent p s) = dedent s) := by
  refine ⟨dedent_dedent s, fun c blank any => ?_, ⟨margin s, margin_blank s, fullLines_dedent s⟩,
    fun noReturn p kind => ?_⟩
  · by_contra none
    refine margin_ne_nil blank any (fun line mem => ?_) (margin_dedent s)
    by_contra other
    exact none ⟨line, mem, other⟩
  · exact dedent_indent noReturn (fun c mem => (kind c mem).1) (fun mem => (kind _ mem).2.1 rfl)
      fun mem => (kind _ mem).2.2 rfl

/-- Tabs and a wide blank in front of lines, and a blank line between them. -/
theorem dedent_is_canonical_tabbed :
    dedent "\t\u2003a\n \n\t\tb".toList = "\u2003a\n\n\tb".toList ∧
      dedent (indent "\u2003 ".toList "\t\u2003a\n \n\t\tb".toList) = "\u2003a\n\n\tb".toList ∧
      dedent "\u2003a\n\n\tb".toList = "\u2003a\n\n\tb".toList := by
  have once : dedent "\t\u2003a\n \n\t\tb".toList = "\u2003a\n\n\tb".toList := by decide +kernel
  obtain ⟨twice, -, -, indented⟩ := dedent_is_canonical "\t\u2003a\n \n\t\tb".toList
  refine ⟨once, (indented (by simp) _ ?_).trans once, once ▸ twice⟩
  simpa using by decide

end Scratchpad.Text
