import Scratchpad.Proofs.Text.Dedent

/-!
# What dedenting takes away

`dedent` takes away blanks at the front of lines and nothing else. `Trimmed start s t` says so of two texts,
character by character, and `trimmed_dedent` of `dedent`.
-/

namespace Scratchpad.Text

/-- What holds of every blank in the table holds of every blank. -/
theorem of_isBlank {p : Char → Prop}
    (all : ∀ r ∈ blankRanges, ∀ i < r.2 + 1 - r.1, p (Char.ofNat (r.1 + i))) (h : isBlank c = true) : p c := by
  obtain ⟨r, mem, within⟩ := List.any_eq_true.mp h
  obtain ⟨low, high⟩ := Bool.and_eq_true_iff.mp within
  have low := of_decide_eq_true low
  have high := of_decide_eq_true high
  have found := all r mem (c.toNat - r.1) (by omega)
  rwa [Nat.add_sub_cancel' low, Char.ofNat_toNat] at found

/-- A text is one line, or a line and the lines after it. -/
@[elab_as_elim]
theorem line_induction {P : List Char → Prop} (last : ∀ s, '\n' ∉ s → P s)
    (more : ∀ line after, '\n' ∉ line → P after → P (line ++ '\n' :: after)) (s : List Char) : P s := by
  by_cases several : '\n' ∈ s
  · obtain ⟨line, after, parts, inLine⟩ := List.eq_append_cons_of_mem several
    have shorter : after.length < s.length := by
      rw [parts, List.length_append, List.length_cons]
      omega
    rw [parts]
    exact more line after inLine (line_induction last more after)
  · exact last s several
termination_by s.length

/-- `t` is `s` less some of the blanks at the front of its lines. If `start`, then `s` starts where a line
does, or after blanks that are taken away. -/
inductive Trimmed : Bool → List Char → List Char → Prop where
  | nil : Trimmed start [] []
  | newline (later : Trimmed true s t) : Trimmed start ('\n' :: s) ('\n' :: t)
  | char (inLine : c ≠ '\n') (later : Trimmed false s t) : Trimmed start (c :: s) (c :: t)
  | blank (kind : isBlank c = true) (inLine : c ≠ '\n') (later : Trimmed true s t) : Trimmed true (c :: s) t

namespace Trimmed

variable {s t : List Char}

theorem atStart (h : Trimmed false s t) : Trimmed true s t := by
  cases h with
  | nil => exact .nil
  | newline later => exact .newline later
  | char inLine later => exact .char inLine later

theorem refl (start : Bool) (s : List Char) : Trimmed start s s := by
  induction s generalizing start with
  | nil => exact .nil
  | cons c s ih =>
    by_cases newline : c = '\n'
    · subst newline
      exact .newline (ih true)
    · exact .char newline (ih false)

theorem line (inLine : '\n' ∉ piece) (h : Trimmed false s t) : Trimmed false (piece ++ s) (piece ++ t) := by
  induction piece with
  | nil => exact h
  | cons c piece ih =>
    obtain ⟨notHere, notLater⟩ := not_or.mp (mt List.mem_cons.mpr inLine)
    exact .char (Ne.symm notHere) (ih notLater)

theorem blanks (inLine : '\n' ∉ piece) (all : ∀ c ∈ piece, isBlank c = true) (h : Trimmed true s t) :
    Trimmed true (piece ++ s) t := by
  induction piece with
  | nil => exact h
  | cons c piece ih =>
    obtain ⟨notHere, notLater⟩ := not_or.mp (mt List.mem_cons.mpr inLine)
    exact .blank (all c List.mem_cons_self) (Ne.symm notHere)
      (ih notLater fun d mem => all d (List.mem_cons_of_mem c mem))

/-- Within a line nothing is taken away. -/
theorem cut (h : Trimmed false s t) :
    ∃ piece s' t', '\n' ∉ piece ∧ s = piece ++ s' ∧ t = piece ++ t' ∧ (∀ c ∈ s'.head?, c = '\n') ∧
      (∀ c ∈ t'.head?, c = '\n') ∧ Trimmed false s' t' := by
  induction s generalizing t with
  | nil =>
    cases h
    exact ⟨[], [], [], by simp, rfl, rfl, by simp, by simp, .nil⟩
  | cons c s ih =>
    cases h with
    | newline later => exact ⟨[], '\n' :: s, '\n' :: _, by simp, rfl, rfl, by simp, by simp, .newline later⟩
    | char inLine later =>
      obtain ⟨piece, s', t', within, rfl, rfl, ends, ends', rest⟩ := ih later
      exact ⟨c :: piece, s', t', by simp [Ne.symm inLine, within], rfl, rfl, ends, ends', rest⟩

theorem kept (h : Trimmed start (c :: s) t) (solid : isBlank c = false) :
    ∃ t', t = c :: t' ∧ Trimmed false s t' := by
  cases h with
  | newline => cases solid
  | char inLine later => exact ⟨_, rfl, later⟩
  | blank kind => cases kind.symm.trans solid

theorem next (h : Trimmed false (c :: s) t) : ∃ t' start, t = c :: t' ∧ Trimmed start s t' := by
  cases h with
  | newline later => exact ⟨_, true, rfl, later⟩
  | char inLine later => exact ⟨_, false, rfl, later⟩

end Trimmed

/-! ### Margins -/

theorem commonPrefix_left (a b : List Char) : commonPrefix a b <+: a := by
  induction a generalizing b with
  | nil => exact List.nil_prefix
  | cons c a ih =>
    cases b with
    | nil => exact List.nil_prefix
    | cons d b =>
      rw [commonPrefix]
      split
      · exact (List.prefix_cons_inj c).mpr (ih b)
      · exact List.nil_prefix

theorem commonPrefix_right (a b : List Char) : commonPrefix a b <+: b := by
  induction a generalizing b with
  | nil => exact List.nil_prefix
  | cons c a ih =>
    cases b with
    | nil => exact List.nil_prefix
    | cons d b =>
      rw [commonPrefix]
      split
      · rename_i same
        subst same
        exact (List.prefix_cons_inj c).mpr (ih b)
      · exact List.nil_prefix

theorem foldl_commonPrefix (first : List Char) (ls : List (List Char)) :
    ∀ l ∈ first :: ls, ls.foldl commonPrefix first <+: l := by
  induction ls generalizing first with
  | nil => simp
  | cons line ls ih =>
    have through := ih (commonPrefix first line)
    have whole := through _ List.mem_cons_self
    simp only [List.mem_cons, forall_eq_or_imp]
    exact ⟨whole.trans (commonPrefix_left first line), whole.trans (commonPrefix_right first line),
      fun l mem => through l (List.mem_cons_of_mem _ mem)⟩

theorem prefix_of_common (mem : l ∈ ls) : common ls <+: l := by
  cases ls with
  | nil => cases mem
  | cons first others => exact foldl_commonPrefix first others l mem

/-- The margin is no wider than the blanks in front of a line that is not blank. -/
theorem margin_le (mem : line ∈ lines s) (full : allBlank line = false) :
    (margin s).length ≤ (line.takeWhile isBlank).length := by
  have listed : line.takeWhile isBlank ∈ indentation (lines s) :=
    List.mem_map_of_mem (List.mem_filter.mpr ⟨mem, by rw [full]; rfl⟩)
  rw [margin_eq]
  exact (prefix_of_common listed).length_le

/-! ### Dedenting -/

theorem rawLines_first (inLine : '\n' ∉ line) (t : List Char) :
    rawLines (line ++ '\n' :: t) = (line ++ ['\n']) :: rawLines t := by
  induction line with
  | nil => rfl
  | cons c line ih =>
    obtain ⟨notHere, notLater⟩ := not_or.mp (mt List.mem_cons.mpr inLine)
    rw [List.cons_append, rawLines, if_neg (Ne.symm notHere), ih notLater]
    rfl

theorem dedentLine_newline (width : Nat) (body : List Char) :
    dedentLine width (body ++ ['\n']) = (if allBlank body then [] else body.drop width) ++ ['\n'] := by
  have parts : splitEnd (body ++ ['\n']) = (body, ['\n']) := by simp [splitEnd]
  rw [dedentLine, parts]
  dsimp only
  split <;> rfl

theorem dedentLine_inLine (width : Nat) (inLine : '\n' ∉ body) :
    dedentLine width body = if allBlank body then [] else body.drop width := by
  have last : body.getLast? ≠ some '\n' := fun last => inLine (List.mem_of_getLast? last)
  rw [dedentLine, splitEnd, if_neg last]
  dsimp only
  rw [List.append_nil]

/-- A line less its margin. -/
theorem trimmed_body (inLine : '\n' ∉ body) (front : allBlank body = false → width ≤ (body.takeWhile isBlank).length)
    (h : Trimmed false s t) :
    Trimmed true (body ++ s) ((if allBlank body then [] else body.drop width) ++ t) := by
  split
  · rename_i all
    exact Trimmed.blanks inLine (List.all_eq_true.mp all) h.atStart
  · rename_i full
    have fits := front (Bool.eq_false_iff.mpr full)
    have before : body.take width <+: body.takeWhile isBlank :=
      List.prefix_of_prefix_length_le (List.take_prefix ..) (List.takeWhile_prefix _)
        ((List.length_take_le ..).trans fits)
    have whole : body ++ s = body.take width ++ (body.drop width ++ s) := by
      rw [← List.append_assoc, List.take_append_drop]
    rw [whole]
    refine Trimmed.blanks (fun mem => inLine (List.mem_of_mem_take mem)) (fun c mem => ?_)
      (Trimmed.line (fun mem => inLine (List.mem_of_mem_drop mem)) h).atStart
    exact List.mem_takeWhile_imp (before.subset mem)

theorem trimmed_lines (width : Nat) (s : List Char)
    (fits : ∀ line ∈ lines s, allBlank line = false → width ≤ (line.takeWhile isBlank).length) :
    Trimmed true s ((rawLines s).flatMap (dedentLine width)) := by
  induction s using line_induction with
  | last s inLine =>
    by_cases empty : s = []
    · subst empty
      exact .nil
    · have only : rawLines s = [s] := rawLines_line empty inLine
      rw [lines, only, List.map_singleton, lineBody_inLine inLine] at fits
      have trimmed := trimmed_body inLine (fits s List.mem_cons_self) .nil
      rwa [List.append_nil, List.append_nil, ← dedentLine_inLine width inLine,
        ← List.flatMap_singleton (dedentLine width), ← only] at trimmed
  | more body after inLine ih =>
    have split : rawLines (body ++ '\n' :: after) = (body ++ ['\n']) :: rawLines after := rawLines_first inLine after
    rw [lines, split, List.map_cons] at fits
    have later := ih fun line mem => fits line (List.mem_cons_of_mem _ mem)
    rw [split, List.flatMap_cons, dedentLine_newline, List.append_assoc]
    refine trimmed_body inLine (fun full => ?_) (.newline later)
    obtain ⟨bodyFull, same⟩ := lineBody_full full
    exact same ▸ fits _ List.mem_cons_self bodyFull

theorem trimmed_dedent (s : List Char) : Trimmed true s (dedent s) := by
  unfold dedent
  dsimp only
  split
  · exact Trimmed.refl true s
  · exact trimmed_lines _ s fun line mem full => margin_le mem full

end Scratchpad.Text
