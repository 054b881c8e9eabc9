import Mathlib
import Scratchpad.Text.Lines

/-!
# Texts without a margin

`dedent` leaves a text as it is only if the lines have no margin in common and no line is blank without
being empty (`dedent_eq_self`). Two such texts with a newline between them are such a text
(`dedent_joined`).
-/

namespace Scratchpad.Text

/-! ### Lines -/

theorem flatten_rawLines (s : List Char) : (rawLines s).flatten = s := by
  induction s with
  | nil => rfl
  | cons c s ih =>
    rw [rawLines]
    split
    · rw [List.flatten_cons, ih]
      rfl
    · cases lines : rawLines s with
      | nil =>
        rw [lines] at ih
        rw [← ih]
        rfl
      | cons line others =>
        rw [lines] at ih
        rw [← ih]
        rfl

/-- A newline ends the last line, or is a line by itself. -/
theorem rawLines_newline (s : List Char) :
    rawLines (s ++ ['\n']) = rawLines s ++ [['\n']] ∨
      ∃ front line, rawLines s = front ++ [line] ∧ rawLines (s ++ ['\n']) = front ++ [line ++ ['\n']] ∧
        line ≠ [] ∧ '\n' ∉ line := by
  induction s with
  | nil => exact .inl rfl
  | cons c s ih =>
    rw [List.cons_append, rawLines, rawLines]
    split
    · rcases ih with same | ⟨front, line, old, new, some, inLine⟩
      · exact .inl (by rw [same]; rfl)
      · exact .inr ⟨[c] :: front, line, by rw [old]; rfl, by rw [new]; rfl, some, inLine⟩
    · rename_i other
      have notHere : '\n' ∉ [c] := by simpa using Ne.symm other
      rcases ih with same | ⟨front, line, old, new, some, inLine⟩
      · rw [same]
        cases rawLines s with
        | nil => exact .inr ⟨[], [c], rfl, rfl, by simp, notHere⟩
        | cons line others => exact .inl rfl
      · rw [old, new]
        cases front with
        | nil =>
          refine .inr ⟨[], c :: line, rfl, rfl, by simp, fun mem => ?_⟩
          rcases List.mem_cons.mp mem with here | later
          · exact other here.symm
          · exact inLine later
        | cons first others => exact .inr ⟨(c :: first) :: others, line, rfl, rfl, some, inLine⟩

theorem rawLines_append (s t : List Char) :
    rawLines (s ++ '\n' :: t) = rawLines (s ++ ['\n']) ++ rawLines t := by
  induction s with
  | nil => rfl
  | cons c s ih =>
    rw [List.cons_append, List.cons_append, rawLines, rawLines, ih]
    split
    · rfl
    · rcases rawLines_newline s with same | ⟨front, line, -, new, -, -⟩
      · rw [same]
        cases rawLines s <;> rfl
      · rw [new]
        cases front <;> rfl

theorem rawLines_line {cs : List Char} (some : cs ≠ []) (single : '\n' ∉ cs) : rawLines cs = [cs] := by
  induction cs with
  | nil => contradiction
  | cons c cs ih =>
    obtain ⟨notHere, notLater⟩ := not_or.mp (mt List.mem_cons.mpr single)
    rw [rawLines, if_neg (Ne.symm notHere)]
    cases cs with
    | nil => rfl
    | cons => rw [ih (by simp) notLater]

/-! ### Bodies -/

theorem splitEnd_append (line : List Char) : (splitEnd line).1 ++ (splitEnd line).2 = line := by
  unfold splitEnd
  split
  · rename_i last
    exact List.dropLast_append_getLast? _ last
  · exact List.append_nil _

/-- What is left of a line without its end is blank if the line is. -/
theorem allBlank_lineBody (line : List Char) : allBlank (lineBody line) = allBlank (splitEnd line).1 := by
  unfold lineBody
  split
  · rename_i body split
    rw [split]
  · rename_i body newline _ split
    rw [split]
    dsimp only
    split
    · rename_i last
      have whole := List.dropLast_append_getLast? _ last
      have carriage : isBlank '\r' = true := by decide
      conv_rhs => rw [← whole]
      simp [allBlank, carriage]
    · rfl

theorem lineBody_inLine (inLine : '\n' ∉ line) : lineBody line = line := by
  have last : line.getLast? ≠ some '\n' := fun last => inLine (List.mem_of_getLast? last)
  rw [lineBody, splitEnd, if_neg last]

theorem lineBody_newline (line : List Char) :
    lineBody (line ++ ['\n']) = if line.getLast? = some '\r' then line.dropLast else line := by
  rw [lineBody, splitEnd, if_pos (by simp)]
  simp

/-! ### Margins -/

/-- The blanks in front of the lines that are not blank. -/
def indentation (ls : List (List Char)) : List (List Char) :=
  (ls.filter fun line => !allBlank line).map (·.takeWhile isBlank)

theorem indentation_append (ls ls' : List (List Char)) :
    indentation (ls ++ ls') = indentation ls ++ indentation ls' := by
  rw [indentation, List.filter_append, List.map_append]
  rfl

/-- What all the lines have in common. -/
def common : List (List Char) → List Char
  | [] => []
  | first :: others => others.foldl commonPrefix first

theorem margin_eq (s : List Char) : margin s = common (indentation (lines s)) := by
  unfold margin common indentation
  rfl

theorem foldl_commonPrefix_nil (ls : List (List Char)) : ls.foldl commonPrefix [] = [] := by
  induction ls with
  | nil => rfl
  | cons line ls ih => exact ih

theorem common_append (h : common ls = []) (h' : common ls' = []) : common (ls ++ ls') = [] := by
  cases ls with
  | nil => exact h'
  | cons first others =>
    change others.foldl commonPrefix first = [] at h
    change (others ++ ls').foldl commonPrefix first = []
    rw [List.foldl_append, h, foldl_commonPrefix_nil]

theorem dedentLine_le (width : Nat) (line : List Char) : (dedentLine width line).length ≤ line.length := by
  have whole := congrArg List.length (splitEnd_append line)
  rw [List.length_append] at whole
  unfold dedentLine
  dsimp only
  split
  · omega
  · rw [List.length_append, List.length_drop]
    omega

/-- A line that starts at the margin is left as it is. -/
theorem dedent_line {c : Char} {rest : List Char} (flush : isBlank c = false)
    (single : '\n' ∉ c :: rest) : dedent (c :: rest) = c :: rest := by
  have noEnd : (c :: rest).getLast? ≠ some '\n' := fun last => single (List.mem_of_getLast? last)
  have one : lines (c :: rest) = [c :: rest] := by
    rw [lines, rawLines_line (by simp) single, List.map_singleton, lineBody, splitEnd, if_neg noEnd]
  have full : allBlank (c :: rest) = false := by simp [allBlank, flush]
  have noMargin : margin (c :: rest) = [] := by simp [margin, one, full, flush]
  have noBlank : hasBlankLine (c :: rest) = false := by simp [hasBlankLine, one, full]
  rw [dedent, noMargin, noBlank]
  rfl

/-- A line of blanks gets shorter, and so does any other if there is a margin. -/
theorem dedentLine_lt (some : (splitEnd line).1 ≠ []) (h : allBlank (splitEnd line).1 = true ∨ 0 < width) :
    (dedentLine width line).length < line.length := by
  have whole := congrArg List.length (splitEnd_append line)
  have positive := List.length_pos_of_ne_nil some
  rw [List.length_append] at whole
  unfold dedentLine
  dsimp only
  split
  · omega
  · rename_i full
    have wide := h.resolve_left full
    rw [List.length_append, List.length_drop]
    omega

/-- A text that stays as it is has no margin, and no line of it is blank without being empty. -/
theorem dedent_eq_self (h : dedent s = s) : margin s = [] ∧ hasBlankLine s = false := by
  have shorter (line : List Char) (mem : line ∈ rawLines s)
      (less : (dedentLine (margin s).length line).length < line.length) :
      (rawLines s).flatMap (dedentLine (margin s).length) ≠ s := by
    intro same
    have total := congrArg List.length same
    conv_rhs at total => rw [← flatten_rawLines s]
    rw [List.length_flatMap, List.length_flatten] at total
    exact absurd total (Nat.ne_of_lt (List.sum_lt_sum _ _ (fun line _ => dedentLine_le _ line)
      ⟨line, mem, less⟩))
  have bodies (line : List Char) (some : lineBody line ≠ []) : (splitEnd line).1 ≠ [] := by
    intro none
    apply some
    rw [lineBody]
    split
    · rename_i body split
      rw [split] at none
      exact none
    · rename_i body newline _ split
      rw [split] at none
      simp only at none
      simp [none]
  by_cases blank : hasBlankLine s = true
  · obtain ⟨body, mem, kind⟩ := List.any_eq_true.mp blank
    obtain ⟨line, listed, rfl⟩ := List.mem_map.mp mem
    simp only [Bool.and_eq_true, Bool.not_eq_true', List.isEmpty_eq_false_iff] at kind
    rw [allBlank_lineBody] at kind
    have less : (dedentLine (margin s).length line).length < _ :=
      dedentLine_lt (bodies line kind.1) (.inl kind.2)
    rw [dedent, if_neg (by simp [blank])] at h
    exact absurd h (shorter line listed less)
  · have none := Bool.eq_false_iff.mpr blank
    refine ⟨?_, none⟩
    by_contra wide
    obtain ⟨body, mem, full⟩ : ∃ body ∈ lines s, allBlank body = false := by
      by_contra all
      apply wide
      rw [margin_eq, indentation, List.filter_eq_nil_iff.mpr]
      · rfl
      · intro body mem full
        exact all ⟨body, mem, by simpa using full⟩
    obtain ⟨line, listed, rfl⟩ := List.mem_map.mp mem
    have some : lineBody line ≠ [] := by
      intro empty
      rw [empty] at full
      cases full
    have positive := List.length_pos_of_ne_nil wide
    rw [dedent, if_neg (by simp [wide])] at h
    exact absurd h (shorter line listed (dedentLine_lt (bodies line some) (.inr positive)))

theorem dedent_self (flush : margin s = []) (full : hasBlankLine s = false) : dedent s = s := by
  rw [dedent, flush, full]
  rfl

/-! ### Two texts -/

theorem lineBody_full (full : allBlank line = false) :
    allBlank (lineBody (line ++ ['\n'])) = false ∧
      (lineBody (line ++ ['\n'])).takeWhile isBlank = line.takeWhile isBlank := by
  rw [lineBody_newline]
  split
  · rename_i last
    have whole := List.dropLast_append_getLast? _ last
    have carriage : isBlank '\r' = true := by decide
    generalize line.dropLast = body at whole
    subst whole
    have bodyFull : allBlank body = false := by simpa [allBlank, carriage] using full
    refine ⟨bodyFull, ?_⟩
    rw [List.takeWhile_append, if_neg]
    intro all
    have blank : body.takeWhile isBlank = body := (List.takeWhile_prefix _).eq_of_length all
    rw [List.takeWhile_eq_self_iff] at blank
    rw [allBlank, List.all_eq_true.mpr blank] at bodyFull
    cases bodyFull
  · exact ⟨full, rfl⟩

/-- A newline after a text changes nothing about its lines that are not blank. -/
theorem lines_newline (full : hasBlankLine s = false) :
    indentation (lines (s ++ ['\n'])) = indentation (lines s) ∧ hasBlankLine (s ++ ['\n']) = false := by
  rcases rawLines_newline s with same | ⟨front, line, old, new, some, inLine⟩
  · have both : lines (s ++ ['\n']) = lines s ++ [[]] := by
      rw [lines, same, List.map_append]
      rfl
    rw [both, indentation_append, hasBlankLine, both, List.any_append]
    exact ⟨List.append_nil _, by rw [← hasBlankLine, full]; rfl⟩
  · have before : lines s = front.map lineBody ++ [line] := by
      rw [lines, old, List.map_append, List.map_singleton, lineBody_inLine inLine]
    rw [hasBlankLine, before, List.any_append, Bool.or_eq_false_iff] at full
    have lineFull : allBlank line = false := by simpa [some] using full.2
    obtain ⟨bodyFull, blanks⟩ := lineBody_full lineFull
    have after : lines (s ++ ['\n']) = front.map lineBody ++ [lineBody (line ++ ['\n'])] := by
      rw [lines, new, List.map_append, List.map_singleton]
    constructor
    · rw [before, after, indentation_append, indentation_append]
      simp [indentation, lineFull, bodyFull, blanks]
    · rw [hasBlankLine, after, List.any_append, full.1]
      simp [bodyFull]

theorem dedent_joined (h : dedent s = s) (h' : dedent t = t) :
    dedent (s ++ '\n' :: t) = s ++ '\n' :: t := by
  obtain ⟨flush, full⟩ := dedent_eq_self h
  obtain ⟨flush', full'⟩ := dedent_eq_self h'
  obtain ⟨same, full₁⟩ := lines_newline full
  have both : lines (s ++ '\n' :: t) = lines (s ++ ['\n']) ++ lines t := by
    rw [lines, rawLines_append, List.map_append]
    rfl
  rw [margin_eq] at flush flush'
  apply dedent_self
  · rw [margin_eq, both, indentation_append, same]
    exact common_append flush flush'
  · rw [hasBlankLine, both, List.any_append]
    exact Bool.or_eq_false_iff.mpr ⟨full₁, full'⟩

/-! ### The last line -/

/-- A line of the text starts where `rest` does. -/
def LineStart (s rest : List Char) : Prop := rest = s ∨ ('\n' :: rest) <:+ s

/-- The last line is not blank without being empty. -/
theorem full_of_dedent (h : dedent s = s) (start : LineStart s line) (inLine : '\n' ∉ line)
    (some : line ≠ []) : allBlank line = false := by
  have listed : line ∈ rawLines s := by
    rcases start with rfl | ⟨before, rfl⟩
    · rw [rawLines_line some inLine]
      exact List.mem_singleton_self _
    · rw [rawLines_append, rawLines_line some inLine]
      exact List.mem_append_right _ (List.mem_singleton_self _)
  have full := List.any_eq_false.mp (dedent_eq_self h).2 (lineBody line) (List.mem_map_of_mem listed)
  rw [lineBody_inLine inLine] at full
  simpa [some] using full

end Scratchpad.Text
