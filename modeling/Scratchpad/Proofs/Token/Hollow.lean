import Scratchpad.Proofs.Token.Joined

/-!
# Lines without tokens

A line of blanks, or of blanks and a comment, opens no block. It does if a carriage return or a backslash
that joins it to the next line stands before its end, and then the block may hold nothing: such a line is
hollow (`isHollow`). The lexer closes no line right after it opened a block unless the line is hollow
(`hollow_of_tokenize`).
-/

namespace Scratchpad.Token

/-- Is there no token up to the end of the line? Blanks, joined lines and a comment are none. -/
def tokenless : List Char → Bool
  | [] => true
  | '\\' :: '\n' :: rest => tokenless rest
  | '\\' :: '\r' :: '\n' :: rest => tokenless rest
  | c :: rest => c == '\n' || c == '#' || isInlineBlank c && tokenless rest

/-- A line that is indented and does not count as blank, although no token is on it. -/
def isHollow (line : List Char) : Bool :=
  let (width, size) := measure 0 0 line
  0 < width && (blankLine? (line.drop size)).isNone && tokenless (line.drop size)

def HasHollowLine (source : List Char) : Prop := ∃ line, Text.LineStart source line ∧ isHollow line = true

theorem hasHollowLine_iff (source : List Char) : HasHollowLine source ↔
    isHollow source = true ∨ ∃ back ∈ source.tails, back.head? = some '\n' ∧ isHollow back.tail = true := by
  constructor
  · rintro ⟨line, rfl | behind, hollow⟩
    · exact .inl hollow
    · exact .inr ⟨'\n' :: line, (List.mem_tails _ _).mpr behind, rfl, hollow⟩
  · rintro (hollow | ⟨back, mem, head, hollow⟩)
    · exact ⟨source, .inl rfl, hollow⟩
    · refine ⟨back.tail, .inr ?_, hollow⟩
      rw [List.cons_head?_tail head]
      exact (List.mem_tails _ _).mp mem

instance : DecidablePred HasHollowLine := fun source => decidable_of_iff' _ (hasHollowLine_iff source)

/-- What is passed as blank holds no token. -/
theorem tokenless_of_blank (scanned : scan c rest = .ok (.blank, n)) (h : tokenless (rest.drop (n - 1)) = true) :
    tokenless (c :: rest) = true := by
  cases scans_of_scan scanned with
  | blank kind =>
    simp only [isInlineBlank, Bool.or_eq_true, beq_iff_eq] at kind
    rcases kind with ((rfl | rfl) | rfl) | rfl <;> simpa [tokenless, isInlineBlank] using h
  | joined next =>
    unfold continuation? at next
    split at next
    · rename_i back same
      cases same
      cases next
      simpa [tokenless] using h
    · rename_i back same
      cases same
      cases next
      simpa [tokenless] using h
    · cases next
  | comment sign =>
    subst sign
    simp [tokenless]

/-! ### Neighbours -/

section Neighbours

variable {ts more : List Token}

theorem pair_concat {a b x : Token} (h : [a, b] <:+: ts ++ [x]) :
    [a, b] <:+: ts ∨ (ts.getLast? = some a ∧ x = b) := by
  rcases List.infix_concat_iff.mp h with ⟨front, same⟩ | before
  · obtain ⟨rfl, last⟩ := List.append_inj' (show (front ++ [a]) ++ [b] = ts ++ [x] by simpa using same) rfl
    exact .inr ⟨List.getLast?_concat, (List.cons.inj last).1.symm⟩
  · exact .inl before

/-- With no indents after it, an indent at the end has just one new neighbour. -/
theorem pair_append (none : .indent ∉ more) (h : [.indent, t] <:+: ts ++ more) :
    [.indent, t] <:+: ts ∨ (ts.getLast? = some .indent ∧ more.head? = some t) := by
  induction more generalizing ts with
  | nil => exact .inl (by simpa using h)
  | cons x more ih =>
    obtain ⟨notHere, notLater⟩ := not_or.mp (mt List.mem_cons.mpr none)
    rw [List.append_cons] at h
    rcases ih notLater h with before | ⟨last, -⟩
    · exact (pair_concat before).imp id fun ⟨last, same⟩ => ⟨last, congrArg some same⟩
    · rw [List.getLast?_concat] at last
      exact absurd (Option.some.inj last).symm notHere

theorem getLast?_append (none : .indent ∉ more) (h : (ts ++ more).getLast? = some .indent) :
    ts.getLast? = some .indent := by
  rcases List.eq_nil_or_concat' more with rfl | ⟨front, x, rfl⟩
  · simpa using h
  · rw [← List.append_assoc, List.getLast?_concat] at h
    exact absurd (List.mem_append_right front (by simp [Option.some.inj h])) none

end Neighbours

/-! ### What the lexer keeps -/

namespace State

variable {s s' : State} {source : List Char}

/-- After an indent there are no tokens yet, and what closed a line after one was a hollow line. -/
structure Watched (source : List Char) (s : State) : Prop where
  opened : s.kinds.getLast? = some .indent →
    s.brackets = [] ∧ (tokenless s.cursor.rest = true → HasHollowLine source)
  past : ∀ t, endsLine t = true → [.indent, t] <:+: s.kinds → HasHollowLine source

theorem watched_first (source : List Char) : (first source).Watched source where
  opened last := nomatch last
  past t _ inside := absurd (List.IsInfix.length_le inside) (by simp [kinds, first])

theorem Settled.latest (h : s.Settled source) (lineStart : s.atLineStart = true) :
    s.kinds.getLast? ≠ some .indent := by
  intro last
  have ended := h.ended lineStart
  rw [kinds, List.getLast?_map, List.getLast?_reverse, Option.map_eq_some_iff] at last
  obtain ⟨p, found, kind⟩ := last
  rw [found, Option.any_some, kind] at ended
  cases ended

theorem Watched.turn (h : s.Watched source) (settled : s.Settled source) (turn : s.Turn s') :
    s'.Watched source := by
  cases turn with
  | line outside blank lineStart => exact ⟨fun last => absurd last (settled.latest lineStart), h.past⟩
  | indent outside width wider lineStart measured full =>
    have kinds : State.kinds { s.within.push s.cursor .indent with indents := width :: s.indents } =
        s.kinds ++ [.indent] := kinds_of_tokens rfl
    refine ⟨fun _ => ⟨outside, fun none => ?_⟩, fun t ends inside => ?_⟩
    · have some : s.cursor.rest ≠ [] := fun empty => by
        rw [empty, List.drop_nil] at full
        cases full
      refine ⟨s.cursor.rest, (settled.start lineStart).resolve_left some, ?_⟩
      have positive : 0 < (measure 0 0 s.cursor.rest).1 := by omega
      have none : tokenless (s.cursor.rest.drop (measure 0 0 s.cursor.rest).2) = true := by
        simpa [push, State.within] using none
      simp [isHollow, positive, full, none]
    · rw [kinds] at inside
      rcases pair_concat inside with before | ⟨-, rfl⟩
      · exact h.past t ends before
      · cases ends
  | dedent outside n le lineStart =>
    have kinds : State.kinds { s.within with
        tokens := List.replicate n ⟨.dedent, s.cursor.spanTo s.within.cursor⟩ ++ s.tokens
        indents := s.indents.drop n } = s.kinds ++ List.replicate n .dedent := kinds_of_replicate rfl
    have none : Token.indent ∉ List.replicate n Token.dedent := by simp [List.mem_replicate]
    refine ⟨fun last => ?_, fun t ends inside => ?_⟩
    · rw [kinds] at last
      exact absurd (getLast?_append none last) (settled.latest lineStart)
    · rw [kinds] at inside
      rcases pair_append none inside with before | ⟨last, -⟩
      · exact h.past t ends before
      · exact absurd last (settled.latest lineStart)
  | @blank c rest n here scanned within =>
    refine ⟨fun last => (h.opened last).imp_right fun hollow none => hollow ?_, h.past⟩
    rw [here]
    refine tokenless_of_blank scanned ?_
    simpa [passing, here] using none
  | joined inside here scanned within =>
    exact ⟨fun last => absurd (h.opened last).1 inside, h.past⟩
  | @newline c rest n outside here scanned within =>
    have kinds : State.kinds { (s.passing n).push s.cursor .newline with atLineStart := true } =
        s.kinds ++ [.newline] := kinds_of_tokens rfl
    have none : Token.indent ∉ [Token.newline] := by simp
    refine ⟨fun last => ?_, fun t ends inside => ?_⟩
    · rw [kinds, List.getLast?_concat] at last
      cases last
    · rw [kinds] at inside
      rcases pair_append none inside with before | ⟨last, -⟩
      · exact h.past t ends before
      · have sign : c = '\n' := by
          cases scans_of_scan scanned with
          | newline sign => exact sign
        refine (h.opened last).2 ?_
        rw [here, sign]
        simp [tokenless]
  | @token c rest t n s' here scanned kept within =>
    obtain ⟨-, -, -, tokens⟩ := accept_ok kept
    have kinds := kinds_of_tokens (s := s) tokens
    have inLine := isLayout_of_scan scanned
    refine ⟨fun last => ?_, fun t' ends inside => ?_⟩
    · rw [kinds, List.getLast?_concat] at last
      cases last
      cases inLine
    · rw [kinds] at inside
      rcases pair_concat inside with before | ⟨-, rfl⟩
      · exact h.past t' ends before
      · cases t <;> first | cases ends; done | cases inLine

end State

/-- The lexer closes a line right after it opened a block only where a line is hollow. -/
theorem hollow_of_tokenize (h : tokenize flags source = .ok tokens) (ends : State.endsLine t = true)
    (inside : [.indent, t] <:+: tokens.map (·.token)) : HasHollowLine source := by
  obtain ⟨s, read, outside, rfl⟩ := tokenize_ok h
  have kept : s.Settled source ∧ s.Watched source :=
    State.keeps_of_run (I := fun s => s.Settled source ∧ s.Watched source)
      (fun before turn => ⟨before.1.turn turn, before.2.turn before.1 turn⟩)
      ⟨State.settled_first source, State.watched_first source⟩ read
  have none : Token.indent ∉ lineEnd s.kinds ++ List.replicate (s.closing flags) Token.dedent := by
    unfold lineEnd
    split <;> simp [List.mem_replicate]
  rw [List.map_append, List.map_replicate, State.ended_kinds, List.append_assoc] at inside
  rcases pair_append none inside with before | ⟨last, -⟩
  · exact kept.2.past t ends before
  · refine (kept.2.opened last).2 ?_
    rw [State.rest_of_run (Nat.le_refl _) read]
    rfl

end Scratchpad.Token
