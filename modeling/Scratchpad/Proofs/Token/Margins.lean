import Scratchpad.Proofs.Text.Trimmed
import Scratchpad.Proofs.Token.Significant

/-!
# Tokens and margins

Blanks at the front of lines make no tokens. Where a text is read as tokens, the text less some of these
blanks is read as the same tokens (`Reads.trimmed`), but for the contents of texts in quotes, which may go
on over several lines.
-/

namespace Scratchpad.Token

open Text (Trimmed)

/-- The token, whatever a text in quotes holds. -/
def unworded : Token → Token
  | .text _ => .text ""
  | t => t

theorem unworded_semicolon : unworded t = .symbol .semicolon ↔ t = .symbol .semicolon := by
  cases t <;> simp [unworded]

theorem getLast?_unworded (ts : List Token) :
    (ts.map unworded).getLast? = some (.symbol .semicolon) ↔ ts.getLast? = some (.symbol .semicolon) := by
  rw [List.getLast?_map, Option.map_eq_some_iff]
  simp [unworded_semicolon]

def Lexeme.unworded : Lexeme → Lexeme
  | .token t => .token t.unworded
  | lexeme => lexeme

/-! ### Blanks -/

/-- A blank that does not count as one within a line is no lexeme. -/
theorem scan_blank (blank : Text.isBlank c = true) (outside : isInlineBlank c = false) (inLine : c ≠ '\n') :
    scan c rest = .error (.unexpectedChar c, 1) := by
  have none : symbol? (c :: rest) = none := by
    have others : ∀ b ∈ Symbol.all, (b.text.toList.head?.any (!Text.isBlank ·)) = true := by decide +kernel
    refine List.find?_eq_none.mpr fun b mem starts => ?_
    have other := others b mem
    cases piece : b.text.toList with
    | nil =>
      rw [piece] at other
      cases other
    | cons d ds =>
      rw [piece] at other starts
      simp only [List.isPrefixOf, Bool.and_eq_true, beq_iff_eq] at starts
      simp [starts.1, blank] at other
  have others : c ≠ '\\' ∧ c ≠ '#' ∧ isQuote c = false ∧ c.isDigit = false ∧ c ≠ '.' ∧ c ≠ 'r' ∧ c ≠ 'R' ∧
      isNameStart c = false := by
    refine Text.of_isBlank (p := fun c => c ≠ '\\' ∧ c ≠ '#' ∧ isQuote c = false ∧ c.isDigit = false ∧ c ≠ '.' ∧
      c ≠ 'r' ∧ c ≠ 'R' ∧ isNameStart c = false) ?_ blank
    decide +kernel
  obtain ⟨backslash, comment, quote, digit, point, raw, raw', word⟩ := others
  unfold scan
  simp [outside, continuation?_other backslash, inLine, comment, quote, startsNumber, digit, point,
    startsRawText, raw, raw', word, none]

/-! ### Lexemes within a line -/

/-- What is no text in quotes ends with its line. -/
theorem scan_line (ends : EndsLine more) (backslash : c ≠ '\\') (unquoted : isQuote c = false)
    (plain : startsRawText c rest = false) : scan c (rest ++ more) = scan c rest := by
  have code := ends.endsCode
  have number : startsNumber c (rest ++ more) = startsNumber c rest := by
    rw [startsNumber, startsNumber, any_head?_longer (ends.stops rfl)]
  have raw : startsRawText c (rest ++ more) = startsRawText c rest := by
    rw [startsRawText, startsRawText, any_head?_longer (ends.stops rfl)]
  have name : scanName (c :: (rest ++ more)) = scanName (c :: rest) := by
    unfold scanName
    rw [← List.cons_append, takeWhile_longer (ends.stops (by decide +kernel))]
  have comment : commentLength (c :: (rest ++ more)) = commentLength (c :: rest) :=
    commentLength_longer ends (c :: rest)
  have sign : symbol? (c :: (rest ++ more)) = symbol? (c :: rest) := symbol?_longer code (c :: rest)
  unfold scan
  simp only [continuation?_other backslash, unquoted, plain, number, raw, name, comment, sign,
    scanNumber_longer code, Bool.false_eq_true, if_false]

/-! ### Texts in quotes -/

theorem isBlank_quote (quoted : isQuote c = true) : Text.isBlank c = false := by
  rcases Bool.or_eq_true_iff.mp quoted with is | is <;> rw [beq_iff_eq.mp is] <;> rfl

theorem take_two_trimmed (quoted : isQuote quote = true) (trim : Trimmed false s t) :
    t.take 2 = [quote, quote] ↔ s.take 2 = [quote, quote] := by
  obtain ⟨piece, s', t', -, rfl, rfl, ends, ends', -⟩ := trim.cut
  rw [take_two_longer (EndsLine.endsCode ends) quoted, take_two_longer (EndsLine.endsCode ends') quoted]

/-- A text closes `k` characters on, and so it does trimmed, `k'` characters on. -/
def ClosesTrimmed (raw triple : Bool) (quote : Char) (size n : Nat) (s t : List Char) : Prop :=
  ∃ k, n = size + k ∧ ∀ size', ∃ body k' start,
    scanBody raw triple quote size' t = .ok (body, size' + k') ∧ Trimmed start (s.drop k) (t.drop k')

/-- A text that goes on after `piece`, which stands for `front`. -/
theorem ClosesTrimmed.goOn (piece front : List Char)
    (opens : ∀ r ∈ [s, t], ∀ size, scanBody raw triple quote size (piece ++ r) =
      (scanBody raw triple quote (size + piece.length) r).map fun (body, size) => (front ++ body, size))
    (ih : ∀ {body n}, scanBody raw triple quote (size + piece.length) s = .ok (body, n) →
      ClosesTrimmed raw triple quote (size + piece.length) n s t)
    (h : scanBody raw triple quote size (piece ++ s) = .ok (body, n)) :
    ClosesTrimmed raw triple quote size n (piece ++ s) (piece ++ t) := by
  simp only [List.mem_cons, List.not_mem_nil, or_false, forall_eq_or_imp, forall_eq] at opens
  rw [opens.1] at h
  obtain ⟨⟨tail, n'⟩, found, same⟩ := map_ok h
  cases same
  obtain ⟨k, rfl, closes⟩ := ih found
  refine ⟨piece.length + k, Nat.add_assoc .., fun size' => ?_⟩
  obtain ⟨body, k', start, found', later⟩ := closes (size' + piece.length)
  refine ⟨front ++ body, piece.length + k', start, ?_, ?_⟩
  · rw [opens.2, found', ← Nat.add_assoc]
    rfl
  · rwa [List.drop_length_add_append, List.drop_length_add_append]

/-- A text that is closed is closed when it is trimmed. -/
theorem scanBody_trimmed (quoted : isQuote quote = true) (trim : Trimmed start s t)
    (h : scanBody raw triple quote size s = .ok (body, n)) : ClosesTrimmed raw triple quote size n s t := by
  have solid := isBlank_quote quoted
  induction size, s using scanBody.induct triple quote generalizing body n t start with
  | case1 => cases h
  | case2 size rest single =>
    obtain ⟨t', rfl, later⟩ := trim.kept solid
    rw [scanBody.eq_def] at h
    simp only [if_true, single] at h
    cases h
    refine ⟨1, rfl, fun size' => ⟨[], 1, false, ?_, later⟩⟩
    rw [scanBody.eq_def]
    simp only [if_true, single]
  | case3 size rest long closes =>
    obtain ⟨t', rfl, later⟩ := trim.kept solid
    rw [scanBody.eq_def] at h
    simp only [if_true, long, closes] at h
    cases h
    have closes' := (take_two_trimmed quoted later).mpr closes
    obtain ⟨s₂, rfl⟩ : ∃ s₂, rest = [quote, quote] ++ s₂ := ⟨rest.drop 2, by rw [← closes, List.take_append_drop]⟩
    obtain ⟨t₁, rfl, later₁⟩ := later.kept solid
    obtain ⟨t₂, rfl, later₂⟩ := later₁.kept solid
    refine ⟨3, rfl, fun size' => ⟨[], 3, false, ?_, later₂⟩⟩
    rw [scanBody.eq_def]
    simp only [if_true, long, closes']
    rfl
  | case4 size rest long unclosed ih =>
    obtain ⟨t', rfl, later⟩ := trim.kept solid
    have unclosed' := mt (take_two_trimmed quoted later).mp unclosed
    refine ClosesTrimmed.goOn [quote] [quote] (fun r mem size => ?_) (ih later) h
    have unclosed : r.take 2 ≠ [quote, quote] := by
      rcases List.mem_pair.mp mem with rfl | rfl <;> assumption
    rw [List.singleton_append, scanBody.eq_def]
    simp only [if_true, long, unclosed, Bool.false_eq_true, if_false]
    rfl
  | case5 size c rest other ended =>
    rw [scanBody.eq_def] at h
    simp only [if_neg other, ended, if_true] at h
    cases h
  | case6 size other inside =>
    rw [scanBody.eq_def] at h
    simp only [if_neg other, inside, if_true] at h
    cases h
  | case7 size c rest other inside ih =>
    obtain ⟨t₁, rfl, later₁⟩ := trim.kept rfl
    obtain ⟨t', start', rfl, later⟩ := later₁.next
    refine ClosesTrimmed.goOn ['\\', c] (escape raw c) (fun r _ size => ?_) (ih later) h
    rw [List.cons_append, scanBody.eq_def]
    simp only [if_neg other, inside, if_true, Bool.false_eq_true, if_false]
    rfl
  | case8 size c rest other inside plain ih =>
    have opens (r : List Char) (size : Nat) : scanBody raw triple quote size (c :: r) =
        (scanBody raw triple quote (size + 1) r).map fun (body, size) => ([c] ++ body, size) := by
      rw [scanBody.eq_def]
      simp only [if_neg other, inside, if_neg plain, Bool.false_eq_true, if_false]
    cases trim with
    | newline later => exact ClosesTrimmed.goOn ['\n'] ['\n'] (fun r _ => opens r) (ih later) h
    | char inLine later => exact ClosesTrimmed.goOn [c] [c] (fun r _ => opens r) (ih later) h
    | blank kind inLine later =>
      rw [opens] at h
      obtain ⟨⟨tail, n'⟩, found, same⟩ := map_ok h
      cases same
      obtain ⟨k, rfl, closes⟩ := ih later found
      exact ⟨k + 1, by omega, closes⟩

theorem scanText_trimmed (quoted : isQuote quote = true) (trim : Trimmed false s t)
    (h : scanText raw size (quote :: s) = .ok (word, n)) :
    ∃ k k' w start, n = size + 1 + k ∧ scanText raw size (quote :: t) = .ok (.text w, size + 1 + k') ∧
      Trimmed start (s.drop k) (t.drop k') := by
  unfold scanText at h ⊢
  dsimp only at h ⊢
  obtain ⟨⟨chars, n'⟩, found, same⟩ := map_ok h
  cases same
  by_cases three : s.take 2 = [quote, quote]
  · rw [if_pos three] at found
    rw [if_pos ((take_two_trimmed quoted trim).mpr three)]
    obtain ⟨s₂, rfl⟩ : ∃ s₂, s = [quote, quote] ++ s₂ := ⟨s.drop 2, by rw [← three, List.take_append_drop]⟩
    have solid := isBlank_quote quoted
    obtain ⟨t₁, rfl, later₁⟩ := trim.kept solid
    obtain ⟨t₂, rfl, later₂⟩ := later₁.kept solid
    obtain ⟨k, rfl, closes⟩ := scanBody_trimmed quoted later₂ found
    obtain ⟨body, k', start, found', later⟩ := closes (size + 3)
    refine ⟨k + 2, k' + 2, String.ofList body, start, by omega, ?_, later⟩
    change Except.map _ (scanBody raw true quote (size + 3) t₂) = _
    rw [found', show size + 3 + k' = size + 1 + (k' + 2) by omega]
    rfl
  · rw [if_neg three] at found
    rw [if_neg (mt (take_two_trimmed quoted trim).mp three)]
    obtain ⟨k, rfl, closes⟩ := scanBody_trimmed quoted trim found
    obtain ⟨body, k', start, found', later⟩ := closes (size + 1)
    exact ⟨k, k', String.ofList body, start, rfl, by rw [found']; rfl, later⟩

/-! ### All lexemes -/

theorem scan_quote (quoted : isQuote c = true) (rest : List Char) :
    scan c rest = (scanText false 0 (c :: rest)).map fun (t, size) => (.token t, size) := by
  rcases Bool.or_eq_true_iff.mp quoted with is | is <;> rw [beq_iff_eq.mp is] <;> rfl

theorem scan_raw (raw : startsRawText c rest = true) :
    scan c rest = (scanText true 1 rest).map fun (t, size) => (.token t, size) := by
  have mark : c = 'r' ∨ c = 'R' := by
    simpa using (Bool.and_eq_true_iff.mp raw).1
  have other : c ≠ '\\' := by rcases mark with rfl | rfl <;> decide
  unfold scan
  dsimp only
  rw [continuation?_other other, raw]
  rcases mark with rfl | rfl <;> rfl

/-- A lexeme within a line. -/
theorem scan_trimmed_inLine (h : scan c s = .ok (lexeme, n)) (inLine : c ≠ '\n') (trim : Trimmed false s t) :
    ∃ lexeme' n' start, scan c t = .ok (lexeme', n') ∧ lexeme'.unworded = lexeme.unworded ∧
      Trimmed start (s.drop (n - 1)) (t.drop (n' - 1)) := by
  by_cases backslash : c = '\\'
  · subst backslash
    cases next : continuation? ('\\' :: s) with
    | none =>
      rw [scan_backslash next] at h
      cases h
    | some size =>
      rw [scan_joined next] at h
      cases h
      unfold continuation? at next
      split at next
      · rename_i same
        cases next
        cases same
        cases trim with
        | newline later => exact ⟨.blank, 2, true, scan_joined rfl, rfl, later⟩
        | char inLine => exact absurd rfl inLine
      · rename_i same
        cases next
        cases same
        cases trim with
        | char _ later =>
          cases later with
          | newline later => exact ⟨.blank, 3, true, scan_joined rfl, rfl, later⟩
          | char inLine => exact absurd rfl inLine
      · cases next
  by_cases quoted : isQuote c = true
  · rw [scan_quote quoted] at h
    obtain ⟨⟨word, size⟩, found, same⟩ := map_ok h
    cases same
    obtain ⟨w₀, rfl⟩ := scanText_ok found
    obtain ⟨k, k', w, start, rfl, found', later⟩ := scanText_trimmed quoted trim found
    refine ⟨.token (.text w), 0 + 1 + k', start, by rw [scan_quote quoted, found']; rfl, rfl, ?_⟩
    simpa using later
  by_cases raw : startsRawText c s = true
  · rw [scan_raw raw] at h
    obtain ⟨⟨word, size⟩, found, same⟩ := map_ok h
    cases same
    obtain ⟨w₀, rfl⟩ := scanText_ok found
    cases s with
    | nil => cases found
    | cons quote s =>
      have quoted : isQuote quote = true := (Bool.and_eq_true_iff.mp raw).2
      obtain ⟨t', rfl, trim'⟩ := trim.kept (isBlank_quote quoted)
      obtain ⟨k, k', w, start, rfl, found', later⟩ := scanText_trimmed quoted trim' found
      have raw' : startsRawText c (quote :: t') = true := raw
      refine ⟨.token (.text w), 1 + 1 + k', start, by rw [scan_raw raw', found']; rfl, rfl, ?_⟩
      simpa [Nat.add_comm, Nat.add_left_comm] using later
  · obtain ⟨piece, s', t', within, rfl, rfl, ends, ends', later⟩ := trim.cut
    have unquoted := Bool.eq_false_iff.mpr quoted
    have plain : startsRawText c piece = false := by
      rw [startsRawText, ← any_head?_longer (EndsLine.stops ends rfl)]
      exact Bool.eq_false_iff.mpr raw
    rw [scan_line ends backslash unquoted plain] at h
    obtain ⟨le, longer⟩ := scan_longer ends' h
    refine ⟨lexeme, n, false, longer, rfl, ?_⟩
    rw [List.drop_append_of_le_length (by omega), List.drop_append_of_le_length (by omega)]
    exact Trimmed.line (fun mem => within (List.mem_of_mem_drop mem)) later

/-- A lexeme of a text is one of the trimmed text, or a blank that is taken away. -/
theorem scan_trimmed (h : scan c s = .ok (lexeme, n)) (trim : Trimmed start (c :: s) t) :
    (lexeme = .blank ∧ Trimmed true (s.drop (n - 1)) t) ∨
      ∃ t' lexeme' n' start', t = c :: t' ∧ scan c t' = .ok (lexeme', n') ∧ lexeme'.unworded = lexeme.unworded ∧
        Trimmed start' (s.drop (n - 1)) (t'.drop (n' - 1)) := by
  cases trim with
  | newline later =>
    rw [State.scan_newline] at h
    cases h
    exact .inr ⟨_, .newline, 1, true, rfl, State.scan_newline _, rfl, later⟩
  | char inLine later =>
    obtain ⟨lexeme', n', start', found, same, later'⟩ := scan_trimmed_inLine h inLine later
    exact .inr ⟨_, lexeme', n', start', rfl, found, same, later'⟩
  | blank kind inLine later =>
    cases inline : isInlineBlank c with
    | false =>
      rw [scan_blank kind inline inLine] at h
      cases h
    | true =>
      rw [scan_inlineBlank inline] at h
      cases h
      exact .inl ⟨rfl, later⟩

/-- A trimmed text is read as the same tokens. -/
theorem Reads.trimmed (h : Reads s ts) (trim : Trimmed start s t) :
    ∃ ts', Reads t ts' ∧ ts'.map unworded = ts.map unworded := by
  induction h generalizing start t with
  | nil =>
    cases trim
    exact ⟨[], .nil, rfl⟩
  | blank scanned _ ih =>
    rcases scan_trimmed scanned trim with ⟨-, later⟩ | ⟨t', lexeme', n', start', rfl, scanned', same, later⟩
    · exact ih later
    · obtain ⟨ts', reads, alike⟩ := ih later
      cases lexeme' <;> cases same
      exact ⟨ts', .blank scanned' reads, alike⟩
  | newline scanned _ ih =>
    rcases scan_trimmed scanned trim with ⟨other, -⟩ | ⟨t', lexeme', n', start', rfl, scanned', same, later⟩
    · cases other
    · obtain ⟨ts', reads, alike⟩ := ih later
      cases lexeme' <;> cases same
      exact ⟨ts', .newline scanned' reads, alike⟩
  | token scanned _ ih =>
    rcases scan_trimmed scanned trim with ⟨other, -⟩ | ⟨t', lexeme', n', start', rfl, scanned', same, later⟩
    · cases other
    · obtain ⟨ts', reads, alike⟩ := ih later
      cases lexeme' with
      | token w =>
        refine ⟨w :: ts', .token scanned' reads, ?_⟩
        rw [List.map_cons, List.map_cons, alike, Lexeme.token.inj same]
      | _ => cases same

end Scratchpad.Token
