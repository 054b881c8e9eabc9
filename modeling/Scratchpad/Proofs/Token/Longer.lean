import Scratchpad.Proofs.Token.Turns

/-!
# Scanning a longer text

A lexeme does not depend on what comes after the end of its line, or on a comment behind it. Where a
lexeme stands at the front of a text, the same lexeme stands at the front of that text with more lines
after it (`scan_longer`), and with a comment after it unless it is a comment itself (`scan_code_longer`).
Only a text in quotes can go on over the end of a line, and then its end is in the text.
-/

namespace Scratchpad.Token

/-- Nothing, or the end of a line and what follows it. -/
def EndsLine (more : List Char) : Prop := ∀ c ∈ more.head?, c = '\n'

/-- Nothing, or the end of a line or a comment and what follows it. -/
def EndsCode (more : List Char) : Prop := ∀ c ∈ more.head?, c = '\n' ∨ c = '#'

theorem EndsLine.endsCode (h : EndsLine more) : EndsCode more := fun c mem => .inl (h c mem)

theorem EndsLine.stops {p : Char → Bool} (ends : EndsLine more) (newline : p '\n' = false) :
    ∀ c ∈ more.head?, p c = false := fun c mem => ends c mem ▸ newline

theorem EndsCode.stops {p : Char → Bool} (ends : EndsCode more) (newline : p '\n' = false)
    (comment : p '#' = false) : ∀ c ∈ more.head?, p c = false := by
  intro c mem
  rcases ends c mem with rfl | rfl
  · exact newline
  · exact comment

theorem takeWhile_longer {p : Char → Bool} (stops : ∀ c ∈ more.head?, p c = false) (s : List Char) :
    (s ++ more).takeWhile p = s.takeWhile p := by
  induction s with
  | nil =>
    cases more with
    | nil => rfl
    | cons c rest => simp [stops c rfl]
  | cons c s ih => simp [List.takeWhile_cons, ih]

theorem any_head?_longer {p : Char → Bool} (stops : ∀ c ∈ more.head?, p c = false) (s : List Char) :
    (s ++ more).head?.any p = s.head?.any p := by
  cases s with
  | nil =>
    cases more with
    | nil => rfl
    | cons c rest => simp [stops c rfl]
  | cons c s => rfl

section

variable {more : List Char} (ends : EndsCode more)

include ends

/-! ### Numbers -/

theorem takeDigits_longer (s : List Char) : takeDigits (s ++ more) = takeDigits s := by
  induction s with
  | nil =>
    cases more with
    | nil => rfl
    | cons c rest => rcases ends c rfl with rfl | rfl <;> rfl
  | cons c s ih =>
    rw [List.cons_append, takeDigits, takeDigits, ih, any_head?_longer (ends.stops rfl rfl)]

omit ends in
theorem takeDigits_le (s : List Char) : (takeDigits s).2 ≤ s.length := by
  induction s with
  | nil => exact Nat.le_refl _
  | cons c s ih =>
    rw [takeDigits]
    split
    · exact Nat.succ_le_succ ih
    · split
      · exact Nat.succ_le_succ ih
      · exact Nat.zero_le _

theorem scanFraction_longer (s : List Char) : scanFraction (s ++ more) = scanFraction s := by
  cases s with
  | nil =>
    cases more with
    | nil => rfl
    | cons c rest => rcases ends c rfl with rfl | rfl <;> rfl
  | cons c s =>
    by_cases point : c = '.'
    · subst point
      rw [List.cons_append, scanFraction, scanFraction, takeDigits_longer ends]
    · have none (s : List Char) : scanFraction (c :: s) = (none, 0) := by
        unfold scanFraction
        split
        · exact absurd (List.cons.inj ‹_›).1 point
        · rfl
      rw [List.cons_append, none, none]

omit ends in
theorem scanFraction_le (s : List Char) : (scanFraction s).2 ≤ s.length := by
  unfold scanFraction
  split
  · exact Nat.succ_le_succ (takeDigits_le _)
  · exact Nat.zero_le _

theorem scanExponent_longer (s : List Char) : scanExponent (s ++ more) = scanExponent s := by
  cases s with
  | nil =>
    cases more with
    | nil => rfl
    | cons c rest => rcases ends c rfl with rfl | rfl <;> rfl
  | cons e rest =>
    have sign : ((rest ++ more).take 1).filter (fun c => c == '+' || c == '-') =
        (rest.take 1).filter fun c => c == '+' || c == '-' := by
      cases rest with
      | nil =>
        cases more with
        | nil => rfl
        | cons c rest => rcases ends c rfl with rfl | rfl <;> rfl
      | cons c rest => rfl
    have le : ((rest.take 1).filter fun c => c == '+' || c == '-').length ≤ rest.length :=
      (List.length_filter_le _ _).trans (by simp)
    rw [List.cons_append, scanExponent, scanExponent]
    dsimp only
    rw [sign, List.drop_append_of_le_length le, any_head?_longer (ends.stops rfl rfl), takeDigits_longer ends]

omit ends in
theorem scanExponent_le (s : List Char) : (scanExponent s).2 ≤ s.length := by
  unfold scanExponent
  split
  · rename_i e rest
    dsimp only
    split
    · split
      · have size := takeDigits_le (rest.drop ((rest.take 1).filter fun c => c == '+' || c == '-').length)
        have le : ((rest.take 1).filter fun c => c == '+' || c == '-').length ≤ rest.length :=
          (List.length_filter_le _ _).trans (by simp)
        rw [List.length_drop] at size
        dsimp only [List.length_cons]
        omega
      · exact Nat.zero_le _
    · exact Nat.zero_le _
  · exact Nat.zero_le _

theorem endNumber_longer (piece : List Char) (size : Nat) (rest : List Char) (value : Option Token) :
    endNumber piece size (rest ++ more) value = endNumber piece size rest value := by
  unfold endNumber
  rw [takeWhile_longer (ends.stops (by decide +kernel) (by decide +kernel))]

omit ends in
theorem endNumber_size {piece : List Char} (h : endNumber piece size rest value = .ok (t, n)) :
    n = size := by
  unfold endNumber at h
  dsimp only at h
  split at h
  · cases h
  · split at h <;> cases h
    rfl

theorem scanBased_longer (le : base ≤ 36) (s : List Char) :
    scanBased base mark (s ++ more) = scanBased base mark s := by
  have stops (c : Char) (value : Decimal.digitValue c = 36) (other : (c == '_') = false) :
      (decide (Decimal.digitValue c < base) || c == '_') = false := by
    rw [value, decide_eq_false (Nat.not_lt.mpr le), other]
    rfl
  unfold scanBased
  rw [takeWhile_longer (ends.stops (stops _ (by decide +kernel) rfl) (stops _ (by decide +kernel) rfl))]
  dsimp only
  rw [List.drop_append_of_le_length (List.IsPrefix.length_le (List.takeWhile_prefix _))]
  simp only [endNumber_longer ends]

omit ends in
theorem scanBased_le (h : scanBased base mark s = .ok (t, n)) : n ≤ s.length + 2 := by
  unfold scanBased at h
  dsimp only at h
  split at h
  · cases h
  · have run := List.IsPrefix.length_le (List.takeWhile_prefix (l := s)
      fun c => decide (Decimal.digitValue c < base) || c == '_')
    rw [endNumber_size h]
    omega

theorem scanDecimal_longer (s : List Char) : scanDecimal (s ++ more) = scanDecimal s := by
  have whole := takeDigits_le s
  have fraction := scanFraction_le (s.drop (takeDigits s).2)
  have exponent := scanExponent_le (s.drop ((takeDigits s).2 + (scanFraction (s.drop (takeDigits s).2)).2))
  rw [List.length_drop] at fraction exponent
  unfold scanDecimal
  dsimp only
  rw [takeDigits_longer ends, List.drop_append_of_le_length whole, scanFraction_longer ends,
    List.drop_append_of_le_length (by omega), scanExponent_longer ends,
    List.drop_append_of_le_length (by omega), endNumber_longer ends]

omit ends in
theorem scanDecimal_le (h : scanDecimal s = .ok (t, n)) : n ≤ s.length := by
  have whole := takeDigits_le s
  have fraction := scanFraction_le (s.drop (takeDigits s).2)
  have exponent := scanExponent_le (s.drop ((takeDigits s).2 + (scanFraction (s.drop (takeDigits s).2)).2))
  rw [List.length_drop] at fraction exponent
  unfold scanDecimal at h
  dsimp only at h
  rw [endNumber_size h]
  omega

omit ends in
theorem base?_le (h : base? c = some base) : base ≤ 36 := by
  unfold base? at h
  split at h
  · cases h
    decide
  · split at h
    · cases h
      decide
    · split at h <;> cases h
      decide

omit ends in
theorem scanNumber_other (other : c ≠ '0') (rest : List Char) :
    scanNumber (c :: rest) = scanDecimal (c :: rest) := by
  unfold scanNumber
  split
  · exact absurd (List.cons.inj ‹_›).1 other
  · rfl

theorem scanNumber_longer (c : Char) (rest : List Char) :
    scanNumber (c :: (rest ++ more)) = scanNumber (c :: rest) := by
  by_cases zero : c = '0'
  · subst zero
    have decimal := scanDecimal_longer ends ('0' :: rest)
    cases rest with
    | nil =>
      cases more with
      | nil => rfl
      | cons d rest =>
        rcases ends d rfl with rfl | rfl <;> exact decimal
    | cons mark rest =>
      simp only [List.cons_append, scanNumber]
      cases announced : base? mark with
      | some base => exact scanBased_longer ends (base?_le announced) rest
      | none => exact decimal
  · rw [scanNumber_other zero, scanNumber_other zero]
    exact scanDecimal_longer ends (c :: rest)

omit ends in
theorem scanNumber_le (h : scanNumber s = .ok (t, n)) : n ≤ s.length := by
  unfold scanNumber at h
  split at h
  · split at h
    · exact scanBased_le h
    · exact scanDecimal_le h
  · exact scanDecimal_le h

/-! ### Texts -/

theorem take_two_longer (quoted : isQuote quote = true) (s : List Char) :
    (s ++ more).take 2 = [quote, quote] ↔ s.take 2 = [quote, quote] := by
  have other : ∀ c rest, more = c :: rest → c ≠ quote := by
    rintro c rest rfl rfl
    rcases ends c rfl with rfl | rfl <;> cases quoted
  match s with
  | [] =>
    cases more with
    | nil => rfl
    | cons c rest => simp [other c rest rfl]
  | [a] =>
    cases more with
    | nil => rfl
    | cons c rest => simp [other c rest rfl]
  | a :: b :: s => simp

omit ends in
/-- The rest of a text after `front`. -/
theorem goOn_longer {front : List Char}
    (ih : ∀ {body n}, scanBody raw triple quote size rest = .ok (body, n) →
      n ≤ size + rest.length ∧ scanBody raw triple quote size (rest ++ more) = .ok (body, n))
    (h : (scanBody raw triple quote size rest).map (fun (body, size) => (front ++ body, size)) =
      .ok (body, n)) :
    n ≤ size + rest.length ∧ (scanBody raw triple quote size (rest ++ more)).map
      (fun (body, size) => (front ++ body, size)) = .ok (body, n) := by
  obtain ⟨⟨body', n'⟩, found, same⟩ := map_ok h
  obtain ⟨short, longer⟩ := ih found
  cases same
  exact ⟨short, by rw [longer]; rfl⟩

/-- A text that is closed is closed at the same place whatever follows. -/
theorem scanBody_longer (quoted : isQuote quote = true) (h : scanBody raw triple quote size s = .ok (body, n)) :
    n ≤ size + s.length ∧ scanBody raw triple quote size (s ++ more) = .ok (body, n) := by
  induction size, s using scanBody.induct triple quote generalizing body n with
  | case1 => cases h
  | case2 size rest single =>
    rw [scanBody.eq_def] at h
    simp only [if_true, single] at h
    cases h
    rw [List.cons_append, scanBody.eq_def]
    simp only [if_true, single]
    exact ⟨by simp, trivial⟩
  | case3 size rest long closes =>
    rw [scanBody.eq_def] at h
    simp only [if_true, long, closes] at h
    cases h
    have two := congrArg List.length closes
    simp only [List.length_take, List.length_cons, List.length_nil] at two
    rw [List.cons_append, scanBody.eq_def]
    simp only [if_true, long, take_two_longer ends quoted, closes, List.length_cons]
    exact ⟨by omega, rfl⟩
  | case4 size rest long unclosed ih =>
    rw [scanBody.eq_def] at h
    simp only [if_true, long, unclosed, Bool.false_eq_true, if_false] at h
    obtain ⟨le, longer⟩ := goOn_longer ih h
    rw [List.cons_append, scanBody.eq_def]
    simp only [if_true, long, take_two_longer ends quoted, unclosed, Bool.false_eq_true, if_false,
      List.length_cons]
    exact ⟨by omega, longer⟩
  | case5 size c rest other ended =>
    rw [scanBody.eq_def] at h
    simp only [if_neg other, ended, if_true] at h
    cases h
  | case6 size other inside =>
    rw [scanBody.eq_def] at h
    simp only [if_neg other, inside, if_true] at h
    cases h
  | case7 size c rest other inside ih =>
    rw [scanBody.eq_def] at h
    simp only [if_neg other, inside, if_true, Bool.false_eq_true, if_false] at h
    obtain ⟨le, longer⟩ := goOn_longer ih h
    rw [List.cons_append, List.cons_append, scanBody.eq_def]
    simp only [if_neg other, inside, if_true, Bool.false_eq_true, if_false, List.length_cons]
    exact ⟨by omega, longer⟩
  | case8 size c rest other inside plain ih =>
    rw [scanBody.eq_def] at h
    simp only [if_neg other, inside, if_neg plain, Bool.false_eq_true, if_false] at h
    obtain ⟨le, longer⟩ := goOn_longer ih h
    rw [List.cons_append, scanBody.eq_def]
    simp only [if_neg other, inside, if_neg plain, Bool.false_eq_true, if_false, List.length_cons]
    exact ⟨by omega, longer⟩

theorem scanText_longer (quoted : isQuote quote = true)
    (h : scanText raw size (quote :: rest) = .ok (t, n)) :
    n ≤ size + (rest.length + 1) ∧ scanText raw size (quote :: (rest ++ more)) = .ok (t, n) := by
  unfold scanText at h ⊢
  dsimp only at h ⊢
  obtain ⟨⟨chars, n'⟩, found, same⟩ := map_ok h
  cases same
  by_cases three : rest.take 2 = [quote, quote]
  · have two := congrArg List.length three
    simp only [List.length_take, List.length_cons, List.length_nil] at two
    rw [if_pos three] at found
    obtain ⟨le, longer⟩ := scanBody_longer ends quoted found
    rw [List.length_drop] at le
    rw [if_pos ((take_two_longer ends quoted rest).mpr three),
      List.drop_append_of_le_length (by omega), longer]
    exact ⟨by omega, rfl⟩
  · rw [if_neg three] at found
    obtain ⟨le, longer⟩ := scanBody_longer ends quoted found
    rw [if_neg (mt (take_two_longer ends quoted rest).mp three), longer]
    exact ⟨by omega, rfl⟩

/-! ### All lexemes -/

theorem isPrefixOf_longer {piece : List Char} (inLine : '\n' ∉ piece) (inCode : '#' ∉ piece) (s : List Char) :
    piece.isPrefixOf (s ++ more) = piece.isPrefixOf s := by
  induction piece generalizing s with
  | nil => simp
  | cons c piece ih =>
    obtain ⟨newline, inLine⟩ := not_or.mp (mt List.mem_cons.mpr inLine)
    obtain ⟨comment, inCode⟩ := not_or.mp (mt List.mem_cons.mpr inCode)
    cases s with
    | nil =>
      cases more with
      | nil => rfl
      | cons d rest => rcases ends d rfl with rfl | rfl <;> simp [List.isPrefixOf, Ne.symm newline, Ne.symm comment]
    | cons d s => simp [List.isPrefixOf, ih inLine inCode]

theorem symbol?_longer (s : List Char) : symbol? (s ++ more) = symbol? s := by
  have inLine : ∀ b ∈ Symbol.all, '\n' ∉ b.text.toList := by decide +kernel
  have inCode : ∀ b ∈ Symbol.all, '#' ∉ b.text.toList := by decide +kernel
  unfold symbol?
  apply List.find?_congr
  intro b mem
  exact isPrefixOf_longer ends (inLine b mem) (inCode b mem) s

omit ends in
theorem symbol?_le (h : symbol? s = some b) : b.text.length ≤ s.length := by
  have starts := List.find?_some h
  exact (List.isPrefixOf_iff_prefix.mp starts).length_le

omit ends in
theorem commentLength_longer (ends : EndsLine more) (s : List Char) :
    commentLength (s ++ more) = commentLength s := by
  unfold commentLength
  rw [takeWhile_longer (ends.stops rfl)]

omit ends in
theorem commentLength_le (s : List Char) : commentLength s ≤ s.length :=
  (List.takeWhile_prefix _).length_le

omit ends in
/-- A backslash joins two lines only if the end of the first follows it. -/
theorem continuation?_longer (h : continuation? s = some n) :
    n ≤ s.length ∧ continuation? (s ++ more) = some n := by
  unfold continuation? at h
  split at h <;> cases h <;> exact ⟨by simp, rfl⟩

omit ends in
theorem continuation?_other (other : c ≠ '\\') (rest : List Char) : continuation? (c :: rest) = none := by
  unfold continuation?
  split <;> first | exact absurd (List.cons.inj ‹_›).1 other | rfl

omit ends in
/-- A backslash that joins no lines is no lexeme. -/
theorem scan_backslash (alone : continuation? ('\\' :: rest) = none) :
    scan '\\' rest = .error (.unexpectedChar '\\', 1) := by
  have none : symbol? ('\\' :: rest) = none := by
    have others : ∀ b ∈ Symbol.all, (b.text.toList.head?.any (· != '\\')) = true := by decide +kernel
    refine List.find?_eq_none.mpr fun b mem starts => ?_
    have other := others b mem
    cases piece : b.text.toList with
    | nil =>
      rw [piece] at other
      cases other
    | cons d ds =>
      rw [piece] at other starts
      simp only [List.isPrefixOf, Bool.and_eq_true, beq_iff_eq] at starts
      simp [starts.1] at other
  unfold scan
  dsimp only
  rw [alone, none]
  rfl

omit ends in
theorem scan_joined (next : continuation? ('\\' :: rest) = some n) :
    scan '\\' rest = .ok (.blank, n) := by
  unfold scan
  dsimp only
  rw [next]
  rfl

omit ends in
theorem scan_comment (rest : List Char) : scan '#' rest = .ok (.blank, commentLength ('#' :: rest)) := rfl

/-- A lexeme at the front of a text, if it is no comment, is there when a comment or more lines follow
the text. -/
theorem scan_code_longer (h : scan c rest = .ok (lexeme, n)) (code : c ≠ '#') :
    n ≤ rest.length + 1 ∧ scan c (rest ++ more) = .ok (lexeme, n) := by
  by_cases backslash : c = '\\'
  · subst backslash
    cases next : continuation? ('\\' :: rest) with
    | none =>
      rw [scan_backslash next] at h
      cases h
    | some size =>
      rw [scan_joined next] at h
      cases h
      obtain ⟨le, longer⟩ : _ ∧ continuation? ('\\' :: rest ++ more) = some _ :=
        continuation?_longer next
      exact ⟨le, scan_joined longer⟩
  · have token {x x' : Scanned Token} {f : Token × Nat → Lexeme × Nat} {size : Nat}
        (as : ∀ p, f p = (.token p.1, p.2)) (made : x.map f = .ok (lexeme, n))
        (longer : ∀ {t n}, x = .ok (t, n) → n ≤ size ∧ x' = .ok (t, n)) :
        n ≤ size ∧ x'.map f = .ok (lexeme, n) := by
      obtain ⟨⟨t, m⟩, found, same⟩ := map_ok made
      obtain ⟨le, found'⟩ := longer found
      rw [as] at same
      cases same
      exact ⟨le, by rw [found']; exact congrArg _ (as _)⟩
    unfold scan at h ⊢
    dsimp only at h ⊢
    rw [continuation?_other backslash] at h ⊢
    dsimp only at h ⊢
    have number : startsNumber c (rest ++ more) = startsNumber c rest := by
      rw [startsNumber, startsNumber, any_head?_longer (ends.stops rfl rfl)]
    have raw : startsRawText c (rest ++ more) = startsRawText c rest := by
      rw [startsRawText, startsRawText, any_head?_longer (ends.stops rfl rfl)]
    rw [number, raw]
    split_ifs at h ⊢ with blank newline comment quoted digits rawQuote word
    · cases h
      exact ⟨by omega, rfl⟩
    · cases h
      exact ⟨by omega, rfl⟩
    · exact absurd (beq_iff_eq.mp comment) code
    · refine token (fun _ => rfl) h fun found => ?_
      obtain ⟨le, longer⟩ := scanText_longer ends quoted found
      exact ⟨by omega, longer⟩
    · exact token (fun _ => rfl) h fun found =>
        ⟨scanNumber_le found, (scanNumber_longer ends c rest).trans found⟩
    · refine token (fun _ => rfl) h fun found => ?_
      cases rest with
      | nil => cases found
      | cons quote rest =>
        have quoted : isQuote quote = true := (Bool.and_eq_true_iff.mp rawQuote).2
        obtain ⟨le, longer⟩ := scanText_longer ends quoted found
        exact ⟨by rw [List.length_cons]; omega, longer⟩
    · refine token (fun _ => rfl) h fun found => ?_
      have same : scanName (c :: (rest ++ more)) = scanName (c :: rest) := by
        unfold scanName
        rw [← List.cons_append, takeWhile_longer (ends.stops (by decide +kernel) (by decide +kernel))]
      have le : (scanName (c :: rest)).2 ≤ rest.length + 1 := (List.takeWhile_prefix _).length_le
      rw [Except.ok.inj found] at le
      exact ⟨le, by rw [same, found]⟩
    · rw [← List.cons_append, symbol?_longer ends]
      split at h
      · rename_i b found
        cases h
        exact ⟨symbol?_le found, rfl⟩
      · cases h

omit ends in
/-- A lexeme at the front of a text is there when more lines follow the text. -/
theorem scan_longer (ends : EndsLine more) (h : scan c rest = .ok (lexeme, n)) :
    n ≤ rest.length + 1 ∧ scan c (rest ++ more) = .ok (lexeme, n) := by
  by_cases comment : c = '#'
  · subst comment
    rw [scan_comment] at h ⊢
    rw [← List.cons_append, commentLength_longer ends]
    cases h
    exact ⟨commentLength_le _, rfl⟩
  · exact scan_code_longer ends.endsCode h comment

/-! ### The front of a line -/

theorem measure_longer (width size : Nat) (s : List Char) :
    measure width size (s ++ more) = measure width size s := by
  induction s generalizing width size with
  | nil =>
    cases more with
    | nil => rfl
    | cons c rest => rcases ends c rfl with rfl | rfl <;> rfl
  | cons c s ih => simp only [List.cons_append, measure, ih]

omit ends in
theorem measure_le (width size : Nat) (s : List Char) : (measure width size s).2 ≤ size + s.length := by
  induction s generalizing width size with
  | nil => exact Nat.le_refl _
  | cons c s ih =>
    have next (width : Nat) : (measure width (size + 1) s).2 ≤ size + (s.length + 1) := by
      have := ih width (size + 1)
      omega
    rw [measure]
    split
    · exact next _
    · split
      · exact next _
      · split
        · exact next _
        · exact Nat.le_add_right ..

omit ends in
/-- A blank line is blank when more lines follow. If it is the last line, it takes up the newline that
follows. -/
theorem blankLine?_longer (ends : EndsLine more) (h : blankLine? s = some n) :
    (n ≤ s.length ∧ blankLine? (s ++ more) = some n) ∨
      (s.length ≤ n ∧ ∃ after, more = '\n' :: after ∧ blankLine? (s ++ more) = some (s.length + 1)) := by
  unfold blankLine? at h
  split at h
  · cases more with
    | nil => exact .inl ⟨by cases h; exact Nat.le_refl _, h⟩
    | cons c after =>
      obtain rfl := ends c rfl
      exact .inr ⟨Nat.zero_le _, after, rfl, rfl⟩
  · cases h
    exact .inl ⟨by simp, rfl⟩
  · cases h
    exact .inl ⟨by simp, rfl⟩
  · rename_i rest
    have le := commentLength_le rest
    have longer := commentLength_longer ends rest
    simp only [List.cons_append, blankLine?, longer, List.drop_append_of_le_length le]
    dsimp only at h
    split at h
    · rename_i last
      have all := List.drop_eq_nil_iff.mp (List.isEmpty_iff.mp last)
      cases h
      rw [List.isEmpty_iff.mp last, List.nil_append]
      cases more with
      | nil => exact .inl ⟨by simp only [List.length_cons]; omega, rfl⟩
      | cons c after =>
        obtain rfl := ends c rfl
        refine .inr ⟨by simp only [List.length_cons]; omega, after, rfl, ?_⟩
        rw [List.isEmpty_cons, if_neg Bool.false_ne_true, List.length_cons]
        congr 1
        omega
    · rename_i later
      have some : commentLength rest < rest.length := by
        rw [List.isEmpty_iff, List.drop_eq_nil_iff] at later
        omega
      cases h
      refine .inl ⟨by simp only [List.length_cons]; omega, ?_⟩
      rw [if_neg]
      rw [List.isEmpty_iff, List.append_eq_nil_iff]
      exact fun both => later (List.isEmpty_iff.mpr both.1)
  · cases h

omit ends in
/-- A line that is not blank is not blank when more lines follow, but for a carriage return, which may
become part of the end of its line. -/
theorem blankLine?_none_longer (h : blankLine? s = none) (noReturn : s ≠ ['\r']) :
    blankLine? (s ++ more) = none := by
  match s with
  | [] => cases h
  | c :: rest =>
    rw [List.cons_append]
    have newline : c ≠ '\n' := by
      rintro rfl
      cases h
    have comment : c ≠ '#' := by
      rintro rfl
      cases h
    by_cases carriage : c = '\r'
    · subst carriage
      match rest with
      | [] => exact absurd rfl noReturn
      | d :: rest =>
        have inLine : d ≠ '\n' := by
          rintro rfl
          cases h
        unfold blankLine?
        split <;> simp_all
    · unfold blankLine?
      split <;> simp_all

end

end Scratchpad.Token
