import Scratchpad.Proofs.Token.Spelled

/-!
# What integer literals denote

A literal in base ten has digits with single underscores between them; one in another base has a prefix and then
digits and underscores in any order. Either is read as one token, the number that its digits denote by their
places, unless 64 bits do not hold it (`tokenize_numeral`).
-/

namespace Scratchpad.Token

/-- The value of a digit in any base up to sixteen. What is no digit has the value sixteen. -/
def valueOf (c : Char) : Nat := "0123456789abcdef".toList.idxOf c.toLower

/-- The sum of the digits' values, each times the power of the base that belongs to its place. -/
def positional (base : Nat) (digits : List Char) : Nat :=
  Nat.ofDigits base (digits.map valueOf).reverse

/-- Digits of base ten with single underscores between them. -/
inductive Grouped : List Char → Prop where
  | last (digit : c.isDigit = true) : Grouped [c]
  | next (digit : c.isDigit = true) (more : Grouped cs) : Grouped (c :: cs)
  | gap (digit : c.isDigit = true) (more : Grouped cs) : Grouped (c :: '_' :: cs)

/-- The letters that announce a base after a zero. -/
def marks : List (Char × Nat) := [('x', 16), ('X', 16), ('o', 8), ('O', 8), ('b', 2), ('B', 2)]

/-- `source` is an integer literal: `run` has its digits and underscores, in the base `base`. -/
inductive Literal : (base : Nat) → (run source : List Char) → Prop where
  | decimal (grouped : Grouped run) : Literal 10 run run
  | based (marked : (mark, base) ∈ marks) (digits : ∀ c ∈ run, valueOf c < base ∨ c = '_')
      (some : ∃ c ∈ run, valueOf c < base) : Literal base run ('0' :: mark :: run)

/-! ### Values -/

theorem digitValue_of_valueOf {c : Char} (digit : valueOf c < 16) : Decimal.digitValue c = valueOf c := by
  by_cases upper : c.isUpper = true
  · obtain ⟨low, high⟩ : 65 ≤ c.toNat ∧ c.toNat ≤ 90 := by
      simpa [Char.isUpper, UInt32.le_iff_toNat_le] using upper
    rw [← Char.ofNat_toNat c] at digit ⊢
    generalize c.toNat = n at low high digit ⊢
    interval_cases n <;> first | rfl | exact absurd digit (by decide)
  · have same : c.toLower = c := Char.toLower_eq_of_not_isUpper upper
    have listed : c ∈ "0123456789abcdef".toList := by
      rw [valueOf, same] at digit
      exact List.idxOf_lt_length_iff.mp digit
    simp at listed
    rcases listed with rfl | rfl | rfl | rfl | rfl | rfl | rfl | rfl | rfl | rfl | rfl | rfl | rfl |
      rfl | rfl | rfl <;> rfl

theorem numeral_eq_positional {digits : List Char} (small : ∀ c ∈ digits, valueOf c < 16) (base : Nat) :
    Decimal.numeral base digits = positional base digits := by
  induction digits using List.reverseRecOn with
  | nil => rfl
  | append_singleton ds d ih =>
    have front : ds.foldl (fun n c => n * base + Decimal.digitValue c) 0 = positional base ds :=
      ih fun c mem => small c (List.mem_append_left _ mem)
    rw [Decimal.numeral, List.foldl_concat, front, digitValue_of_valueOf (small d (by simp))]
    simp [positional, Nat.ofDigits_cons, Nat.mul_comm, Nat.add_comm]

theorem int64?_small {n : Nat} (small : n < 2 ^ 63) :
    ∃ i : Int64, Decimal.int64? n = some i ∧ i.toInt = n := by
  have least : Int64.minValue.toInt = -2 ^ 63 := rfl
  have most : Int64.maxValue.toInt = 2 ^ 63 - 1 := rfl
  refine ⟨.ofInt n, if_pos ⟨?_, ?_⟩, Int64.toInt_ofInt_of_le ?_ ?_⟩ <;> omega

theorem int64?_large {n : Nat} (large : ¬ n < 2 ^ 63) : Decimal.int64? n = none := by
  have most : Int64.maxValue.toInt = 2 ^ 63 - 1 := rfl
  exact if_neg fun fits => by omega

/-! ### Scanning -/

/-- A number of all of the text, or trouble if 64 bits do not hold it. -/
def Denotes (source : List Char) (n : Nat) (r : Scanned Token) : Prop :=
  (∃ i : Int64, i.toInt = n ∧ n < 2 ^ 63 ∧ r = .ok (.int i, source.length)) ∨
    (¬ n < 2 ^ 63 ∧ ∃ shown size, r = .error (.invalidNumber shown, size))

theorem Grouped.head (h : Grouped cs) : cs.head?.any Char.isDigit = true := by
  cases h <;> simpa

theorem takeDigits_grouped (h : Grouped cs) : takeDigits cs = (cs.filter (· != '_'), cs.length) := by
  have kept {c : Char} (digit : c.isDigit = true) : c ≠ '_' := by rintro rfl; cases digit
  induction h with
  | last digit => simp [takeDigits, digit, kept digit]
  | next digit more ih => simp [takeDigits, digit, kept digit, ih]
  | gap digit more ih => simp [takeDigits, digit, kept digit, more.head, ih]

theorem Grouped.small (h : Grouped cs) : ∀ c ∈ cs.filter (· != '_'), valueOf c < 16 := by
  have small {c : Char} (digit : c.isDigit = true) : valueOf c < 16 := by
    rcases isDigit_cases digit with rfl | rfl | rfl | rfl | rfl | rfl | rfl | rfl | rfl | rfl <;> decide
  induction h with
  | last digit => simpa [List.filter_cons] using fun _ => small digit
  | next digit more ih => simp_all
  | gap digit more ih => simp_all

theorem scanDecimal_grouped (h : Grouped cs) :
    Denotes cs (positional 10 (cs.filter (· != '_'))) (scanDecimal cs) := by
  have whole := takeDigits_grouped h
  have value := numeral_eq_positional h.small 10
  by_cases small : positional 10 (cs.filter (· != '_')) < 2 ^ 63
  · obtain ⟨i, fits, same⟩ := int64?_small small
    refine .inl ⟨i, same, small, ?_⟩
    simp [scanDecimal, whole, scanFraction, scanExponent, endNumber, value, fits]
  · refine .inr ⟨small, .ofList (cs.filter (· != '_')), cs.length, ?_⟩
    simp [scanDecimal, whole, scanFraction, scanExponent, endNumber, value, int64?_large small]

/-- Neither a digit nor an underscore announces a base. -/
theorem scanNumber_grouped (h : Grouped cs) : scanNumber cs = scanDecimal cs := by
  have plain {c : Char} (digit : c.isDigit = true) : base? c = none := by
    rcases isDigit_cases digit with rfl | rfl | rfl | rfl | rfl | rfl | rfl | rfl | rfl | rfl <;> rfl
  unfold scanNumber
  split
  next mark rest =>
    have none : base? mark = none := by
      cases h with
      | next digit more => exact plain (by simpa using more.head)
      | gap digit more => rfl
    rw [none]
  next => rfl

theorem scanBased_run {run : List Char} (marked : (mark, base) ∈ marks)
    (digits : ∀ c ∈ run, valueOf c < base ∨ c = '_') (some : ∃ c ∈ run, valueOf c < base) :
    Denotes ('0' :: mark :: run) (positional base (run.filter (· != '_'))) (scanBased base mark run) := by
  have most : base ≤ 16 := by
    simp [marks] at marked
    omega
  have all : run.takeWhile (fun c => Decimal.digitValue c < base || c == '_') = run := by
    refine List.takeWhile_eq_self_iff.mpr fun c mem => ?_
    rcases digits c mem with digit | rfl
    · simp [digitValue_of_valueOf (digit.trans_le most), digit]
    · simp
  have full : (run.filter (· != '_')).isEmpty = false := by
    obtain ⟨c, mem, digit⟩ := some
    have other : c ≠ '_' := by
      rintro rfl
      exact absurd (digit.trans_le most) (by decide)
    simpa using ⟨c, mem, other⟩
  have value : Decimal.numeral base (run.filter (· != '_')) = positional base (run.filter (· != '_')) := by
    refine numeral_eq_positional (fun c mem => ?_) base
    obtain ⟨mem, other⟩ := List.mem_filter.mp mem
    have digit := (digits c mem).resolve_right (by simpa using other)
    omega
  by_cases small : positional base (run.filter (· != '_')) < 2 ^ 63
  · obtain ⟨i, fits, same⟩ := int64?_small small
    refine .inl ⟨i, same, small, ?_⟩
    simp [scanBased, all, full, value, fits, endNumber]
    omega
  · refine .inr ⟨small, .ofList ('0' :: mark :: run.filter (· != '_')), 2 + run.length, ?_⟩
    simp [scanBased, all, full, value, int64?_large small]

theorem Literal.scanNumber (h : Literal base run source) :
    Denotes source (positional base (run.filter (· != '_'))) (Token.scanNumber source) := by
  cases h with
  | decimal grouped => rw [scanNumber_grouped grouped]; exact scanDecimal_grouped grouped
  | @based mark _ _ marked digits some =>
    have known : base? mark = .some base := by
      simp [marks] at marked
      rcases marked with ⟨rfl, rfl⟩ | ⟨rfl, rfl⟩ | ⟨rfl, rfl⟩ | ⟨rfl, rfl⟩ | ⟨rfl, rfl⟩ | ⟨rfl, rfl⟩ <;> rfl
    have based : Token.scanNumber ('0' :: mark :: run) = scanBased base mark run := by
      simp only [Token.scanNumber, known]
    rw [based]
    exact scanBased_run marked digits some

theorem Literal.head (h : Literal base run source) : ∃ d ds, source = d :: ds ∧ d.isDigit = true := by
  cases h with
  | decimal grouped => cases grouped <;> exact ⟨_, _, rfl, ‹_›⟩
  | based => exact ⟨_, _, rfl, rfl⟩

/-! ### The tokens of a literal -/

/-- Trouble in the first lexeme of a line at the margin is what the source fails with. -/
theorem tokenize_trouble (flags : Flags) (flush : measure 0 0 (c :: cs) = (0, 0))
    (full : blankLine? (c :: cs) = none) (scanned : scan c cs = .error (trouble, size)) :
    ∃ span, tokenize flags (c :: cs) = .error ⟨trouble, span⟩ := by
  let s : State := { cursor := { rest := c :: cs } }
  have first : { s with atLineStart := false }.step = .error ⟨trouble, s.cursor.spanTo (s.cursor.skip size)⟩ := by
    rw [State.step_inline rfl rfl, State.inline, scanned]
  have read : s.read = .error ⟨trouble, s.cursor.spanTo (s.cursor.skip size)⟩ := by
    rw [State.read_margin rfl rfl flush full, State.read_step (by simp [s]), first]
    rfl
  exact ⟨_, congrArg (· >>= State.finish flags) read⟩

/-- A literal that stands alone is one number and a newline, or no valid number if 64 bits do not hold it. -/
theorem tokenize_numeral (flags : Flags) (h : Literal base run source) :
    let n := positional base (run.filter (· != '_'))
    if n < 2 ^ 63 then
      ∃ (i : Int64) (placed : List Placed), i.toInt = n ∧ tokenize flags source = .ok placed ∧
        placed.map (·.token) = [.int i, .newline]
    else ∃ shown span, tokenize flags source = .error ⟨.invalidNumber shown, span⟩ := by
  intro n
  have scanned := h.scanNumber
  obtain ⟨d, ds, rfl, digit⟩ := h.head
  have flush : measure 0 0 (d :: ds) = (0, 0) := by
    rcases isDigit_cases digit with rfl | rfl | rfl | rfl | rfl | rfl | rfl | rfl | rfl | rfl <;> rfl
  have full : blankLine? (d :: ds) = none := by
    rcases isDigit_cases digit with rfl | rfl | rfl | rfl | rfl | rfl | rfl | rfl | rfl | rfl <;> rfl
  rcases scanned with ⟨i, same, small, done⟩ | ⟨large, shown, size, failed⟩
  · rw [if_pos small]
    have one : Lexes (d :: ds) ([] ++ [.int i]) [] :=
      lexes_token rfl (by rw [List.append_nil, scan_number digit, done]; rfl)
    obtain ⟨placed, ok, tokens⟩ := tokenize_line flags one flush full ⟨by simp, by simp⟩
    exact ⟨i, placed, same, ok, tokens⟩
  · rw [if_neg large]
    exact ⟨shown, tokenize_trouble flags flush full (by rw [scan_number digit, failed]; rfl)⟩

/-- A literal of either kind, one that 64 bits hold and one that they do not. -/
theorem tokenize_numeral_examples :
    (∃ (i : Int64) (placed : List Placed), i.toInt = 0x7fff ∧
      tokenize {} ['0', 'X', '7', 'F', '_', 'f', 'F', '_'] = .ok placed ∧
      placed.map (·.token) = [.int i, .newline]) ∧
    ∃ shown span, tokenize {} "9_223372036854775808".toList = .error ⟨.invalidNumber shown, span⟩ := by
  constructor
  · have literal : Literal 16 ['7', 'F', '_', 'f', 'F', '_'] ['0', 'X', '7', 'F', '_', 'f', 'F', '_'] :=
      .based (by decide) (by simp; decide) ⟨'7', by decide, by decide⟩
    have value : positional 16 (['7', 'F', '_', 'f', 'F', '_'].filter (· != '_')) = 0x7fff := by decide
    have read := tokenize_numeral {} literal
    dsimp only at read
    rwa [value, if_pos (by decide)] at read
  · have grouped : Grouped "9_223372036854775808".toList := by
      refine .gap rfl ?_
      repeat first | exact .last rfl | refine .next rfl ?_
    have value : positional 10 ("9_223372036854775808".toList.filter (· != '_')) = 2 ^ 63 := by decide
    have read := tokenize_numeral {} (.decimal grouped)
    dsimp only at read
    rwa [value, if_neg (by decide)] at read

end Scratchpad.Token
