import Scratchpad.Proofs.Store.Datum
import Scratchpad.Proofs.Text.Dedent
import Scratchpad.Proofs.Tree.RoundTrip

/-!
# Displays

A datum as an expression. The characters that write the datum are read as the tokens of that
expression (`lexes_chars`), and a source of nothing else as its tree (`ofSource_chars`).
-/

namespace Scratchpad

namespace Datum

mutual

/-- The expression that writes the datum. There are no negative literals. -/
def expression : Datum → Expression
  | .none => .literal .none
  | .bool b => .literal (.bool b)
  | .int n _ => if n.toInt < 0 then .unary .neg (.literal (.int (-n))) else .literal (.int n)
  | .text s _ => .literal (.text s)
  | .list items => .list (expressions items)
  | .tuple items => .tuple (expressions items)
  | .dict pairs => .dict (expressionPairs pairs)

def expressions : List Datum → List Expression
  | [] => []
  | d :: ds => d.expression :: expressions ds

def expressionPairs : List (Datum × Datum) → List (Expression × Expression)
  | [] => []
  | (key, value) :: pairs => (key.expression, value.expression) :: expressionPairs pairs

end

theorem expressions_eq (ds : List Datum) : expressions ds = ds.map expression := by
  induction ds with
  | nil => rfl
  | cons d ds ih => rw [expressions, ih, List.map_cons]

theorem expressionPairs_eq (pairs : List (Datum × Datum)) :
    expressionPairs pairs = pairs.map fun p => (p.1.expression, p.2.expression) := by
  induction pairs with
  | nil => rfl
  | cons p pairs ih => rw [expressionPairs, ih, List.map_cons]

/-! ### Nesting -/

theorem nestingAt_le {ds : List Datum} (h : ∀ d ∈ ds, d.expression.nesting ≤ d.depth + 1) :
    Expression.nestingAt .conditional (ds.map expression) ≤ depthAll ds + 1 := by
  induction ds with
  | nil => exact Nat.zero_le _
  | cons d ds ih =>
    have first := h d List.mem_cons_self
    have rest := ih fun d mem => h d (.tail _ mem)
    simp only [List.map_cons, Expression.nestingAt, Expression.wrapped, Expression.Level.rank,
      Nat.not_lt_zero, if_false, depthAll]
    omega

theorem nestingPairs_le {pairs : List (Datum × Datum)}
    (h : ∀ p ∈ pairs, p.1.expression.nesting ≤ p.1.depth + 1 ∧
      p.2.expression.nesting ≤ p.2.depth + 1) :
    Expression.nestingPairs (expressionPairs pairs) ≤ depthPairs pairs + 1 := by
  induction pairs with
  | nil => exact Nat.zero_le _
  | cons p pairs ih =>
    have first := h p List.mem_cons_self
    have rest := ih fun p mem => h p (.tail _ mem)
    simp only [expressionPairs, Expression.nestingPairs, depthPairs]
    omega

/-- A sign nests as deep as a pair of brackets does. -/
theorem nesting_expression (d : Datum) : d.expression.nesting ≤ d.depth + 1 := by
  induction d using Datum.induction with
  | step d ih =>
  cases d with
  | none | bool | text => simp [expression, Expression.nesting]
  | int n negatable =>
    rw [expression]
    split <;> simp [Expression.nesting, Expression.wrapped, Expression.operandLevel,
      Expression.level, Expression.Level.rank]
  | list items | tuple items =>
    rw [expression, Expression.nesting, depth, expressions_eq]
    exact Nat.succ_le_succ (nestingAt_le ih)
  | dict pairs =>
    rw [expression, Expression.nesting, depth]
    refine Nat.succ_le_succ (nestingPairs_le fun p mem => ⟨?_, ?_⟩)
    · exact ih _ (List.mem_append_left _ (List.mem_map_of_mem mem))
    · exact ih _ (List.mem_append_right _ (List.mem_map_of_mem mem))

end Datum

namespace Token

/-! ### Tokens -/

theorem toInt_neg {n : Int64} (negatable : n ≠ .minValue) : (-n).toInt = -n.toInt := by
  have least : n.toInt ≠ -2 ^ 63 := fun same =>
    negatable (Int64.toInt_inj.mp (same.trans Int64.toInt_minValue.symm))
  have low := n.le_toInt
  have high := n.toInt_lt
  rw [Int64.toInt_neg]
  exact Int.bmod_eq_of_le (by omega) (by omega)

theorem toList_intText (n : Int64) : (Store.intText n).toList =
    (if n.toInt < 0 then ['-'] else []) ++ Nat.toDigits 10 n.toInt.natAbs := by
  rw [Store.intText, Int.toString_eq_repr, Int.repr_eq_if]
  by_cases negative : n.toInt < 0
  · rw [if_neg (Int.not_le.mpr negative), if_pos negative, String.toList_append, Nat.toList_repr,
      show (-n.toInt).toNat = n.toInt.natAbs by omega]
    rfl
  · rw [if_pos (Int.not_lt.mp negative), if_neg negative, Nat.toList_repr,
      show n.toInt.toNat = n.toInt.natAbs by omega, List.nil_append]

theorem isDigit_toDigits {n : Nat} (h : c ∈ Nat.toDigits 10 n) : c.isDigit = true :=
  Nat.isDigit_of_mem_toDigits (by decide) (by decide) h

theorem lexes_int {n : Int64} (negatable : n ≠ .minValue) (ends : Delimited after) :
    Lexes (Store.intText n).toList (Datum.int n negatable).expression.tokens after := by
  rw [toList_intText, Datum.expression]
  split
  next negative =>
    have opposite := toInt_neg negatable
    have digits := lexes_digits (n := -n) (by omega) ends
    rw [show (-n).toInt.toNat = n.toInt.natAbs by omega] at digits
    refine Lexes.append (?_ : Lexes ['-'] [.symbol .minus] _) digits
    obtain ⟨d, ds, same⟩ := List.exists_cons_of_ne_nil
      (Nat.toDigits_ne_nil (n := n.toInt.natAbs) (b := 10))
    have digit : d.isDigit = true := isDigit_toDigits (same ▸ List.mem_cons_self)
    rw [same]
    refine lexes_token rfl ?_
    rcases isDigit_cases digit with rfl | rfl | rfl | rfl | rfl | rfl | rfl | rfl | rfl | rfl <;> rfl
  next positive =>
    have digits := lexes_digits (Int.not_lt.mp positive) ends
    rwa [show n.toInt.toNat = n.toInt.natAbs by omega] at digits

theorem lexes_comma (after : List Char) : Lexes [',', ' '] [.symbol .comma] after :=
  (lexes_token rfl rfl : Lexes [','] [.symbol .comma] ([' '] ++ after)).append (lexes_blank rfl)

theorem lexes_colon (after : List Char) : Lexes [':', ' '] [.symbol .colon] after :=
  (lexes_token rfl rfl : Lexes [':'] [.symbol .colon] ([' '] ++ after)).append (lexes_blank rfl)

/-- Items between commas, each read for itself. -/
theorem lexes_items {css : List (List Char)} {tss : List (List Token)}
    (each : List.Forall₂ (fun cs ts => ∀ after, Delimited after → Lexes cs ts after) css tss)
    (ends : Delimited after) :
    Lexes ([',', ' '].intercalate css) (Expression.commas tss) after := by
  unfold Expression.commas
  induction each with
  | nil => exact lexes_nil after
  | cons first rest ih =>
    cases rest with
    | nil => simpa using first after ends
    | cons second rest =>
      rw [List.intercalate_cons_cons, List.intercalate_cons_cons, List.append_assoc, List.append_assoc]
      refine Lexes.append (first _ ?_) ((lexes_comma _).append ih)
      exact .comma _

/-- Whatever delimiter follows, the datum is read as its expression. -/
def Displays (d : Datum) : Prop :=
  ∀ ⦃after⦄, Delimited after → Lexes d.chars d.expression.tokens after

theorem lexes_itemChars {ds : List Datum} (each : ∀ d ∈ ds, Displays d) (ends : Delimited after) :
    Lexes ([',', ' '].intercalate (Datum.itemChars ds))
      (Expression.commas (Expression.itemTokens (Datum.expressions ds))) after := by
  rw [Datum.itemChars_eq, Datum.expressions_eq, Expression.itemTokens_eq, List.map_map]
  refine lexes_items ?_ ends
  rw [List.forall₂_map_left_iff, List.forall₂_map_right_iff]
  exact List.forall₂_same.mpr fun d mem _ ends => each d mem ends

theorem lexes_pairChars {pairs : List (Datum × Datum)}
    (each : ∀ p ∈ pairs, Displays p.1 ∧ Displays p.2) (ends : Delimited after) :
    Lexes ([',', ' '].intercalate (Datum.pairChars pairs))
      (Expression.commas (Expression.pairTokens (Datum.expressionPairs pairs))) after := by
  rw [Datum.pairChars_eq, Datum.expressionPairs_eq, Expression.pairTokens_eq, List.map_map]
  refine lexes_items ?_ ends
  rw [List.forall₂_map_left_iff, List.forall₂_map_right_iff]
  refine List.forall₂_same.mpr fun p mem after ends => ?_
  obtain ⟨key, value⟩ := each p mem
  exact (key (.colon _)).append ((lexes_colon _).append (value ends))

theorem lexes_chars (d : Datum) : Displays d := by
  induction d using Datum.induction with
  | step d ih =>
  intro after ends
  cases d with
  | none => exact lexes_keyword .noneKw ends
  | bool b =>
    cases b
    · exact lexes_keyword .falseKw ends
    · exact lexes_keyword .trueKw ends
  | int n negatable => exact lexes_int negatable ends
  | text s writable =>
    have text := lexes_literal writable ends
    rwa [String.ofList_toList] at text
  | list ds =>
    refine lexes_brackets rfl (fun _ => rfl) (fun _ => rfl) ?_
    exact lexes_itemChars ih (.bracket _)
  | tuple ds =>
    refine lexes_brackets rfl (fun _ => rfl) (fun _ => rfl) ((lexes_itemChars ih ?_).append ?_)
    · split
      · exact .comma _
      · exact .paren _
    · rw [Datum.expressions_eq, List.length_map]
      split
      · exact lexes_token rfl rfl
      · exact lexes_nil _
  | dict pairs =>
    refine lexes_brackets rfl (fun _ => rfl) (fun _ => rfl) ?_
    refine lexes_pairChars (fun p mem => ⟨?_, ?_⟩) (.brace _)
    · exact ih _ (List.mem_append_left _ (List.mem_map_of_mem mem))
    · exact ih _ (List.mem_append_right _ (List.mem_map_of_mem mem))

/-! ### Sources -/

theorem intText_char {n : Int64} (h : c ∈ (Store.intText n).toList) : c = '-' ∨ c.isDigit = true := by
  rw [toList_intText] at h
  rcases List.mem_append.mp h with sign | digit
  · split at sign
    · exact .inl (List.mem_singleton.mp sign)
    · cases sign
  · exact .inr (isDigit_toDigits digit)

theorem chars_head (d : Datum) :
    ∃ c rest, d.chars = c :: rest ∧ Text.isBlank c = false ∧ c ≠ '#' := by
  cases d with
  | none => exact ⟨_, _, rfl, rfl, by decide⟩
  | bool b => cases b <;> exact ⟨_, _, rfl, rfl, by decide⟩
  | int n negatable =>
    have some : (Store.intText n).toList ≠ [] := by simp [toList_intText, Nat.toDigits_ne_nil]
    obtain ⟨c, rest, same⟩ := List.exists_cons_of_ne_nil some
    refine ⟨c, rest, same, ?_⟩
    rcases intText_char (same ▸ List.mem_cons_self) with rfl | digit
    · decide
    · rcases isDigit_cases digit with rfl | rfl | rfl | rfl | rfl | rfl | rfl | rfl | rfl | rfl <;>
        decide
  | text s writable =>
    refine ⟨_, _, rfl, ?_⟩
    rcases quote_cases (isQuote_literalQuote s.toList) with same | same <;> rw [same] <;> decide
  | list | tuple | dict => exact ⟨_, _, rfl, by decide, by decide⟩

/-- A line that starts with no blank starts at the margin. -/
theorem measure_flush (flush : Text.isBlank c = false) (rest : List Char) :
    measure 0 0 (c :: rest) = (0, 0) := by
  have other : ∀ b, Text.isBlank b = true → c ≠ b := by
    rintro b blank rfl
    exact Bool.noConfusion (blank.symm.trans flush)
  rw [measure, if_neg (other _ rfl), if_neg (other _ rfl), if_neg (other _ rfl)]

theorem blankLine?_flush (flush : Text.isBlank c = false) (noComment : c ≠ '#') (rest : List Char) :
    blankLine? (c :: rest) = none := by
  unfold blankLine?
  split
  next same => cases same
  next same => cases same; cases flush
  next same => cases same; cases flush
  next same => cases same; exact absurd rfl noComment
  next => rfl

theorem not_mem_intercalate {sep : List α} {xss : List (List α)} (outer : a ∉ sep)
    (inner : ∀ xs ∈ xss, a ∉ xs) : a ∉ sep.intercalate xss := by
  induction xss with
  | nil => simp
  | cons xs xss ih =>
    have first := inner xs List.mem_cons_self
    have rest := ih fun xs mem => inner xs (.tail _ mem)
    cases xss with
    | nil => simpa using first
    | cons => simp [List.intercalate_cons_cons, first, outer, rest]

theorem newline_not_mem_literal {cs : List Char} (writable : ∀ c ∈ cs, Writable c) :
    '\n' ∉ Text.literal cs := by
  have quotes := isQuote_literalQuote cs
  unfold Text.literal
  generalize Text.literalQuote cs = quote at quotes ⊢
  have notQuote : '\n' ≠ quote := by rcases quote_cases quotes with rfl | rfl <;> decide
  have inner : ∀ c ∈ cs, '\n' ∉ Text.literalChar quote c := by
    intro c mem
    have control := writable c mem
    unfold Text.literalChar
    repeat' split
    all_goals grind [Writable]
  simpa [notQuote] using inner

/-- A datum is written on one line. -/
theorem newline_not_mem_chars (d : Datum) : '\n' ∉ d.chars := by
  induction d using Datum.induction with
  | step d ih =>
  have items {ds : List Datum} (each : ∀ d ∈ ds, '\n' ∉ d.chars) :
      '\n' ∉ [',', ' '].intercalate (Datum.itemChars ds) := by
    rw [Datum.itemChars_eq]
    exact not_mem_intercalate (by decide) (List.forall_mem_map.mpr each)
  cases d with
  | none => decide
  | bool b => cases b <;> decide
  | int n negatable =>
    intro mem
    rcases intText_char mem with same | digit
    · cases same
    · cases digit
  | text s writable => exact newline_not_mem_literal writable
  | list ds =>
    have inner := items ih
    simpa [Datum.chars, Datum.parts] using inner
  | tuple ds =>
    have inner := items ih
    rw [Datum.chars]
    split <;> simpa [Datum.parts] using inner
  | dict pairs =>
    have inner : '\n' ∉ [',', ' '].intercalate (Datum.pairChars pairs) := by
      rw [Datum.pairChars_eq]
      refine not_mem_intercalate (by decide) (List.forall_mem_map.mpr fun p mem => ?_)
      have key := ih _ (List.mem_append_left _ (List.mem_map_of_mem mem))
      have value := ih _ (List.mem_append_right _ (List.mem_map_of_mem mem))
      simp [key, value]
    simp [Datum.chars, inner]

end Token

/-- The last token of an expression that writes a datum ends no line. -/
theorem Datum.tokens_last (d : Datum) :
    ∃ ts t, d.expression.tokens = ts ++ [t] ∧ t ≠ .newline ∧ t ≠ .dedent := by
  cases d with
  | none | text => exact ⟨[], _, rfl, by simp [Expression.literalToken]⟩
  | bool b => cases b <;> exact ⟨[], _, rfl, by simp [Expression.literalToken]⟩
  | int n negatable =>
    rw [expression]
    split
    · exact ⟨[_], _, rfl, by simp [Expression.literalToken]⟩
    · exact ⟨[], _, rfl, by simp [Expression.literalToken]⟩
  | list | tuple | dict => exact ⟨_, _, rfl, by simp⟩

/-- The tree of a datum as it is written. -/
theorem ofSource_chars (d : Datum) (shallow : d.depth + 1 < Parse.maxNesting) (flags : Flags) :
    ∃ nodes id, Tree.ofSource .eval flags (.ofList (Text.dedent d.chars)) =
      .ok ⟨nodes, .expression id⟩ ∧ Expression.Hangs nodes id d.expression := by
  obtain ⟨c, rest, chars, flush, noComment⟩ := Token.chars_head d
  obtain ⟨ts, t, tokens, last⟩ := d.tokens_last
  have single := Token.newline_not_mem_chars d
  have lexes := Token.lexes_chars d .nothing
  rw [chars] at single lexes ⊢
  rw [tokens] at lexes
  obtain ⟨placed, tokenized, written⟩ := Token.tokenize_line flags lexes
    (Token.measure_flush flush rest) (Token.blankLine?_flush flush noComment rest) last
  rw [← tokens] at written
  rcases Tree.ofTokens_written d.expression written with read | ⟨deep, _⟩
  · rwa [Text.dedent_line flush single, Tree.ofSource, String.toList_ofList, tokenized]
  · have := d.nesting_expression
    omega

end Scratchpad
