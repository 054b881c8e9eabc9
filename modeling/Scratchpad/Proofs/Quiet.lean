import Scratchpad.Proofs.Token.Margins

/-!
# Quiet texts

A text without tokens is judged quiet by its characters. What counts is its ink, the characters that are
neither blank nor in a comment (`endsInSemicolon_eq`). Margins have no ink (`ink_trimmed`), and where every
text in quotes is on one line the ink of a text ends as its tokens do (`ink_of_reads`).
-/

namespace Scratchpad.Quiet

open Text (isBlank Trimmed)
open Token (isQuote)

/-! ### Ink -/

/-- Where in a line a character can stand. -/
inductive Place where
  | code
  | comment
  | quoted (quote : Char) (escaped : Bool)
deriving DecidableEq

/-- The place after a character. Quotes and comments end with their line. -/
def Place.next (p : Place) (c : Char) : Place :=
  if c = '\n' then .code
  else match p with
    | .code => if c = '#' then .comment else if isQuote c then .quoted c false else .code
    | .comment => .comment
    | .quoted q true => .quoted q false
    | .quoted q false => if c = '\\' then .quoted q true else if c = q then .code else .quoted q false

/-- The characters that are neither blank nor in a comment. -/
def ink (p : Place) : List Char → List Char
  | [] => []
  | c :: rest => if isBlank c || p.next c = .comment then ink (p.next c) rest else c :: ink (p.next c) rest

theorem ink_append (p : Place) (s t : List Char) : ink p (s ++ t) = ink p s ++ ink (s.foldl Place.next p) t := by
  induction s generalizing p with
  | nil => rfl
  | cons c s ih =>
    rw [List.cons_append, ink, ink, List.foldl_cons, ih]
    split <;> rfl

theorem ink_blanks (p : Place) (all : ∀ c ∈ s, isBlank c = true) : ink p s = [] := by
  induction s generalizing p with
  | nil => rfl
  | cons c s ih =>
    rw [ink, all c List.mem_cons_self]
    exact ih _ fun d mem => all d (List.mem_cons_of_mem c mem)

/-- A blank within code changes nothing. -/
theorem next_blank (blank : isBlank c = true) : Place.next .code c = .code := by
  have others : c ≠ '#' ∧ isQuote c = false := by
    refine Text.of_isBlank (p := fun c => c ≠ '#' ∧ isQuote c = false) ?_ blank
    decide +kernel
  simp [Place.next, others.1, others.2]

/-- The blanks at the front of lines have no ink. -/
theorem ink_trimmed (h : Trimmed start s t) (p : Place) (front : start = true → p = .code) : ink p s = ink p t := by
  induction h generalizing p with
  | nil => rfl
  | newline _ ih =>
    have next : p.next '\n' = .code := rfl
    rw [ink, ink, next, ih .code fun _ => rfl]
  | char _ _ ih => rw [ink, ink, ih _ nofun]
  | blank kind _ _ ih =>
    obtain rfl := front rfl
    rw [ink, kind, Bool.true_or, if_pos rfl, next_blank kind]
    exact ih .code fun _ => rfl

/-! ### The last line of code -/

theorem getLast?_trimEnd (s : List Char) : (Text.trimEnd s).getLast? = (s.filter (!isBlank ·)).getLast? := by
  rw [Text.trimEnd, Text.dropEndWhile, List.getLast?_reverse, List.getLast?_filter]
  generalize s.reverse = r
  induction r with
  | nil => rfl
  | cons c r ih => cases blank : isBlank c <;> simp [blank, ih]

/-- The place that the quotes before a character tell. -/
def Place.ofQuote (quote : Option Char) (escaped : Bool) : Place :=
  match quote with
  | none => .code
  | some q => .quoted q escaped

/-- A comment has no ink, up to the end of its line. -/
theorem ink_comment {s : List Char} (inLine : '\n' ∉ s) :
    ink .comment s = [] ∧ s.foldl Place.next .comment = .comment := by
  induction s with
  | nil => exact ⟨rfl, rfl⟩
  | cons c s ih =>
    obtain ⟨notHere, notLater⟩ := not_or.mp (mt List.mem_cons.mpr inLine)
    have next : Place.next .comment c = .comment := if_neg (Ne.symm notHere)
    rw [ink, List.foldl_cons, next, decide_eq_true rfl, Bool.or_true, if_pos rfl]
    exact ih notLater

theorem ink_ofQuote (next : Place.next p c = .ofQuote quote escaped) (s : List Char) :
    ink p (c :: s) = [c].filter (!isBlank ·) ++ ink (.ofQuote quote escaped) s := by
  have solid : Place.ofQuote quote escaped ≠ .comment := by cases quote <;> nofun
  rw [ink, next, decide_eq_false solid]
  cases blank : isBlank c <;> simp [blank]

/-- The ink of a line is in what stands before its comment. -/
theorem filter_beforeComment (inLine : '\n' ∉ s) (quote : Option Char) (escaped : Bool) :
    ((beforeComment? quote escaped s).getD s).filter (!isBlank ·) = ink (.ofQuote quote escaped) s := by
  induction s generalizing quote escaped with
  | nil => rfl
  | cons c s ih =>
    obtain ⟨notHere, notLater⟩ := not_or.mp (mt List.mem_cons.mpr inLine)
    have goOn (quote' : Option Char) (escaped' : Bool)
        (next : Place.next (.ofQuote quote escaped) c = .ofQuote quote' escaped')
        (before : beforeComment? quote escaped (c :: s) = (beforeComment? quote' escaped' s).map (c :: ·)) :
        ((beforeComment? quote escaped (c :: s)).getD (c :: s)).filter (!isBlank ·) =
          ink (.ofQuote quote escaped) (c :: s) := by
      have whole : (beforeComment? quote escaped (c :: s)).getD (c :: s) =
          [c] ++ (beforeComment? quote' escaped' s).getD s := by
        rw [before]
        cases beforeComment? quote' escaped' s <;> rfl
      rw [whole, List.filter_append, ih notLater, ink_ofQuote next]
    have elsewhere : c ≠ '\n' := Ne.symm notHere
    cases quote with
    | none =>
      by_cases comment : c = '#'
      · subst comment
        exact (ink_comment notLater).1.symm
      · refine goOn (if isQuote c then some c else none) false ?_ ?_
        · simp only [Place.ofQuote, Place.next, if_neg elsewhere, if_neg comment]
          split <;> rfl
        · rw [beforeComment?]
          simp only [if_neg comment]
    | some q =>
      cases escaped with
      | true => exact goOn (some q) false (by simp [Place.ofQuote, Place.next, elsewhere]) rfl
      | false =>
        by_cases backslash : c = '\\'
        · subst backslash
          exact goOn (some q) true rfl rfl
        · by_cases closes : c = q
          · subst closes
            refine goOn none false ?_ ?_
            · simp [Place.ofQuote, Place.next, elsewhere, backslash]
            · simp [beforeComment?, backslash]
          · refine goOn (some q) false ?_ ?_
            · simp [Place.ofQuote, Place.next, elsewhere, backslash, closes]
            · simp [beforeComment?, backslash, closes]

/-- What a line holds before its comment, blanks at the end left out. -/
theorem getLast?_code (inLine : '\n' ∉ line) :
    (Text.trimEnd ((beforeComment? none false (Text.trimEnd line)).getD (Text.trimEnd line))).getLast? =
      (ink .code line).getLast? := by
  have parts : Text.trimEnd line ++ (line.reverse.takeWhile isBlank).reverse = line := by
    rw [Text.trimEnd, Text.dropEndWhile, ← List.reverse_append, List.takeWhile_append_dropWhile,
      List.reverse_reverse]
  have blanks : ink .code line = ink .code (Text.trimEnd line) := by
    have none (p : Place) : ink p (line.reverse.takeWhile isBlank).reverse = [] :=
      ink_blanks p fun c mem => List.mem_takeWhile_imp (List.mem_reverse.mp mem)
    conv_lhs => rw [← parts]
    rw [ink_append, none, List.append_nil]
  have within : '\n' ∉ Text.trimEnd line := fun mem => inLine (parts ▸ List.mem_append_left _ mem)
  rw [getLast?_trimEnd, filter_beforeComment within, blanks]
  rfl

/-- A line before the others counts if the others have no code. -/
theorem lastCode_concat (ls : List (List Char)) (line : List Char) :
    lastCode (ls ++ [line]) = if lastCode ls = [] then lastCode [line] else lastCode ls := by
  induction ls with
  | nil => rfl
  | cons first ls ih =>
    rw [List.cons_append, lastCode, lastCode]
    split
    · exact ih
    · rename_i some
      rw [if_neg (mt List.isEmpty_iff.mpr some)]

theorem cutAt_line (inLine : '\n' ∉ s) : Text.cutAt (· == '\n') s = [s] := by
  induction s with
  | nil => rfl
  | cons c s ih =>
    obtain ⟨notHere, notLater⟩ := not_or.mp (mt List.mem_cons.mpr inLine)
    rw [Text.cutAt, ih notLater, if_neg (by simpa using Ne.symm notHere)]

theorem cutAt_lines (inLine : '\n' ∉ line) (after : List Char) :
    Text.cutAt (· == '\n') (line ++ '\n' :: after) = line :: Text.cutAt (· == '\n') after := by
  induction line with
  | nil => rfl
  | cons c line ih =>
    obtain ⟨notHere, notLater⟩ := not_or.mp (mt List.mem_cons.mpr inLine)
    rw [List.cons_append, Text.cutAt, ih notLater, if_neg (by simpa using Ne.symm notHere)]

theorem getLast?_lastCode_line (inLine : '\n' ∉ line) : (lastCode [line]).getLast? = (ink .code line).getLast? := by
  rw [← getLast?_code inLine]
  generalize code : Text.trimEnd ((beforeComment? none false (Text.trimEnd line)).getD (Text.trimEnd line)) = found
  rw [lastCode, lastCode, code]
  cases found <;> rfl

theorem getLast?_lastCode (s : List Char) :
    (lastCode (Text.cutAt (· == '\n') s).reverse).getLast? = (ink .code s).getLast? := by
  induction s using Text.line_induction with
  | last s inLine => rw [cutAt_line inLine, List.reverse_singleton, getLast?_lastCode_line inLine]
  | more line after inLine ih =>
    have apart : ink .code (line ++ '\n' :: after) = ink .code line ++ ink .code after := by
      rw [ink_append]
      rfl
    rw [cutAt_lines inLine, List.reverse_cons, lastCode_concat, apart, List.getLast?_append, ← ih]
    split
    · rename_i none
      rw [none, getLast?_lastCode_line inLine]
      rfl
    · rename_i some
      obtain ⟨c, last⟩ := List.getLast?_isSome.mpr some |> Option.isSome_iff_exists.mp
      rw [last]
      rfl

/-- A text without tokens is quiet if its ink ends in a semicolon. -/
theorem endsInSemicolon_eq (s : List Char) : endsInSemicolon s = decide ((ink .code s).getLast? = some ';') := by
  rw [endsInSemicolon, getLast?_lastCode]

/-! ### Characters of code -/

/-- A character of code that stands for itself. -/
def isSolid (c : Char) : Bool := !isBlank c && !isQuote c && c != '#'

theorem isSolid_iff : isSolid c = true ↔ isBlank c = false ∧ isQuote c = false ∧ c ≠ '#' := by
  simp [isSolid, and_assoc]

theorem next_solid (solid : isSolid c = true) : Place.next .code c = .code := by
  obtain ⟨full, unquoted, code⟩ := isSolid_iff.mp solid
  have inLine : c ≠ '\n' := by
    rintro rfl
    cases full
  simp [Place.next, inLine, unquoted, code]

theorem ink_solid (solid : ∀ c ∈ s, isSolid c = true) : ink .code s = s ∧ s.foldl Place.next .code = .code := by
  induction s with
  | nil => exact ⟨rfl, rfl⟩
  | cons c s ih =>
    have next := next_solid (solid c List.mem_cons_self)
    obtain ⟨full, -⟩ := isSolid_iff.mp (solid c List.mem_cons_self)
    obtain ⟨same, stays⟩ := ih fun d mem => solid d (List.mem_cons_of_mem c mem)
    rw [ink, List.foldl_cons, next, full, same]
    exact ⟨rfl, stays⟩

/-- A class of characters without blanks, quotes, signs of a comment and semicolons. -/
theorem isSolid_of_class {p : Char → Bool}
    (blanks : ∀ r ∈ Text.blankRanges, ∀ i < r.2 + 1 - r.1, p (Char.ofNat (r.1 + i)) = false)
    (others : ['\x22', '\x27', '#', ';'].all (!p ·) = true) (h : p c = true) : isSolid c = true ∧ c ≠ ';' := by
  have other (d : Char) (mem : d ∈ ['\x22', '\x27', '#', ';']) : c ≠ d := by
    rintro rfl
    simpa [h] using List.all_eq_true.mp others c mem
  have full : isBlank c = false := by
    refine Bool.eq_false_iff.mpr fun blank => ?_
    cases h.symm.trans (Text.of_isBlank (p := (p · = false)) blanks blank)
  refine ⟨isSolid_iff.mpr ⟨full, ?_, other '#' (by simp)⟩, other ';' (by simp)⟩
  simp [isQuote, other '\x22' (by simp), other '\x27' (by simp)]

/-- The characters of numbers. -/
def isNumberChar (c : Char) : Bool := Decimal.digitValue c < 36 || c ∈ ['_', '.', '+', '-']

theorem isNumberChar_digit (h : c.isDigit = true) : isNumberChar c = true := by
  have value : Decimal.digitValue c < 36 := by
    obtain ⟨-, high⟩ : 48 ≤ c.toNat ∧ c.toNat ≤ 57 := by
      simpa [Char.isDigit, UInt32.le_iff_toNat_le] using h
    rw [Decimal.digitValue, if_pos h]
    change c.toNat - 48 < 36
    omega
  simp [isNumberChar, value]

theorem takeDigits_chars (s : List Char) : ∀ c ∈ s.take (Token.takeDigits s).2, isNumberChar c = true := by
  induction s with
  | nil => simp
  | cons c s ih =>
    rw [Token.takeDigits]
    split
    · rename_i digit
      simpa using ⟨isNumberChar_digit digit, ih⟩
    · split
      · rename_i mark
        have is : c = '_' := by simpa using (Bool.and_eq_true_iff.mp mark).1
        subst is
        simpa using ⟨by decide, ih⟩
      · simp

theorem scanFraction_chars (s : List Char) : ∀ c ∈ s.take (Token.scanFraction s).2, isNumberChar c = true := by
  unfold Token.scanFraction
  split
  · rename_i rest
    simpa using ⟨by decide, takeDigits_chars rest⟩
  · simp

theorem scanExponent_chars (s : List Char) : ∀ c ∈ s.take (Token.scanExponent s).2, isNumberChar c = true := by
  unfold Token.scanExponent
  split
  · rename_i e rest
    dsimp only
    split
    · rename_i mark
      have letter : isNumberChar e = true := by
        rcases Bool.or_eq_true_iff.mp mark with is | is <;> rw [beq_iff_eq.mp is] <;> decide
      split
      · have sign : rest.take ((rest.take 1).filter fun c => c == '+' || c == '-').length =
            (rest.take 1).filter fun c => c == '+' || c == '-' := by
          cases rest with
          | nil => rfl
          | cons d rest =>
            rw [List.take_succ_cons, List.take_zero, List.filter_singleton]
            cases d == '+' || d == '-' <;> rfl
        dsimp only
        rw [Nat.add_assoc, Nat.add_comm 1, List.take_succ_cons, List.take_add, sign]
        intro c mem
        rcases List.mem_cons.mp mem with rfl | mem
        · exact letter
        rcases List.mem_append.mp mem with signed | digit
        · have is : c = '+' ∨ c = '-' := by simpa using (List.mem_filter.mp signed).2
          rcases is with rfl | rfl <;> decide
        · exact takeDigits_chars _ c digit
      · simp
    · simp
  · simp

theorem scanDecimal_chars (h : Token.scanDecimal s = .ok (t, n)) : ∀ c ∈ s.take n, isNumberChar c = true := by
  unfold Token.scanDecimal at h
  dsimp only at h
  rw [Token.endNumber_size h, List.take_add, List.take_add]
  intro c mem
  simp only [List.mem_append] at mem
  rcases mem with (whole | fraction) | exponent
  · exact takeDigits_chars s c whole
  · exact scanFraction_chars _ c fraction
  · exact scanExponent_chars _ c exponent

theorem scanBased_chars (h : Token.scanBased base mark s = .ok (t, n)) (le : base ≤ 36) :
    ∀ c ∈ s.take (n - 2), isNumberChar c = true := by
  unfold Token.scanBased at h
  dsimp only at h
  split at h
  · cases h
  · rw [Token.endNumber_size h, Nat.add_sub_cancel_left, ← List.prefix_iff_eq_take.mp (List.takeWhile_prefix _)]
    intro c mem
    have kind := List.mem_takeWhile_imp mem
    rcases Bool.or_eq_true_iff.mp kind with digit | mark
    · have value : Decimal.digitValue c < 36 := (of_decide_eq_true digit).trans_le le
      simp [isNumberChar, value]
    · rw [beq_iff_eq.mp mark]
      decide

theorem scanNumber_chars (h : Token.scanNumber s = .ok (t, n)) : ∀ c ∈ s.take n, isNumberChar c = true := by
  unfold Token.scanNumber at h
  split at h
  · rename_i mark rest
    split at h
    · rename_i base announced
      have chars := scanBased_chars h (Token.base?_le announced)
      have letter : isNumberChar mark = true := by
        unfold Token.base? at announced
        split_ifs at announced with sixteen eight two
        · rcases Bool.or_eq_true_iff.mp sixteen with is | is <;> rw [beq_iff_eq.mp is] <;> decide
        · rcases Bool.or_eq_true_iff.mp eight with is | is <;> rw [beq_iff_eq.mp is] <;> decide
        · rcases Bool.or_eq_true_iff.mp two with is | is <;> rw [beq_iff_eq.mp is] <;> decide
      intro c mem
      have within := List.take_subset_take_left _ (show n ≤ n - 2 + 2 by omega) mem
      rw [List.take_succ_cons, List.take_succ_cons] at within
      rcases List.mem_cons.mp within with rfl | within
      · decide
      rcases List.mem_cons.mp within with rfl | within
      · exact letter
      · exact chars c within
    · exact scanDecimal_chars h
  · exact scanDecimal_chars h

/-! ### Texts on one line -/

/-- No text in quotes goes on over the end of a line, and no line is joined to the next: neither three
quotes in a row nor a backslash at the end of a line. -/
def OneLined (s : List Char) : Prop :=
  ∀ long ∈ ["\x27\x27\x27", "\x22\x22\x22", "\\\n", "\\\r\n"], ¬long.toList <:+: s

theorem OneLined.suffix (h : OneLined s) (part : t <:+ s) : OneLined t :=
  fun long mem here => h long mem (here.trans part.isInfix)

/-- After `k` characters the quote is closed. -/
def Closed (quote : Char) (s : List Char) (k : Nat) : Prop :=
  (∃ front, ink (.quoted quote false) (s.take k) = front ++ [quote]) ∧
    (s.take k).foldl Place.next (.quoted quote false) = .code

theorem Closed.goOn (h : Closed quote s k) (piece : List Char)
    (inside : piece.foldl Place.next (.quoted quote false) = .quoted quote false) :
    Closed quote (piece ++ s) (piece.length + k) := by
  obtain ⟨⟨front, last⟩, outside⟩ := h
  rw [Closed, List.take_length_add_append, ink_append, List.foldl_append, inside, last, outside]
  exact ⟨⟨_, (List.append_assoc ..).symm⟩, rfl⟩

theorem closed_scanBody (quoted : isQuote quote = true) (lined : OneLined s)
    (h : Token.scanBody raw false quote size s = .ok (body, n)) : ∃ k, n = size + k ∧ Closed quote s k := by
  have other : quote ≠ '\n' ∧ quote ≠ '\\' := by
    rcases Bool.or_eq_true_iff.mp quoted with is | is <;> rw [beq_iff_eq.mp is] <;> decide
  induction size, s using Token.scanBody.induct false quote generalizing body n with
  | case1 => cases h
  | case2 size rest single =>
    rw [Token.scanBody.eq_def] at h
    simp only [if_true, single] at h
    cases h
    have next : Place.next (.quoted quote false) quote = .code := by
      simp [Place.next, other.1, other.2]
    refine ⟨1, rfl, ⟨[], ?_⟩, ?_⟩
    · rw [List.take_succ_cons, List.take_zero, ink, next, Token.isBlank_quote quoted]
      rfl
    · exact next
  | case3 size rest long => exact absurd rfl long
  | case4 size rest long => exact absurd rfl long
  | case5 size c rest notQuote ended =>
    rw [Token.scanBody.eq_def] at h
    simp only [if_neg notQuote, ended, if_true] at h
    cases h
  | case6 size notQuote inside =>
    rw [Token.scanBody.eq_def] at h
    simp only [if_neg notQuote, inside, if_true] at h
    cases h
  | case7 size c rest notQuote inside ih =>
    rw [Token.scanBody.eq_def] at h
    simp only [if_neg notQuote, inside, if_true, Bool.false_eq_true, if_false] at h
    obtain ⟨⟨tail, n'⟩, found, same⟩ := Token.map_ok h
    cases same
    obtain ⟨k, rfl, closed⟩ := ih (lined.suffix ⟨['\\', c], rfl⟩) found
    refine ⟨2 + k, by omega, closed.goOn ['\\', c] ?_⟩
    have inLine : c ≠ '\n' := by
      rintro rfl
      exact lined "\\\n" (by simp) ⟨[], rest, rfl⟩
    simp [Place.next, inLine]
  | case8 size c rest notQuote inside plain ih =>
    rw [Token.scanBody.eq_def] at h
    simp only [if_neg notQuote, inside, if_neg plain, Bool.false_eq_true, if_false] at h
    obtain ⟨⟨tail, n'⟩, found, same⟩ := Token.map_ok h
    cases same
    obtain ⟨k, rfl, closed⟩ := ih (lined.suffix ⟨[c], rfl⟩) found
    refine ⟨1 + k, by omega, closed.goOn [c] ?_⟩
    have inLine : c ≠ '\n' := by simpa using inside
    simp [Place.next, inLine, plain, notQuote]

/-- How a token is read. -/
theorem token_of_scan (h : Token.scan c rest = .ok (.token t, n)) :
    (isQuote c = true ∧ Token.scanText false 0 (c :: rest) = .ok (t, n)) ∨
      (Token.startsRawText c rest = true ∧ Token.scanText true 1 rest = .ok (t, n)) ∨
      (Token.startsNumber c rest = true ∧ Token.scanNumber (c :: rest) = .ok (t, n)) ∨
      (Token.isNameStart c = true ∧ Token.scanName (c :: rest) = (t, n)) ∨
      ∃ b, Token.symbol? (c :: rest) = some b ∧ t = .symbol b ∧ n = b.text.length := by
  have token {x : Token.Scanned Token} {f : Token × Nat → Token.Lexeme × Nat} (as : ∀ p, f p = (.token p.1, p.2))
      (made : x.map f = .ok (.token t, n)) : x = .ok (t, n) := by
    obtain ⟨⟨t', m⟩, found, same⟩ := Token.map_ok made
    rw [as] at same
    cases same
    exact found
  unfold Token.scan at h
  dsimp only at h
  split at h
  · cases h
  split at h
  · cases h
  split at h
  · cases h
  split at h
  · cases h
  split at h
  · exact .inl ⟨by assumption, token (fun _ => rfl) h⟩
  split at h
  · exact .inr (.inr (.inl ⟨by assumption, token (fun _ => rfl) h⟩))
  split at h
  · exact .inr (.inl ⟨by assumption, token (fun _ => rfl) h⟩)
  split at h
  · exact .inr (.inr (.inr (.inl ⟨by assumption, Except.ok.inj (token (fun _ => rfl) h)⟩)))
  split at h
  · rename_i b found
    cases h
    exact .inr (.inr (.inr (.inr ⟨b, found, rfl, rfl⟩)))
  · cases h

/-- The ink of a token: it ends in a semicolon only if the token is one. -/
def Inked (piece : List Char) (t : Token) : Prop :=
  (∃ front d, ink .code piece = front ++ [d] ∧ (d = ';' ↔ t = .symbol .semicolon)) ∧
    piece.foldl Place.next .code = .code

theorem inked_solid (solid : ∀ d ∈ c :: piece, isSolid d = true)
    (last : (c :: piece).getLast (by simp) = ';' ↔ t = .symbol .semicolon) : Inked (c :: piece) t := by
  obtain ⟨same, stays⟩ := ink_solid solid
  exact ⟨⟨_, _, same.trans (List.dropLast_append_getLast (by simp)).symm, last⟩, stays⟩

/-- The ink of a text in quotes ends in a quote. -/
theorem inked_text (quoted : isQuote quote = true) (lined : OneLined (quote :: s))
    (h : Token.scanText raw size (quote :: s) = .ok (t, n)) :
    ∃ k, n = size + 1 + k ∧ Inked (quote :: s.take k) t := by
  obtain ⟨w, rfl⟩ := Token.scanText_ok h
  have single : s.take 2 ≠ [quote, quote] := by
    intro three
    have three : quote :: s = [quote, quote, quote] ++ s.drop 2 := by
      rw [List.cons_append, ← three, List.take_append_drop]
    rw [three] at lined
    rcases Bool.or_eq_true_iff.mp quoted with is | is
    · rw [beq_iff_eq.mp is] at lined
      exact lined "\x22\x22\x22" (by simp) ⟨[], _, rfl⟩
    · rw [beq_iff_eq.mp is] at lined
      exact lined "\x27\x27\x27" (by simp) ⟨[], _, rfl⟩
  unfold Token.scanText at h
  dsimp only at h
  rw [if_neg single] at h
  obtain ⟨⟨chars, n'⟩, found, same⟩ := Token.map_ok h
  cases same
  obtain ⟨k, rfl, ⟨front, last⟩, outside⟩ := closed_scanBody quoted (lined.suffix ⟨[quote], rfl⟩) found
  have opens : Place.next .code quote = .quoted quote false := by
    rcases Bool.or_eq_true_iff.mp quoted with is | is <;> rw [beq_iff_eq.mp is] <;> rfl
  refine ⟨k, rfl, ⟨quote :: front, quote, ?_, ?_⟩, ?_⟩
  · rw [ink, opens, Token.isBlank_quote quoted, last]
    rfl
  · rcases Bool.or_eq_true_iff.mp quoted with is | is <;> rw [beq_iff_eq.mp is] <;> simp
  · rw [List.foldl_cons, opens, outside]

theorem Inked.cons (h : Inked piece t) (solid : isSolid c = true) : Inked (c :: piece) t := by
  obtain ⟨⟨front, d, last, semicolon⟩, outside⟩ := h
  have next := next_solid solid
  refine ⟨⟨c :: front, d, ?_, semicolon⟩, by rw [List.foldl_cons, next, outside]⟩
  rw [ink, next, last, (isSolid_iff.mp solid).1]
  rfl

theorem inked_plain (plain : ∀ d ∈ c :: piece, isSolid d = true ∧ d ≠ ';') (other : t ≠ .symbol .semicolon) :
    Inked (c :: piece) t :=
  inked_solid (fun d mem => (plain d mem).1)
    ⟨fun is => absurd is (plain _ (List.getLast_mem (by simp))).2, fun is => absurd is other⟩

theorem inked_number (starts : Token.startsNumber c rest = true) (h : Token.scanNumber (c :: rest) = .ok (t, n)) :
    Inked (c :: rest.take (n - 1)) t := by
  have plain {d : Char} (kind : isNumberChar d = true) : isSolid d = true ∧ d ≠ ';' :=
    isSolid_of_class (by decide +kernel) (by decide +kernel) kind
  refine inked_plain (fun d mem => plain ?_) ?_
  · rcases List.mem_cons.mp mem with rfl | mem
    · rcases Bool.or_eq_true_iff.mp starts with digit | point
      · exact isNumberChar_digit digit
      · rw [beq_iff_eq.mp (Bool.and_eq_true_iff.mp point).1]
        decide
    · cases n with
      | zero => cases mem
      | succ n => exact scanNumber_chars h d (List.mem_cons_of_mem c mem)
  · rcases Token.scanNumber_ok h with ⟨i, rfl⟩ | ⟨d, rfl⟩ <;> nofun

theorem inked_name (starts : Token.isNameStart c = true) (h : Token.scanName (c :: rest) = (t, n)) :
    Inked (c :: rest.take (n - 1)) t := by
  have plain {d : Char} (kind : Token.isNameChar d = true) : isSolid d = true ∧ d ≠ ';' :=
    isSolid_of_class (by decide +kernel) (by decide +kernel) kind
  have first : Token.isNameChar c = true := by
    rcases Bool.or_eq_true_iff.mp starts with letter | mark
    · simp [Token.isNameChar, Text.isAlphanumeric, letter]
    · simp [Token.isNameChar, mark]
  unfold Token.scanName at h
  dsimp only at h
  obtain ⟨rfl, rfl⟩ := Prod.mk.inj h
  rw [List.takeWhile_cons_of_pos first, List.length_cons, Nat.add_sub_cancel,
    ← List.prefix_iff_eq_take.mp (List.takeWhile_prefix _)]
  refine inked_plain (fun d mem => plain ?_) ?_
  · rcases List.mem_cons.mp mem with rfl | mem
    · exact first
    · exact List.mem_takeWhile_imp mem
  · split <;> nofun

theorem inked_symbol (h : Token.symbol? (c :: rest) = some b) :
    Inked (c :: rest.take (b.text.length - 1)) (.symbol b) := by
  have all : ∀ b ∈ Symbol.all, b.text.toList.all isSolid = true ∧ b.text.toList ≠ [] ∧
      (b.text.toList.getLast? = some ';' ↔ b = .semicolon) := by decide +kernel
  obtain ⟨solid, some, last⟩ := all b (List.mem_of_find?_eq_some h)
  have starts : b.text.toList <+: c :: rest := by
    have front := List.find?_some h
    exact List.isPrefixOf_iff_prefix.mp front
  have piece : b.text.toList = c :: rest.take (b.text.length - 1) := by
    rw [List.prefix_iff_eq_take.mp starts, String.length_toList]
    cases size : b.text.length with
    | zero => exact absurd (List.length_eq_zero_iff.mp (String.length_toList.trans size)) some
    | succ n => rfl
  rw [piece] at solid last
  refine inked_solid (List.all_eq_true.mp solid) ?_
  rw [← Option.some_inj, ← List.getLast?_eq_some_getLast, last]
  simp

theorem inked_of_scan (lined : OneLined (c :: rest)) (h : Token.scan c rest = .ok (.token t, n)) :
    Inked (c :: rest.take (n - 1)) t := by
  rcases token_of_scan h with ⟨quoted, text⟩ | ⟨raw, text⟩ | ⟨starts, number⟩ | ⟨starts, name⟩ | ⟨b, sign, rfl, rfl⟩
  · obtain ⟨k, rfl, inked⟩ := inked_text quoted lined text
    simpa using inked
  · cases rest with
    | nil => cases text
    | cons quote s =>
      obtain ⟨mark, quoted⟩ := Bool.and_eq_true_iff.mp raw
      obtain ⟨k, rfl, inked⟩ := inked_text quoted (lined.suffix ⟨[c], rfl⟩) text
      have solid : isSolid c = true := by
        rcases Bool.or_eq_true_iff.mp mark with is | is <;> rw [beq_iff_eq.mp is] <;> decide
      rw [show 1 + 1 + k - 1 = k + 1 by omega, List.take_succ_cons]
      exact inked.cons solid
  · exact inked_number starts number
  · exact inked_name starts name
  · exact inked_symbol sign

/-! ### Whole texts -/

theorem ink_afterComment (rest : List Char) :
    ink .code ('#' :: rest) = ink .code (rest.drop (Token.commentLength rest)) := by
  have inLine : '\n' ∉ rest.take (Token.commentLength rest) := by
    rw [Token.take_commentLength]
    intro mem
    simpa using List.mem_takeWhile_imp mem
  have code : ink .comment (rest.drop (Token.commentLength rest)) = ink .code (rest.drop (Token.commentLength rest)) := by
    cases left : rest.drop (Token.commentLength rest) with
    | nil => rfl
    | cons c after =>
      obtain rfl := Token.newline_after_comment left
      rfl
  change ink .comment rest = _
  conv_lhs => rw [← List.take_append_drop (Token.commentLength rest) rest]
  rw [ink_append, (ink_comment inLine).1, (ink_comment inLine).2, List.nil_append, code]

theorem ink_between (lined : OneLined (c :: rest)) (h : Token.scan c rest = .ok (.blank, n)) :
    ink .code (c :: rest) = ink .code (rest.drop (n - 1)) := by
  cases Token.scans_of_scan h with
  | blank kind =>
    have blank : isBlank c = true := by
      have kinds : c = ' ' ∨ c = '\t' ∨ c = '\r' ∨ c = '\x0c' := by
        simpa [Token.isInlineBlank, or_assoc] using kind
      rcases kinds with rfl | rfl | rfl | rfl <;> rfl
    rw [ink, blank, next_blank blank]
    rfl
  | joined next =>
    unfold Token.continuation? at next
    split at next
    · rename_i after same
      exact absurd ⟨[], after, same.symm⟩ (lined "\\\n" (by simp))
    · rename_i after same
      exact absurd ⟨[], after, same.symm⟩ (lined "\\\r\n" (by simp))
    · cases next
  | comment sign =>
    subst sign
    have length : Token.commentLength ('#' :: rest) = Token.commentLength rest + 1 := by simp [Token.commentLength]
    rw [length, Nat.add_sub_cancel]
    exact ink_afterComment rest

/-- The ink of a text ends in a semicolon if its last token is one. -/
theorem ink_of_reads (h : Token.Reads s ts) (lined : OneLined s) :
    (ink .code s = [] ↔ ts = []) ∧
      ((ink .code s).getLast? = some ';' ↔ ts.getLast? = some (.symbol .semicolon)) := by
  induction h with
  | nil => simp [ink]
  | blank scanned _ ih =>
    rw [ink_between lined scanned]
    exact ih (lined.suffix ((List.drop_suffix ..).trans (List.suffix_cons ..)))
  | newline scanned _ ih =>
    cases Token.scans_of_scan scanned with
    | newline sign =>
      subst sign
      exact ih (lined.suffix ((List.drop_suffix ..).trans (List.suffix_cons ..)))
  | @token c rest t n ts scanned _ ih =>
    obtain ⟨⟨front, d, piece, semicolon⟩, outside⟩ := inked_of_scan lined scanned
    obtain ⟨none, last⟩ := ih (lined.suffix ((List.drop_suffix ..).trans (List.suffix_cons ..)))
    have whole : ink .code (c :: rest) = front ++ d :: ink .code (rest.drop (n - 1)) := by
      conv_lhs => rw [← List.take_append_drop (n - 1) rest, ← List.cons_append]
      rw [ink_append, outside, piece, List.append_assoc]
      rfl
    rw [whole]
    refine ⟨by simp, ?_⟩
    cases ts with
    | nil =>
      rw [none.mpr rfl]
      simpa using semicolon
    | cons t' ts =>
      obtain ⟨d', more, later⟩ := List.exists_cons_of_ne_nil (mt none.mp (List.cons_ne_nil t' ts))
      rw [later] at last ⊢
      simpa using last

/-- The last token that is no layout is a semicolon. -/
def EndsInSemicolon (tokens : List Token.Placed) : Prop :=
  ∃ before last after, tokens = before ++ last :: after ∧ last.token = .symbol .semicolon ∧
    ∀ p ∈ after, p.token.isLayout = true

theorem lastIsSemicolon_iff (tokens : List Token.Placed) :
    lastIsSemicolon tokens = true ↔ EndsInSemicolon tokens := by
  unfold lastIsSemicolon
  constructor
  · intro h
    split at h
    · rename_i last found
      obtain ⟨-, after, before, parts, layout⟩ := List.find?_eq_some_iff_append.mp found
      refine ⟨before.reverse, last, after.reverse, ?_, of_decide_eq_true h, fun p mem => ?_⟩
      · rw [← List.reverse_reverse tokens, parts]
        simp
      · simpa using layout p (List.mem_reverse.mp mem)
    · cases h
  · rintro ⟨before, last, after, rfl, semicolon, layout⟩
    have found : (before ++ last :: after).reverse.find? (fun t => !t.token.isLayout) = some last := by
      refine List.find?_eq_some_iff_append.mpr ⟨by rw [semicolon]; rfl, after.reverse, before.reverse, by simp, ?_⟩
      intro p mem
      simpa using layout p (List.mem_reverse.mp mem)
    rw [found]
    exact decide_eq_true semicolon

/-- A text is judged quiet by the code in it, whatever its margin: it is quiet if its last token is a
semicolon, as it stands or, where no token goes on over the end of a line, when dedented. A text without
tokens is judged as it would be without its margin. -/
theorem quiet_judges_dedented (s : List Char) (tokens : List Token.Placed)
    (h : Token.tokenize {} (Text.dedent s) = .ok tokens) :
    ((∃ raw, Token.tokenize {} s = .ok raw) ∨ OneLined (Text.dedent s) →
        (isQuiet s = true ↔ EndsInSemicolon tokens)) ∧
      ∀ e, Token.tokenize {} s = .error e → isQuiet s = endsInSemicolon (Text.dedent s) := by
  have trimmed := Text.trimmed_dedent s
  have reads := Token.reads_of_tokenize h
  have unread {e : Token.LexError} (failed : Token.tokenize {} s = .error e) :
      isQuiet s = endsInSemicolon (Text.dedent s) := by
    rw [isQuiet, failed, endsInSemicolon_eq, endsInSemicolon_eq, ink_trimmed trimmed .code fun _ => rfl]
  refine ⟨fun judged => ?_, fun e => unread⟩
  rw [← lastIsSemicolon_iff, Token.lastIsSemicolon_eq, decide_eq_true_iff]
  cases read : Token.tokenize {} s with
  | ok raw =>
    obtain ⟨ts, reads', alike⟩ := (Token.reads_of_tokenize read).trimmed trimmed
    rw [Token.isQuiet_of_tokenize read, decide_eq_true_iff, reads.unique reads', ← Token.getLast?_unworded, ← alike,
      Token.getLast?_unworded]
  | error e =>
    have lined : OneLined (Text.dedent s) := by
      rcases judged with ⟨raw, found⟩ | lined
      · cases read.symm.trans found
      · exact lined
    rw [unread read, endsInSemicolon_eq, decide_eq_true_iff]
    exact (ink_of_reads reads lined).2

/-- A text in quotes over two lines, behind a margin. -/
def margined : List Char := "  s = \x27\x27\x27a\n    # b\x27\x27\x27; # c".toList

/-- A margin of blanks that no token may stand behind. -/
def wideMargined : List Char := "\u3000if x:\n\u3000  y = \x27#\x27; # z\n \n".toList

theorem quiet_judges_dedented_margined :
    (∃ tokens, Token.tokenize {} (Text.dedent margined) = .ok tokens ∧
        (isQuiet margined = true ↔ EndsInSemicolon tokens)) ∧
      (∃ tokens, Token.tokenize {} (Text.dedent wideMargined) = .ok tokens ∧
        (Token.tokenize {} wideMargined).toOption = none ∧ (isQuiet wideMargined = true ↔ EndsInSemicolon tokens)) ∧
      isQuiet margined = true ∧ isQuiet wideMargined = true := by
  have lexes {s : List Char} (h : (Token.tokenize {} s).toOption.isSome = true) :
      ∃ tokens, Token.tokenize {} s = .ok tokens := by
    cases read : Token.tokenize {} s with
    | ok tokens => exact ⟨tokens, rfl⟩
    | error e =>
      rw [read] at h
      cases h
  obtain ⟨tokens, read⟩ := lexes (s := Text.dedent margined) (by decide +kernel)
  obtain ⟨tokens', read'⟩ := lexes (s := Text.dedent wideMargined) (by decide +kernel)
  have lined : OneLined (Text.dedent wideMargined) := by
    unfold OneLined
    decide +kernel
  exact ⟨⟨tokens, read, (quiet_judges_dedented _ _ read).1 (.inl (lexes (by decide +kernel)))⟩,
    ⟨tokens', read', by decide +kernel, (quiet_judges_dedented _ _ read').1 (.inr lined)⟩,
    by decide +kernel, by decide +kernel⟩

/-- Tabs that line up only without the margin, and a text over two lines. -/
def misaligned : List Char := " if 1:\n         x = 1\n \tx = 2\n \x27\x27\x27a\n # b\x27\x27\x27;".toList

/-- Of a text that has tokens only when dedented, the last line may seem to be a comment. -/
theorem misaligned_is_loud :
    ∃ tokens, Token.tokenize {} (Text.dedent misaligned) = .ok tokens ∧ EndsInSemicolon tokens ∧
      isQuiet misaligned = false := by
  have last : (Token.tokenize {} (Text.dedent misaligned)).toOption.map lastIsSemicolon = some true := by
    decide +kernel
  cases read : Token.tokenize {} (Text.dedent misaligned) with
  | error e =>
    rw [read] at last
    cases last
  | ok tokens =>
    rw [read] at last
    exact ⟨tokens, rfl, (lastIsSemicolon_iff tokens).mp (Option.some.inj last), by decide +kernel⟩

end Scratchpad.Quiet
