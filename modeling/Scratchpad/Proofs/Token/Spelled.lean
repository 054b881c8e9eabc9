import Scratchpad.Proofs.Token.Read

/-!
# Numbers, texts and words as they are spelled

What the decimal digits of a number and the quoted form of a text are scanned as, where a delimiter
or nothing follows.
-/

namespace Scratchpad

namespace Token

/-- What may follow a number, a word or a text: nothing that they could go on with. -/
inductive Delimited : List Char → Prop where
  | nothing : Delimited []
  | comma (rest : List Char) : Delimited (',' :: rest)
  | colon (rest : List Char) : Delimited (':' :: rest)
  | bracket (rest : List Char) : Delimited (']' :: rest)
  | paren (rest : List Char) : Delimited (')' :: rest)
  | brace (rest : List Char) : Delimited ('\x7d' :: rest)
  | blank (rest : List Char) : Delimited (' ' :: rest)

/-! ### Numbers -/

theorem isDigit_cases {c : Char} (h : c.isDigit = true) :
    c = '0' ∨ c = '1' ∨ c = '2' ∨ c = '3' ∨ c = '4' ∨ c = '5' ∨ c = '6' ∨ c = '7' ∨ c = '8' ∨
      c = '9' := by
  obtain ⟨low, high⟩ : 48 ≤ c.toNat ∧ c.toNat ≤ 57 := by
    simpa [Char.isDigit, UInt32.le_iff_toNat_le] using h
  rw [← Char.ofNat_toNat c]
  generalize c.toNat = n at low high ⊢
  interval_cases n <;> decide

theorem takeDigits_append {ds : List Char} (digits : ∀ d ∈ ds, d.isDigit = true)
    (after : takeDigits cs = ([], 0)) : takeDigits (ds ++ cs) = (ds, ds.length) := by
  induction ds with
  | nil => exact after
  | cons d ds ih =>
    have rest := ih fun d mem => digits d (.tail _ mem)
    simp [takeDigits, digits d List.mem_cons_self, rest]

theorem scanDecimal_digits {ds : List Char} {n : Int64} (digits : ∀ d ∈ ds, d.isDigit = true)
    (ends : Delimited cs) (value : Decimal.int64? (Decimal.numeral 10 ds) = some n) :
    scanDecimal (ds ++ cs) = .ok (.int n, ds.length) := by
  have whole : takeDigits (ds ++ cs) = (ds, ds.length) :=
    takeDigits_append digits (by cases ends <;> rfl)
  have fraction : scanFraction cs = (none, 0) := by cases ends <;> rfl
  have exponent : scanExponent cs = (none, 0) := by cases ends <;> rfl
  have stops : cs.takeWhile isNameChar = [] := by cases ends <;> rfl
  simp [scanDecimal, whole, fraction, exponent, endNumber, stops, value]

/-- A digit announces no base after a zero, and neither does a delimiter. -/
theorem scanNumber_digits {ds : List Char} (digits : ∀ d ∈ ds, d.isDigit = true)
    (ends : Delimited cs) : scanNumber (ds ++ cs) = scanDecimal (ds ++ cs) := by
  unfold scanNumber
  split
  · rename_i mark rest here
    have none : base? mark = Option.none := by
      match ds, digits with
      | [], _ => cases ends <;> cases here
      | [_], _ => cases ends <;> cases here <;> rfl
      | _ :: d :: _, digits =>
        cases here
        rcases isDigit_cases (digits mark (by simp)) with rfl | rfl | rfl | rfl | rfl | rfl | rfl | rfl | rfl | rfl <;> rfl
    rw [none]
  · rfl

theorem scan_number {d : Char} (digit : d.isDigit = true) :
    scan d rest = (scanNumber (d :: rest)).map fun r => (.token r.1, r.2) := by
  rcases isDigit_cases digit with rfl | rfl | rfl | rfl | rfl | rfl | rfl | rfl | rfl | rfl <;> rfl

theorem scan_digits {d : Char} {ds : List Char} {n : Int64} (digits : ∀ c ∈ d :: ds, c.isDigit = true)
    (ends : Delimited cs) (value : Decimal.int64? (Decimal.numeral 10 (d :: ds)) = some n) :
    scan d (ds ++ cs) = .ok (.token (.int n), ds.length + 1) := by
  rw [scan_number (digits d List.mem_cons_self), ← List.cons_append, scanNumber_digits digits ends,
    scanDecimal_digits digits ends value]
  rfl

theorem numeral_toDigits (n : Nat) : Decimal.numeral 10 (Nat.toDigits 10 n) = n := by
  have same : ∀ (ds : List Char) (init : Nat), (∀ d ∈ ds, d.isDigit = true) →
      ds.foldl (fun n c => n * 10 + Decimal.digitValue c) init = Nat.ofDigitChars 10 ds init := by
    intro ds init digits
    induction ds generalizing init with
    | nil => rfl
    | cons d ds ih =>
      rw [List.foldl_cons, ih _ fun c mem => digits c (.tail _ mem), Nat.ofDigitChars_cons,
        Decimal.digitValue, if_pos (digits d List.mem_cons_self), Nat.mul_comm]
  exact (same _ 0 fun d mem => Nat.isDigit_of_mem_toDigits (by decide) (by decide) mem).trans
    Nat.ofDigitChars_ten_toDigits

theorem int64?_toInt (n : Int64) : Decimal.int64? n.toInt = some n := by
  rw [Decimal.int64?, if_pos ⟨n.minValue_le_toInt, n.toInt_le⟩, Int64.ofInt_toInt]

/-- The digits of a number that is not negative. -/
theorem scan_toDigits {n : Int64} (positive : 0 ≤ n.toInt) (ends : Delimited after) :
    ∃ d ds, Nat.toDigits 10 n.toInt.toNat = d :: ds ∧
      scan d (ds ++ after) = .ok (.token (.int n), ds.length + 1) := by
  have digits : ∀ d ∈ Nat.toDigits 10 n.toInt.toNat, d.isDigit = true := fun d mem =>
    Nat.isDigit_of_mem_toDigits (by decide) (by decide) mem
  have value : Decimal.int64? (Decimal.numeral 10 (Nat.toDigits 10 n.toInt.toNat)) = some n := by
    rw [numeral_toDigits, Int.toNat_of_nonneg positive, int64?_toInt]
  obtain ⟨d, ds, same⟩ := List.exists_cons_of_ne_nil (Nat.toDigits_ne_nil (n := n.toInt.toNat) (b := 10))
  rw [same] at digits value
  exact ⟨d, ds, same, scan_digits digits ends value⟩

theorem lexes_digits {n : Int64} (positive : 0 ≤ n.toInt) (ends : Delimited after) :
    Lexes (Nat.toDigits 10 n.toInt.toNat) [.int n] after := by
  obtain ⟨d, ds, same, scanned⟩ := scan_toDigits positive ends
  rw [same]
  exact lexes_token rfl scanned

/-! ### Texts -/

/-- Of the control characters only those that have an escape of their own. -/
def Writable (c : Char) : Prop :=
  c.toNat < 0x20 ∨ c.toNat = 0x7F → c = '\t' ∨ c = '\n' ∨ c = '\r'

instance : DecidablePred Writable := fun _ => inferInstanceAs (Decidable (_ → _))

/-- What a character is read as where it stands in a quoted text. The escape of any other control character is
not read as an escape. -/
def reread (c : Char) : List Char := if Writable c then [c] else '\\' :: 'x' :: Text.hex 2 c.toNat

theorem quote_cases {quote : Char} (quotes : isQuote quote = true) :
    quote = '\x22' ∨ quote = '\x27' := by simpa [isQuote] using quotes

theorem scanBody_escape {quote : Char} (quotes : isQuote quote = true) (size : Nat) (e : Char)
    (rest : List Char) :
    scanBody false false quote size ('\\' :: e :: rest) =
      (scanBody false false quote (size + 2) rest).map fun r => (escape false e ++ r.1, r.2) := by
  rw [scanBody]
  rcases quote_cases quotes with rfl | rfl <;> rfl

theorem scanBody_plain {quote c : Char} (notQuote : c ≠ quote) (notNewline : c ≠ '\n')
    (notEscape : c ≠ '\\') (size : Nat) (rest : List Char) :
    scanBody false false quote size (c :: rest) =
      (scanBody false false quote (size + 1) rest).map fun r => (c :: r.1, r.2) := by
  rw [scanBody.eq_def]
  simp only [if_neg notQuote, if_neg notEscape, notNewline]
  rfl

theorem scanBody_plains {quote : Char} {ds : List Char}
    (plain : ∀ d ∈ ds, d ≠ quote ∧ d ≠ '\n' ∧ d ≠ '\\') (size : Nat) (rest : List Char) :
    scanBody false false quote size (ds ++ rest) =
      (scanBody false false quote (size + ds.length) rest).map fun r => (ds ++ r.1, r.2) := by
  induction ds generalizing size with
  | nil =>
    rw [List.nil_append, List.length_nil, Nat.add_zero]
    cases scanBody false false quote size rest <;> rfl
  | cons d ds ih =>
    obtain ⟨notQuote, notNewline, notEscape⟩ := plain d List.mem_cons_self
    rw [List.cons_append, scanBody_plain notQuote notNewline notEscape, ih fun d mem => plain d (.tail _ mem),
      List.length_cons, Nat.add_assoc, Nat.add_comm 1]
    cases scanBody false false quote (size + (ds.length + 1)) rest <;> rfl

theorem hex_plain (n : Nat) (small : n < 0x80) :
    ∀ d ∈ Text.hex 2 n, isQuote d = false ∧ d ≠ '\n' ∧ d ≠ '\\' := by
  have all : ∀ n : Fin 0x80, (Text.hex 2 n).all (fun d => !isQuote d && d != '\n' && d != '\\') = true := by
    decide
  simpa [and_assoc] using all ⟨n, small⟩

/-- A character as it is quoted is read as that character, or stays an escape. -/
theorem scanBody_literalChar {quote : Char} (quotes : isQuote quote = true) (c : Char) (size : Nat)
    (rest : List Char) :
    scanBody false false quote size (Text.literalChar quote c ++ rest) =
      (scanBody false false quote (size + (Text.literalChar quote c).length) rest).map
        fun r => (reread c ++ r.1, r.2) := by
  unfold Text.literalChar
  split
  next backslash => subst backslash; exact scanBody_escape quotes size '\\' rest
  next notEscape =>
  split
  next newline => subst newline; exact scanBody_escape quotes size 'n' rest
  next notNewline =>
  split
  next tab => subst tab; exact scanBody_escape quotes size 't' rest
  next notTab =>
  split
  next return' => subst return'; exact scanBody_escape quotes size 'r' rest
  next notReturn =>
  split
  next same =>
    subst same
    refine (scanBody_escape quotes size c rest).trans ?_
    rcases quote_cases quotes with rfl | rfl <;> rfl
  next notQuote =>
  split
  next control =>
    have range : c.toNat < 0x20 ∨ c.toNat = 0x7F := by simpa using control
    have unwritable : ¬ Writable c := fun writable => by
      simpa [notNewline, notTab, notReturn] using writable range
    have digits : ∀ d ∈ Text.hex 2 c.toNat, d ≠ quote ∧ d ≠ '\n' ∧ d ≠ '\\' := by
      intro d mem
      obtain ⟨other, notNewline, notEscape⟩ := hex_plain c.toNat (by omega) d mem
      refine ⟨fun same => ?_, notNewline, notEscape⟩
      rw [same, quotes] at other
      cases other
    rw [reread, if_neg unwritable, List.cons_append, List.cons_append, scanBody_escape quotes,
      scanBody_plains digits, List.length_cons, List.length_cons, Nat.add_assoc size 2, Nat.add_comm 2]
    cases scanBody false false quote (size + ((Text.hex 2 c.toNat).length + 2)) rest <;> rfl
  next plain =>
    have writable : Writable c := fun range => absurd (by simpa using range) plain
    rw [reread, if_pos writable]
    exact scanBody_plain notQuote notNewline notEscape size rest

theorem scanBody_literal {quote : Char} (quotes : isQuote quote = true) (cs : List Char) (size : Nat)
    (after : List Char) :
    scanBody false false quote size (cs.flatMap (Text.literalChar quote) ++ quote :: after) =
      .ok (cs.flatMap reread, size + (cs.flatMap (Text.literalChar quote)).length + 1) := by
  induction cs generalizing size with
  | nil =>
    rw [scanBody.eq_def]
    simp
  | cons c cs ih =>
    rw [List.flatMap_cons, List.append_assoc, scanBody_literalChar quotes c, ih]
    simp [Except.map, Nat.add_assoc]

theorem literalChar_head {quote : Char} (quotes : isQuote quote = true) (c : Char) :
    ∃ first rest, Text.literalChar quote c = first :: rest ∧ first ≠ quote := by
  have notEscape : '\\' ≠ quote := by rcases quote_cases quotes with rfl | rfl <;> decide
  unfold Text.literalChar
  repeat' split
  all_goals first | exact ⟨_, _, rfl, notEscape⟩ | exact ⟨_, _, rfl, ‹_›⟩

theorem isQuote_literalQuote (cs : List Char) : isQuote (Text.literalQuote cs) = true := by
  unfold Text.literalQuote
  split <;> rfl

/-- A quoted text is one token. -/
theorem lexes_quoted (cs : List Char) (ends : Delimited after) :
    Lexes (Text.literal cs) [.text (.ofList (cs.flatMap reread))] after := by
  have quotes := isQuote_literalQuote cs
  unfold Text.literal
  generalize Text.literalQuote cs = quote at quotes ⊢
  have body := scanBody_literal quotes cs 1 after
  have single : ¬ (cs.flatMap (Text.literalChar quote) ++ [quote] ++ after).take 2 = [quote, quote] := by
    cases cs with
    | nil => rcases quote_cases quotes with rfl | rfl <;> cases ends <;> simp
    | cons c cs =>
      obtain ⟨first, rest, toks, other⟩ := literalChar_head quotes c
      rw [List.flatMap_cons, toks]
      simp [other]
  have text : scanText false 0 (quote :: (cs.flatMap (Text.literalChar quote) ++ [quote] ++ after)) =
      .ok (.text (.ofList (cs.flatMap reread)),
        (cs.flatMap (Text.literalChar quote) ++ [quote]).length + 1) := by
    rw [scanText]
    simp only [if_neg single]
    rw [List.append_assoc, List.singleton_append, body]
    simp [Except.map]
    omega
  rw [List.cons_append]
  refine lexes_token rfl ?_
  have quoted : ∀ rest, scan quote rest =
      (scanText false 0 (quote :: rest)).map fun r => (.token r.1, r.2) := by
    intro rest
    rcases quote_cases quotes with rfl | rfl <;> rfl
  rw [quoted, text]
  rfl

theorem flatMap_reread {cs : List Char} (writable : ∀ c ∈ cs, Writable c) : cs.flatMap reread = cs := by
  induction cs with
  | nil => rfl
  | cons c cs ih =>
    rw [List.flatMap_cons, ih fun c mem => writable c (.tail _ mem), reread,
      if_pos (writable c List.mem_cons_self), List.singleton_append]

theorem lexes_literal {cs : List Char} (writable : ∀ c ∈ cs, Writable c) (ends : Delimited after) :
    Lexes (Text.literal cs) [.text (.ofList cs)] after := by
  have lexes := lexes_quoted cs ends
  rwa [flatMap_reread writable] at lexes

/-! ### Words -/

/-- What starts a name starts nothing else, unless a quote after it makes it a raw text. -/
theorem scan_of_isNameStart {c : Char} (starts : isNameStart c = true) (plain : startsRawText c rest = false) :
    scan c rest = .ok (.token (scanName (c :: rest)).1, (scanName (c :: rest)).2) := by
  have other {d : Char} (never : isNameStart d = false) : c ≠ d := by
    rintro rfl
    exact Bool.noConfusion (starts.symm.trans never)
  have digit : c.isDigit = false := by
    refine Bool.not_eq_true _ ▸ fun digit => ?_
    rcases isDigit_cases digit with rfl | rfl | rfl | rfl | rfl | rfl | rfl | rfl | rfl | rfl <;> cases starts
  have blank : isInlineBlank c = false := by
    simp [isInlineBlank, other (d := ' ') rfl, other (d := '\t') rfl, other (d := '\r') rfl, other (d := '\x0c') rfl]
  have quote : isQuote c = false := by simp [isQuote, other (d := '\x22') rfl, other (d := '\x27') rfl]
  have joined : continuation? (c :: rest) = none := by
    unfold continuation?
    split
    next same => exact absurd (List.cons.inj same).1 (other rfl)
    next same => exact absurd (List.cons.inj same).1 (other rfl)
    next => rfl
  unfold scan
  simp [blank, joined, other (d := '\n') rfl, other (d := '#') rfl, quote, startsNumber, digit,
    other (d := '.') rfl, plain, starts]
  rfl

theorem word_chars {c : Char} {cs : List Char} (starts : isNameStart c = true)
    (word : ∀ d ∈ cs, isNameChar d = true) : ∀ d ∈ c :: cs, isNameChar d = true := by
  refine List.forall_mem_cons.mpr ⟨?_, word⟩
  simp only [isNameStart, isNameChar, Text.isAlphanumeric, Bool.or_eq_true] at starts ⊢
  tauto

/-- A word that a delimiter ends. -/
theorem scan_word {c : Char} {cs : List Char} (starts : isNameStart c = true)
    (word : ∀ d ∈ cs, isNameChar d = true) (ends : Delimited after) :
    scan c (cs ++ after) = .ok (.token (scanName (c :: cs)).1, cs.length + 1) := by
  have all : (c :: cs).takeWhile isNameChar = c :: cs :=
    List.takeWhile_eq_self_iff.mpr (word_chars starts word)
  have stops : after.takeWhile isNameChar = [] := by cases ends <;> rfl
  have same : (c :: (cs ++ after)).takeWhile isNameChar = c :: cs := by
    rw [← List.cons_append, List.takeWhile_append_of_pos (word_chars starts word), stops, List.append_nil]
  have plain : (cs ++ after).head?.any isQuote = false := by
    cases cs with
    | nil => cases ends <;> rfl
    | cons d ds =>
      refine Bool.not_eq_true _ ▸ fun quotes => ?_
      rcases quote_cases (by simpa using quotes) with rfl | rfl <;> cases word _ List.mem_cons_self
  rw [scan_of_isNameStart starts (by rw [startsRawText, plain, Bool.and_false]), scanName, scanName, same, all]
  rfl

theorem scan_keyword (k : Keyword) (ends : Delimited after) :
    ∃ c cs, k.text.toList = c :: cs ∧ scan c (cs ++ after) = .ok (.token (.keyword k), cs.length + 1) := by
  cases k <;> exact ⟨_, _, rfl, scan_word rfl (List.all_eq_true.mp rfl) ends⟩

theorem lexes_keyword (k : Keyword) (ends : Delimited after) : Lexes k.text.toList [.keyword k] after := by
  obtain ⟨c, cs, same, scanned⟩ := scan_keyword k ends
  rw [same]
  exact lexes_token rfl scanned

end Token

end Scratchpad
