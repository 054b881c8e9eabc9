import Scratchpad.Proofs.Token.Balance
import Scratchpad.Proofs.Token.Spelled

/-!
# Tokens are read back from their texts

Keywords, symbols, names and numbers have texts that tell them apart where a blank ends each of them. Texts of such
tokens with blanks between them are one line, whose tokens are those the texts were made of (`tokenize_rendered`).
-/

namespace Scratchpad.Token

/-- Tokens that are told by their texts: keywords, symbols, names that are no keywords, and numbers that are not
negative. -/
def Legible : Token → Prop
  | .keyword _ | .symbol _ => True
  | .name id => (∃ c cs, id.toList = c :: cs ∧ isNameStart c = true ∧ ∀ d ∈ cs, isNameChar d = true) ∧
      ∀ k : Keyword, k.text ≠ id
  | .int n => 0 ≤ n.toInt
  | _ => False

/-- The texts of tokens, each after a blank. -/
def spaced (ts : List Token) : List Char := ts.flatMap fun t => ' ' :: t.display.toList

/-- A text that stands before a blank or at the end. -/
def Spaced (after : List Char) : Prop := after = [] ∨ ∃ rest, after = ' ' :: rest

theorem Spaced.delimited (h : Spaced after) : Delimited after := by
  rcases h with rfl | ⟨rest, rfl⟩
  · exact .nothing
  · exact .blank rest

theorem spaced_append (ts : List Token) (h : Spaced after) : Spaced (spaced ts ++ after) := by
  cases ts with
  | nil => exact h
  | cons t ts => exact .inr ⟨_, rfl⟩

theorem toList_intercalate_display (ts : List Token) :
    (" ".intercalate (ts.map Token.display)).toList = (spaced ts).tail := by
  rw [String.toList_intercalate]
  induction ts with
  | nil => rfl
  | cons t ts ih =>
    cases ts with
    | nil => simp [spaced]
    | cons t' ts =>
      simp only [List.map_cons, List.intercalate_cons_cons] at ih ⊢
      rw [ih]
      simp [spaced]

/-! ### One token -/

theorem ofText?_of_ne {id : String} (other : ∀ k : Keyword, k.text ≠ id) : Keyword.ofText? id = none :=
  List.find?_eq_none.mpr fun k _ => by simpa using other k

theorem scan_symbol (b : Symbol) (ends : Spaced after) :
    ∃ c cs, b.text.toList = c :: cs ∧ scan c (cs ++ after) = .ok (.token (.symbol b), cs.length + 1) := by
  rcases ends with rfl | ⟨rest, rfl⟩ <;> cases b <;> exact ⟨_, _, rfl, rfl⟩

/-- The text of a token is scanned as that token. -/
theorem scan_display (legible : Legible t) (ends : Spaced after) :
    ∃ c cs, t.display.toList = c :: cs ∧ scan c (cs ++ after) = .ok (.token t, cs.length + 1) := by
  cases t with
  | keyword k => exact scan_keyword k ends.delimited
  | symbol b => exact scan_symbol b ends
  | name id =>
    obtain ⟨⟨c, cs, same, starts, word⟩, other⟩ := legible
    refine ⟨c, cs, same, ?_⟩
    rw [scan_word starts word ends.delimited, scanName,
      List.takeWhile_eq_self_iff.mpr (word_chars starts word), ← same, String.ofList_toList, ofText?_of_ne other]
  | int n =>
    obtain ⟨d, ds, same, scanned⟩ := scan_toDigits legible ends.delimited
    refine ⟨d, ds, ?_, scanned⟩
    rw [Token.display, Int.toString_eq_repr, Int.repr_eq_if, if_pos (show 0 ≤ n.toInt from legible),
      Nat.toList_repr, same]
  | text | float | newline | indent | dedent => cases legible

/-- A line that starts with a token starts at the margin and is not blank. -/
theorem flush_of_scan (h : scan c rest = .ok (.token t, n)) :
    measure 0 0 (c :: rest) = (0, 0) ∧ blankLine? (c :: rest) = none := by
  have newline : c ≠ '\n' := by rintro rfl; cases h
  have other {d : Char} {m : Nat} (blank : scan d rest = .ok (.blank, m)) : c ≠ d := by
    rintro rfl
    rw [h] at blank
    cases blank
  constructor
  · rw [measure, if_neg (other rfl), if_neg (other rfl), if_neg (other rfl)]
  · unfold blankLine?
    split
    next same => cases same
    next same => exact absurd (List.cons.inj same).1 newline
    next same => exact absurd (List.cons.inj same).1 (other rfl)
    next same => exact absurd (List.cons.inj same).1 (other rfl)
    next => rfl

/-! ### Lines of tokens -/

theorem lexes_spaced (h : ts ≠ [] → Lexes (spaced ts).tail ts after) : Lexes (spaced ts) ts after := by
  cases ts with
  | nil => exact lexes_nil after
  | cons t ts =>
    have blank : Lexes [' '] [] ((spaced (t :: ts)).tail ++ after) := lexes_blank rfl
    exact blank.append (h (by simp))

/-- What is between brackets is read for itself, so that the induction is on the nesting. -/
theorem Paired.lexes (h : Paired false ts) (legible : ∀ t ∈ ts, Legible t) (some : ts ≠ [])
    (ends : Spaced after) : Lexes (spaced ts).tail ts after := by
  generalize inside : false = layout at h
  induction h generalizing after with
  | nil => exact absurd rfl some
  | @plain t layout ts one may rest ih =>
    have more : Lexes (spaced ts) ts after :=
      lexes_spaced fun some => ih (fun t mem => legible t (.tail _ mem)) some ends inside
    obtain ⟨c, cs, same, scanned⟩ := scan_display (legible t List.mem_cons_self) (spaced_append ts ends)
    have first : Lexes t.display.toList [t] (spaced ts ++ after) := by
      rw [same]
      exact lexes_token one scanned
    exact first.append more
  | @pair closer ts layout ts' opener matching inner rest ihInner ih =>
    have more : Lexes (spaced ts') ts' after := lexes_spaced fun some =>
      ih (fun t mem => legible t (by simp [mem])) some ends inside
    -- The blank before the closing bracket ends what is between the brackets.
    obtain ⟨o, b, opens, closes, texts⟩ : ∃ o b,
        (∀ rest, scan o rest = .ok (.token (.symbol opener), 1)) ∧
        (∀ rest, scan b rest = .ok (.token (.symbol closer), 1)) ∧
        opener.text.toList = [o] ∧ closer.text.toList = [b] := by
      cases opener <;> cases matching <;> exact ⟨_, _, fun _ => rfl, fun _ => rfl, rfl, rfl⟩
    have between : Lexes (spaced ts ++ [' ']) ts (b :: (spaced ts' ++ after)) := by
      have read : Lexes (spaced ts) ts ([' '] ++ b :: (spaced ts' ++ after)) := lexes_spaced fun some =>
        ihInner (fun t mem => legible t (by simp [mem])) some (.inr ⟨_, rfl⟩) rfl
      simpa using read.append (lexes_blank rfl)
    have both := (lexes_brackets matching opens closes between).append more
    simpa [spaced, Token.display, texts] using both

/-- The texts of tokens with blanks between them are read as those tokens and a newline. -/
theorem tokenize_rendered (flags : Flags) (some : ts ≠ []) (legible : ∀ t ∈ ts, Legible t)
    (nested : Paired false ts) :
    ∃ placed, tokenize flags (" ".intercalate (ts.map Token.display)).toList = .ok placed ∧
      placed.map (·.token) = ts ++ [.newline] := by
  have lexes : Lexes (spaced ts).tail ts [] := nested.lexes legible some (.inl rfl)
  obtain ⟨flush, full⟩ : measure 0 0 (spaced ts).tail = (0, 0) ∧ blankLine? (spaced ts).tail = none := by
    obtain ⟨t, more, rfl⟩ := List.exists_cons_of_ne_nil some
    obtain ⟨c, cs, same, scanned⟩ :=
      scan_display (legible t List.mem_cons_self) (spaced_append more (.inl rfl))
    simpa [spaced, same] using flush_of_scan scanned
  rw [toList_intercalate_display]
  obtain rfl | ⟨front, last, rfl⟩ := List.eq_nil_or_concat ts
  · exact absurd rfl some
  · have legible := legible last (by simp)
    rw [List.concat_eq_append] at *
    exact tokenize_line flags lexes flush full ⟨by rintro rfl; exact legible, by rintro rfl; exact legible⟩

theorem tokenize_rendered_call :
    ∃ placed, tokenize {} "r ( x_1 , [ ] ) ** 10 != not".toList = .ok placed ∧
      placed.map (·.token) = [.name "r", .symbol .leftParen, .name "x_1", .symbol .comma, .symbol .leftBracket,
        .symbol .rightBracket, .symbol .rightParen, .symbol .doubleStar, .int 10, .symbol .ne, .keyword .notKw,
        .newline] := by
  let inner : List Token := [.name "x_1", .symbol .comma, .symbol .leftBracket, .symbol .rightBracket]
  let more : List Token := [.symbol .doubleStar, .int 10, .symbol .ne, .keyword .notKw]
  have nested : Paired false (.name "r" :: (.symbol .leftParen :: inner ++ .symbol .rightParen :: more)) := by
    refine .plain rfl (by simp [isLayout]) (.pair rfl ?_ ?_)
    · exact .plain rfl (by simp [isLayout]) (.plain rfl (by simp [isLayout]) (.pair rfl .nil .nil))
    · repeat first | exact .nil | refine .plain rfl (by simp [isLayout]) ?_
  refine tokenize_rendered {} (by simp) ?_ nested
  have short : Legible (.name "r") := ⟨⟨_, _, rfl, rfl, by simp⟩, by intro k; cases k <;> decide⟩
  have long : Legible (.name "x_1") :=
    ⟨⟨_, _, rfl, rfl, List.all_eq_true.mp rfl⟩, by intro k; cases k <;> decide⟩
  have number : (0 : Int) ≤ (10 : Int64).toInt := by decide
  simp only [inner, more, List.cons_append, List.nil_append, List.forall_mem_cons]
  exact ⟨short, trivial, long, trivial, trivial, trivial, trivial, trivial, number, trivial, trivial, by simp⟩

end Scratchpad.Token
