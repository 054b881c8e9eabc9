import Scratchpad.Proofs.Token.Spelled
import Scratchpad.Store.Repr

/-!
# Quoted texts are read back

The `repr` of a text is always one token. It holds the text again just if the text has no control characters
but those with an escape of their own: any other is written as a hexadecimal escape, which is read as the four
characters that it is written with (`reread`).
-/

namespace Scratchpad.Token

/-- Only a writable character is read as one character. -/
theorem length_reread (c : Char) : (reread c).length = 1 ↔ Writable c := by
  unfold reread
  split
  · simp [*]
  · simp [*]

theorem flatMap_reread_eq_self {cs : List Char} : cs.flatMap reread = cs ↔ ∀ c ∈ cs, Writable c := by
  refine ⟨fun same c mem => ?_, flatMap_reread⟩
  have positive (d : Char) : 1 ≤ (reread d).length := by
    unfold reread
    split <;> simp
  have sizes := congrArg List.length same
  rw [List.length_flatMap] at sizes
  by_contra unwritable
  have more : 1 < (reread c).length :=
    Nat.lt_of_le_of_ne (positive c) fun one => unwritable ((length_reread c).mp one.symm)
  have less : (cs.map fun _ => 1).sum < (cs.map fun d => (reread d).length).sum :=
    List.sum_lt_sum _ _ (fun d _ => positive d) ⟨c, mem, more⟩
  simp at less
  omega

theorem tokenize_literal (flags : Flags) (cs : List Char) :
    (tokenize flags (Text.literal cs)).map (·.map (·.token)) =
      .ok [.text (.ofList (cs.flatMap reread)), .newline] := by
  have quotes := isQuote_literalQuote cs
  have starts : measure 0 0 (Text.literal cs) = (0, 0) ∧ blankLine? (Text.literal cs) = none := by
    unfold Text.literal
    rcases quote_cases quotes with quote | quote <;> rw [quote] <;> exact ⟨rfl, rfl⟩
  have lexes : Lexes (Text.literal cs) ([] ++ [.text (.ofList (cs.flatMap reread))]) [] := lexes_quoted cs .nothing
  obtain ⟨placed, read, tokens⟩ := tokenize_line flags lexes starts.1 starts.2 (by simp)
  rw [read]
  exact congrArg Except.ok tokens

/-- The `repr` of a text is one token and the end of its line, under all flags. The token holds the text itself
just if its only control characters are tabs, newlines and carriage returns, and otherwise another text. -/
theorem text_repr_reads_back (flags : Flags) (store : Store) (s : String) :
    ((tokenize flags (store.repr (.text s)).toList).map (·.map (·.token)) = .ok [.text s, .newline] ↔
      ∀ c ∈ s.toList, Writable c) ∧
    ((∃ c ∈ s.toList, ¬ Writable c) →
      ∃ payload, payload ≠ s ∧
        (tokenize flags (store.repr (.text s)).toList).map (·.map (·.token)) =
          .ok [.text payload, .newline]) := by
  have quoted : (store.repr (.text s)).toList = Text.literal s.toList := by
    simp [Store.repr, Store.reprAt, Store.textLiteral]
  have same : String.ofList (s.toList.flatMap reread) = s ↔ ∀ c ∈ s.toList, Writable c := by
    rw [← flatMap_reread_eq_self, ← String.toList_inj, String.toList_ofList]
  rw [quoted, tokenize_literal]
  refine ⟨?_, fun ⟨c, mem, other⟩ => ⟨_, fun again => other (same.mp again c mem), rfl⟩⟩
  rw [Except.ok.injEq, List.cons.injEq, Token.text.injEq]
  simpa using same

/-- Both quotes, a backslash and an escape are read back, a bell is not. -/
theorem text_repr_reads_back_mixed :
    (tokenize {} (({} : Store).repr (.text "'\"\\\n")).toList).map (·.map (·.token)) =
        .ok [.text "'\"\\\n", .newline] ∧
      ∃ payload, payload ≠ "\x07" ∧
        (tokenize {} (({} : Store).repr (.text "\x07")).toList).map (·.map (·.token)) =
          .ok [.text payload, .newline] :=
  ⟨(text_repr_reads_back {} {} _).1.mpr (by simp [Writable]),
    (text_repr_reads_back {} {} _).2 ⟨'\x07', by simp, by decide⟩⟩

end Scratchpad.Token
