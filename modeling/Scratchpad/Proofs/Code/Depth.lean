import Scratchpad.Proofs.Code.Refusals
import Scratchpad.Proofs.Tree.Forest

/-!
# When nodes nest too deep

A tree is refused for the limit on nesting only where `Nests` does not hold with that limit (`ofTree_notDeep`). A
level of the parser is eight levels of nodes, and a parser that may open fewer levels reads the same tree unless
it refuses the source for them, so a source that nests at most 18 levels deep is safe (`shallow_never_too_deep`). A source that nests 20 levels deep need not be (`tower_too_deep`), though the parser
reads a hundred.
-/

namespace Scratchpad

/-- A tree whose nodes nest less than the limit is not refused for their nesting. -/
theorem ofTree_notDeep {t : Tree} (h : ∀ x ∈ t.body, Nests t.nodes d x) (le : d + 1 ≤ Lower.maxNesting) :
    Lower.Refuses Lower.NotNesting (Code.ofTree t mode) := by
  intro e failed
  rcases Lower.refused_ofTree t mode e failed with ⟨-, deep⟩ | ⟨other, -⟩
  · exact absurd (fun x mem => .inr ⟨149, rfl, (h x mem).mono (Nat.le_of_succ_le_succ le)⟩) deep
  · exact other

/-- The tree of a source that nests at most so deep. -/
def Tree.ofSourceWithin (room : Nat) (mode : Mode) (flags : Flags) (source : String) :
    Except SyntaxError Tree := do
  let tokens ← (Token.tokenize flags source.toList).mapError .lexical
  ofTokensWithin room mode tokens

/-- With less room a source is read to the same, or refused because it nests too deep. -/
theorem Tree.ofSource_within (mode : Mode) (flags : Flags) (source : String) (le : room ≤ Parse.maxNesting) :
    ofSourceWithin room mode flags source = ofSource mode flags source ∨
      ∃ what span, ofSourceWithin room mode flags source = .error (.invalid (.tooNested what) span) := by
  simp only [ofSourceWithin, ofSource, bind, Except.bind]
  cases (Token.tokenize flags source.toList).mapError SyntaxError.lexical with
  | error e => exact .inl rfl
  | ok tokens =>
    dsimp only
    rw [ofTokens_within]
    exact (ofTokensWithin_mono mode tokens le).imp_left Eq.symm

/-- A source whose brackets, operators and blocks nest at most 18 levels deep, so that a parser which may
open no more does not refuse it for that, is read as that parser reads it, and its tree is not refused
because the nodes nest too deep. -/
theorem shallow_never_too_deep (room : Nat) (mode : Mode) (flags : Flags) (source : String) (le : room ≤ 18)
    (shallow : ∀ what span, Tree.ofSourceWithin room mode flags source ≠ .error (.invalid (.tooNested what) span)) :
    Tree.ofSource mode flags source = Tree.ofSourceWithin room mode flags source ∧
      ∀ t, Tree.ofSource mode flags source = .ok t →
        ∀ what span, Code.ofTree t mode ≠ .error (.invalid (.tooNested what) span) := by
  have same : Tree.ofSourceWithin room mode flags source = Tree.ofSource mode flags source :=
    (Tree.ofSource_within mode flags source (le.trans (by decide))).resolve_right
      fun ⟨what, span, deep⟩ => shallow what span deep
  refine ⟨same.symm, fun t read what span failed => ?_⟩
  obtain ⟨tokens, -, read⟩ := except_bind_ok (same.trans read)
  obtain ⟨-, s', rooted⟩ := Tree.rooted_of_within read
  have bound : 8 * room + 5 + 1 ≤ Lower.maxNesting := by
    unfold Lower.maxNesting
    omega
  exact ofTree_notDeep rooted.nests bound _ failed what span rfl

/-- An expression of so many brackets in one another, with operators of all levels in each. -/
def tower : Nat → List Char
  | 0 => ['0']
  | room + 1 => "0 or 0 and 0<0+0*[x:=".toList ++ tower room ++ "] if 0 else 0".toList

theorem shallow_never_too_deep_tower :
    ∃ t, Tree.ofSource .eval {} (.ofList (tower 2)) = .ok t ∧
      ∀ what span, Code.ofTree t .eval ≠ .error (.invalid (.tooNested what) span) := by
  have read : (Tree.ofSourceWithin 3 .eval {} (.ofList (tower 2))).isOk = true := by
    rw [Tree.ofSourceWithin, String.toList_ofList]
    decide +kernel
  cases h : Tree.ofSourceWithin 3 .eval {} (.ofList (tower 2)) with
  | ok t =>
    have safe := shallow_never_too_deep 3 .eval {} (.ofList (tower 2)) (by decide) (by simp [h])
    exact ⟨t, safe.1.trans h, safe.2 t (safe.1.trans h)⟩
  | error e =>
    rw [h] at read
    cases read

/-- Nineteen brackets in one another are read, but nest too deep to be lowered. -/
theorem tower_too_deep :
    ∃ t span, Tree.ofSource .eval {} (.ofList (tower 19)) = .ok t ∧
      Code.ofTree t .eval = .error (.invalid (.tooNested .nodes) span) := by
  have refused : ((Tree.ofSource .eval {} (.ofList (tower 19))).toOption.map (Code.ofTree · .eval)).any
      (fun made => made matches .error (.invalid (.tooNested .nodes) _)) = true := by
    rw [Tree.ofSource, String.toList_ofList]
    decide +kernel
  cases read : Tree.ofSource .eval {} (.ofList (tower 19)) with
  | error e =>
    rw [read] at refused
    cases refused
  | ok t =>
    rw [read] at refused
    simp only [Except.toOption, Option.map_some, Option.any_some] at refused
    split at refused
    · exact ⟨t, _, rfl, ‹_›⟩
    · cases refused

end Scratchpad
