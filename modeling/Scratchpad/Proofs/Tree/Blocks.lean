import Scratchpad.Proofs.Token.Hollow
import Scratchpad.Proofs.Tree.Modes

/-!
# Blocks have statements

A block is read up to its dedent, and newlines in it are passed over, so that it is empty only if there is
nothing else between its indent and its dedent. Such tokens come from a hollow line only
(`blocks_have_statements`).
-/

namespace Scratchpad

/-- Where a block is empty, a line ends right after an indent. -/
theorem Token.HasEmptyBlock.pair {ts : List Token} (h : HasEmptyBlock ts) :
    ∃ t, State.endsLine t = true ∧ [.indent, t] <:+: ts := by
  obtain ⟨back, suffix, empty⟩ := h
  unfold opensEmptyBlock at empty
  split at empty
  · next ts =>
    cases ts with
    | nil => cases empty
    | cons t ts =>
      refine ⟨t, ?_, List.IsInfix.trans ⟨[], ts, rfl⟩ suffix.isInfix⟩
      by_cases newline : t = .newline
      · subst newline
        rfl
      · rw [List.dropWhile_cons_of_neg (by simpa using newline)] at empty
        rw [Option.some.inj (eq_of_beq empty)]
        rfl
  · cases empty

theorem Tree.filled_of_tokens {t : Tree} (h : ofTokens mode tokens = .ok t)
    (none : ¬ Token.HasEmptyBlock (tokens.map (·.token))) : ∀ n ∈ t.nodes, n.kind.block? ≠ some [] := by
  rw [ofTokens_within] at h
  obtain ⟨-, s, rooted⟩ := rooted_of_within h
  intro n mem empty
  rw [rooted.nodes] at mem
  obtain ⟨i, found⟩ := Array.mem_iff_getElem?.mp mem
  exact none ((rooted.built.sound i n (Nat.zero_le i) found).filled (Parse.bounded_ofTokens tokens) empty)

/-- The parser reads an empty block only where the lexer opens a block for a hollow line. In a tree of a
source without such lines every function, `if` and loop has a statement in its body. -/
theorem blocks_have_statements (mode : Mode) (flags : Flags) (source : String) (t : Tree)
    (h : Tree.ofSource mode flags source = .ok t) :
    ∃ tokens, Token.tokenize flags source.toList = .ok tokens ∧
      (¬ Token.HasEmptyBlock (tokens.map (·.token)) → ∀ n ∈ t.nodes, n.kind.block? ≠ some []) ∧
      (Token.HasEmptyBlock (tokens.map (·.token)) → Token.HasHollowLine source.toList) := by
  obtain ⟨tokens, read⟩ := tokens_of_ofSource h
  rw [ofSource_eq read] at h
  refine ⟨tokens, read, Tree.filled_of_tokens h, fun empty => ?_⟩
  obtain ⟨t, ends, inside⟩ := empty.pair
  exact Token.hollow_of_tokenize read ends inside

/-- A function with a loop, which a blank line and a comment come before. -/
def loopSource : String := "def f(x):\n  while x:\n\n    # down\n    x -= 1\n"

theorem blocks_have_statements_loop :
    ∃ t, Tree.ofSource .exec {} loopSource = .ok t ∧ ¬ Token.HasHollowLine loopSource.toList ∧
      ∀ n ∈ t.nodes, n.kind.block? ≠ some [] := by
  have solid : ¬ Token.HasHollowLine loopSource.toList := by decide +kernel
  have read : (Tree.ofSource .exec {} loopSource).isOk = true := by decide +kernel
  cases h : Tree.ofSource .exec {} loopSource with
  | ok t =>
    obtain ⟨tokens, -, filled, hollow⟩ := blocks_have_statements .exec {} loopSource t h
    exact ⟨t, rfl, solid, filled (mt hollow solid)⟩
  | error e =>
    rw [h] at read
    cases read

/-- The second line is joined to the third and nothing is on either, and the `if` has no body. -/
theorem hollow_line_empty_body :
    Token.HasHollowLine "if 1:\n  \\\n\nx".toList ∧
      (Tree.ofSource .exec {} "if 1:\n  \\\n\nx").toOption.map (·.nodes.toList.map (·.kind)) =
        some [.literal (.int 1), .ifStmt 0 [] [], .name "x", .exprStmt 2] := by
  decide +kernel

end Scratchpad
