import Scratchpad.Proofs.Token.Tiles
import Scratchpad.Proofs.Tree.Modes

/-!
# Spans of expressions

Merging the places of two parts of a text gives the place of a part that has both (`Located.merge`). The span of
an expression is merged from those of its first and last token, so that it is the place of a part of the source,
and it has the spans of its operands in it (`expression_spans_faithful`).
-/

namespace Scratchpad

theorem Span.merge_comm (a b : Span) : a.merge b = b.merge a := by
  simp only [Span.merge, Nat.min_comm b.line, Nat.min_comm b.start, Nat.max_comm b.stop, Span.mk.injEq, true_and,
    and_true]
  rcases Nat.lt_trichotomy a.line b.line with less | same | greater
  · rw [if_neg less.ne, if_pos less, if_neg less.ne', if_neg less.asymm]
  · rw [if_pos same, if_pos same.symm, Nat.min_comm]
  · rw [if_neg greater.ne', if_neg greater.asymm, if_neg greater.ne, if_pos greater]

namespace Token

open String (utf8Len)

/-- The line and column of a merged span are those of the place that comes first. -/
theorem merge_placeOf (before mid piece piece' : List Char) :
    (placeOf before piece).merge (placeOf (before ++ mid) piece') =
      { placeOf before [] with stop := max (utf8Len (before ++ piece)) (utf8Len (before ++ mid ++ piece')) } := by
  have col : before.count '\n' = (before ++ mid).count '\n' →
      (before.reverse.takeWhile (· != '\n')).length ≤ ((before ++ mid).reverse.takeWhile (· != '\n')).length := by
    intro same
    have none : '\n' ∉ mid := by
      rw [List.count_append] at same
      exact List.count_eq_zero.mp (by omega)
    have inLine : ∀ c ∈ mid.reverse, (c != '\n') = true := by
      intro c mem
      rw [bne_iff_ne]
      rintro rfl
      exact none (List.mem_reverse.mp mem)
    rw [List.reverse_append, List.takeWhile_append_of_pos inLine]
    simp
  have line : before.count '\n' ≤ (before ++ mid).count '\n' := by simp [List.count_append]
  simp only [Span.merge, placeOf, String.utf8Len_append, Span.mk.injEq] at col line ⊢
  refine ⟨by omega, ?_, by omega, trivial⟩
  split
  · have := col (by omega)
    omega
  · rw [if_pos (by omega)]

/-- Of two parts one comes first. -/
theorem located_merge (whole : source = before ++ piece ++ after)
    (whole' : source = before ++ mid ++ piece' ++ after') :
    Located source ((placeOf before piece).merge (placeOf (before ++ mid) piece')) := by
  have ends : before ++ piece <+: source := ⟨after, whole.symm⟩
  have ends' : before ++ mid ++ piece' <+: source := ⟨after', whole'.symm⟩
  rw [merge_placeOf]
  rcases List.prefix_or_prefix_of_prefix ends ends' with shorter | longer
  · rw [Nat.max_eq_right (String.utf8Len_le_of_sublist shorter.sublist)]
    exact ⟨before, mid ++ piece', after', by simp [whole'], by simp [placeOf]⟩
  · rw [Nat.max_eq_left (String.utf8Len_le_of_sublist longer.sublist)]
    exact ⟨before, piece, after, whole, by simp [placeOf]⟩

theorem Located.merge {a b : Span} (h : Located source a) (h' : Located source b) : Located source (a.merge b) := by
  obtain ⟨before, piece, after, whole, rfl⟩ := h
  obtain ⟨before', piece', after', whole', rfl⟩ := h'
  have front : before <+: source := ⟨piece ++ after, by rw [whole, List.append_assoc]⟩
  have front' : before' <+: source := ⟨piece' ++ after', by rw [whole', List.append_assoc]⟩
  rcases List.prefix_or_prefix_of_prefix front front' with ⟨mid, rfl⟩ | ⟨mid, rfl⟩
  · exact located_merge whole whole'
  · rw [Span.merge_comm]
    exact located_merge whole' whole

/-- Parts of the source that are not empty. -/
def scaleOf (source : List Char) : Parse.Scale where
  fits span := Located source span ∧ span.start < span.stop
  proper h := h.2
  merge h h' := ⟨h.1.merge h'.1, (Nat.min_le_left ..).trans_lt (h.2.trans_le (Nat.le_max_left ..))⟩

/-- The tokens of a source lie in it, one after the other. -/
theorem laid_of_tokenize (h : tokenize flags source = .ok tokens) :
    (Parse.State.ofTokens tokens).Laid (scaleOf source) := by
  have plain {t : Token} (inLine : Parse.InLine t) : isLayout t = false ∧ isBlock t = false := by
    cases t <;> first | exact ⟨rfl, rfl⟩ | cases inLine
  obtain ⟨-, -, -, -, -, -, located⟩ := tiles_of_tokenize h
  refine ⟨fun p mem inLine => ⟨located p mem, proper_of_tokenize h mem (plain inLine).1⟩, ?_⟩
  refine (List.pairwise_filter.mp (inOrder_of_tokenize h)).imp fun before inLine inLine' => ?_
  exact (before (by simp [(plain inLine).2]) (by simp [(plain inLine').2])).2

end Token

/-- In a tree of a source the span of an expression is the place of a part of the source that is not empty, and
has the spans of its operands in it. -/
theorem expression_spans_faithful (mode : Mode) (flags : Flags) (source : String) (t : Tree)
    (h : Tree.ofSource mode flags source = .ok t) :
    ∀ n ∈ t.nodes, n.kind.isExpression = true →
      Token.Located source.toList n.span ∧ n.span.start < n.span.stop ∧ n.span.stop ≤ source.utf8ByteSize ∧
      ∀ c ∈ n.kind.children, ∃ m, t.get? c = some m ∧ n.span.start ≤ m.span.start ∧ m.span.stop ≤ n.span.stop := by
  obtain ⟨tokens, read⟩ := tokens_of_ofSource h
  rw [ofSource_eq read, Tree.ofTokens_within] at h
  obtain ⟨-, s, rooted⟩ := Tree.rooted_of_within h
  intro n mem sort
  rw [rooted.nodes] at mem
  obtain ⟨i, found⟩ := Array.mem_iff_getElem?.mp mem
  have sound := rooted.built.sound i n (Nat.zero_le i) found
  obtain ⟨⟨located, proper⟩, within⟩ := sound.placed sort _ (Token.laid_of_tokenize read)
  refine ⟨located, proper, String.utf8Len_toList source ▸ located.bounds.2, fun c child => ?_⟩
  have position : (Role.expression, c) ∈ n.kind.positions := by
    rw [NodeKind.positions_expression sort]
    exact List.mem_map_of_mem child
  obtain ⟨m, there, -⟩ := sound.fills _ position
  have inside := within c child
  rw [Parse.spanAt_of_found there] at inside
  exact ⟨m, by rw [Tree.get?, rooted.nodes]; exact there, inside⟩

/-- Two lines, of which the second goes on with a call. -/
def spreadSource : String := "y = (é +\n  f(x, 1))[0]"

theorem expression_spans_faithful_spread :
    ∃ t, Tree.ofSource .exec {} spreadSource = .ok t ∧
      ∃ n ∈ t.nodes, n.kind = .binary 1 .add 5 ∧ n.span = ⟨1, 6, 5, 19⟩ ∧
        Token.Located spreadSource.toList n.span ∧ n.span.stop ≤ spreadSource.utf8ByteSize := by
  have read : (Tree.ofSource .exec {} spreadSource).toOption.map (·.nodes[6]?) =
      some (some ⟨.binary 1 .add 5, ⟨1, 6, 5, 19⟩⟩) := by decide +kernel
  cases h : Tree.ofSource .exec {} spreadSource with
  | ok t =>
    rw [h] at read
    have mem := Array.mem_of_getElem? (Option.some.inj read)
    obtain ⟨located, -, high, -⟩ := expression_spans_faithful .exec {} spreadSource t h _ mem rfl
    exact ⟨t, rfl, _, mem, rfl, rfl, located, high⟩
  | error e =>
    rw [h] at read
    cases read

end Scratchpad
