import Scratchpad.Proofs.Token.Turns

/-!
# Brackets and blocks are balanced

In the tokens of a text brackets come in matching pairs with no layout between them, and no block is
closed before it is opened (`Balanced`). The lexer keeps the brackets it waits for and the blocks it
has to close in two stacks; `Level` says what the stacks have to do with the tokens read so far. The
flag that keeps blocks open takes away some of the dedents at the end and nothing else.
-/

namespace Scratchpad.Token

/-! ### Brackets -/

/-- Brackets in matching pairs, with no layout between them. Outside of all brackets layout may stand
if `layout` says so. -/
inductive Paired : Bool → List Token → Prop where
  | nil : Paired layout []
  | plain (one : isPlain t = true) (may : isLayout t = true → layout = true)
      (rest : Paired layout ts) : Paired layout (t :: ts)
  | pair (matching : opener.closer? = some closer) (inner : Paired false ts)
      (rest : Paired layout ts') :
      Paired layout (.symbol opener :: ts ++ .symbol closer :: ts')

theorem Paired.append (h : Paired layout ts) (more : Paired layout ts') :
    Paired layout (ts ++ ts') := by
  induction h with
  | nil => exact more
  | plain one may rest ih => exact .plain one may (ih more)
  | pair matching inner rest _ ih =>
    rw [List.append_assoc, List.cons_append]
    exact .pair matching inner (ih more)

theorem Paired.mono (h : Paired false ts) : Paired layout ts := by
  generalize none : false = inside at h
  induction h with
  | nil => exact .nil
  | plain one may rest ih =>
    refine .plain one (fun kind => ?_) (ih none)
    have never := may kind
    rw [← none] at never
    cases never
  | pair matching inner rest _ ih => exact .pair matching inner (ih none)

/-- Tokens after which the brackets of the stack are open, the innermost first. -/
inductive Opened : List Symbol → List Token → Prop where
  | none (h : Paired true ts) : Opened [] ts
  | one (outer : Opened stack ts) (opens : opener.closer? = some closer) (inner : Paired false ts') :
      Opened (opener :: stack) (ts ++ .symbol opener :: ts')

theorem Opened.append (h : Opened stack ts) (more : Paired false ts') : Opened stack (ts ++ ts') := by
  cases h with
  | none h => exact .none (h.append more.mono)
  | one outer opens inner =>
    rw [List.append_assoc]
    exact .one outer opens (inner.append more)

theorem Opened.plain (h : Opened stack ts) (one : isPlain t = true) (inLine : isLayout t = false) :
    Opened stack (ts ++ [t]) :=
  h.append (.plain one (fun kind => by rw [inLine] at kind; cases kind) .nil)

theorem Opened.layout (h : Opened [] ts) (kind : isLayout t = true) : Opened [] (ts ++ [t]) := by
  have one : isPlain t = true := by cases t <;> first | rfl | cases kind
  cases h with
  | none h => exact .none (h.append (.plain one (fun _ => rfl) .nil))

theorem Opened.replicate (h : Opened [] ts) (kind : isLayout t = true) (n : Nat) :
    Opened [] (ts ++ List.replicate n t) := by
  induction n with
  | zero => simpa using h
  | succ n ih =>
    rw [List.replicate_succ', ← List.append_assoc]
    exact ih.layout kind

theorem Opened.close (h : Opened (opener :: stack) ts) (matching : opener.closer? = some closer) :
    Opened stack (ts ++ [.symbol closer]) := by
  cases h with
  | one outer opens inner =>
    rw [List.append_assoc]
    exact outer.append (.pair matching inner .nil)

/-! ### Blocks -/

/-- Tokens that close no block before it is opened, and leave `n` blocks open. -/
structure Blocks (n : Nat) (ts : List Token) : Prop where
  opened : ∀ front, front <+: ts → front.count .dedent ≤ front.count .indent
  left : ts.count .indent = ts.count .dedent + n

/-- One more token, if it does not close more than is open. -/
theorem Blocks.add (h : Blocks n ts) (left : (ts ++ [t]).count .indent = (ts ++ [t]).count .dedent + m) :
    Blocks m (ts ++ [t]) where
  opened front is := by
    rcases List.prefix_concat_iff.mp is with rfl | earlier
    · omega
    · exact h.opened front earlier
  left := left

theorem Blocks.indent (h : Blocks n ts) : Blocks (n + 1) (ts ++ [.indent]) := by
  apply h.add
  have left := h.left
  simp only [List.count_append, List.count_singleton_self]
  have other : List.count Token.dedent [.indent] = 0 := rfl
  omega

theorem Blocks.dedent (h : Blocks (n + 1) ts) : Blocks n (ts ++ [.dedent]) := by
  apply h.add
  have left := h.left
  simp only [List.count_append, List.count_singleton_self]
  have other : List.count Token.indent [.dedent] = 0 := rfl
  omega

theorem Blocks.dedents (h : Blocks n ts) (le : m ≤ n) :
    Blocks (n - m) (ts ++ List.replicate m .dedent) := by
  induction m with
  | zero => simpa using h
  | succ m ih =>
    have before := ih (by omega)
    rw [show n - m = n - (m + 1) + 1 by omega] at before
    rw [List.replicate_succ', ← List.append_assoc]
    exact before.dedent

theorem Blocks.other (h : Blocks n ts) (indent : t ≠ .indent) (dedent : t ≠ .dedent) :
    Blocks n (ts ++ [t]) := by
  apply h.add
  have left := h.left
  simp only [List.count_append, List.count_singleton, beq_iff_eq, indent, dedent, if_false]
  omega

/-! ### What the lexer keeps -/

namespace State

variable {s s' : State}

/-- The two stacks tell which brackets and how many blocks are open. -/
structure Level (s : State) : Prop where
  brackets : Opened (s.brackets.map (·.1)) s.kinds
  blocks : Blocks s.indents.length s.kinds

theorem level_first (source : List Char) : (first source).Level where
  brackets := .none .nil
  blocks := ⟨fun front is => by rw [List.prefix_nil.mp is]; exact Nat.le_refl _, rfl⟩

theorem Level.turn (h : s.Level) (turn : s.Turn s') : s'.Level := by
  cases turn with
  | line outside blank => exact ⟨h.brackets, h.blocks⟩
  | indent outside width =>
    have brackets := h.brackets
    rw [outside] at brackets
    constructor
    · rw [kinds_of_tokens (s := s) rfl]
      simp only [push, within, outside]
      exact brackets.layout rfl
    · rw [kinds_of_tokens (s := s) rfl]
      exact h.blocks.indent
  | dedent outside n le =>
    have brackets := h.brackets
    rw [outside] at brackets
    constructor
    · rw [kinds_of_replicate (s := s) rfl]
      simp only [within, outside]
      exact brackets.replicate rfl n
    · rw [kinds_of_replicate (s := s) rfl]
      simp only [List.length_drop]
      exact h.blocks.dedents le
  | blank here scanned => exact ⟨h.brackets, h.blocks⟩
  | joined inside here scanned => exact ⟨h.brackets, h.blocks⟩
  | newline outside here scanned =>
    have brackets := h.brackets
    rw [outside] at brackets
    constructor
    · rw [kinds_of_tokens (s := s) rfl]
      simp only [push, passing, outside]
      exact brackets.layout rfl
    · rw [kinds_of_tokens (s := s) rfl]
      exact h.blocks.other (by simp) (by simp)
  | @token c rest t n s' here scanned kept =>
    obtain ⟨-, indents, -, tokens⟩ := accept_ok kept
    have inLine := isLayout_of_scan scanned
    constructor
    · rw [kinds_of_tokens (s := s) tokens]
      rcases accept_brackets kept with
        ⟨one, same⟩ | ⟨opener, closer, rfl, opens, top⟩ | ⟨opener, closer, span, rfl, matching, top⟩
      · rw [same]
        exact h.brackets.plain one inLine
      · rw [top]
        exact .one h.brackets opens .nil
      · have brackets := h.brackets
        rw [show s.brackets = (opener, span) :: s'.brackets from top] at brackets
        exact brackets.close matching
    · rw [kinds_of_tokens (s := s) tokens, indents]
      exact h.blocks.other (by rintro rfl; cases inLine) (by rintro rfl; cases inLine)

/-- The newline that closes the last line changes nothing. -/
theorem Level.ended (h : s.Level) (outside : s.brackets = []) :
    Opened [] (s.ended.map (·.token)) ∧ Blocks s.indents.length (s.ended.map (·.token)) := by
  have brackets := h.brackets
  rw [outside] at brackets
  unfold State.ended
  split
  · rw [List.map_append]
    exact ⟨brackets.layout rfl, h.blocks.other (by simp) (by simp)⟩
  · rw [List.append_nil]
    exact ⟨brackets, h.blocks⟩

end State

/-! ### Whole texts -/

/-- Brackets come in matching pairs with no layout between them, and blocks are closed only where one
is open. -/
structure Balanced (ts : List Token) : Prop where
  brackets : Paired true ts
  blocks : ∀ front, front <+: ts → front.count .dedent ≤ front.count .indent

theorem map_replicate (ts : List Placed) (n : Nat) (p : Placed) :
    (ts ++ List.replicate n p).map (·.token) = ts.map (·.token) ++ List.replicate n p.token := by
  rw [List.map_append, List.map_replicate]

theorem blocks_of_tokenize (h : tokenize flags source = .ok tokens) :
    ∃ n, Paired true (tokens.map (·.token)) ∧ Blocks n (tokens.map (·.token)) ∧
      (flags.keepsBlocksOpen = false → n = 0) := by
  obtain ⟨s, read, outside, rfl⟩ := tokenize_ok h
  have level : s.Level := State.keeps_of_run State.Level.turn (State.level_first source) read
  obtain ⟨brackets, blocks⟩ := level.ended outside
  have le : s.closing flags ≤ s.indents.length := by
    unfold State.closing
    split <;> omega
  rw [map_replicate]
  refine ⟨s.indents.length - s.closing flags, ?_, blocks.dedents le, fun closes => ?_⟩
  · cases brackets.replicate (t := .dedent) rfl (s.closing flags) with
    | none paired => exact paired
  · simp [State.closing, closes]

/-- Where all blocks are closed at the end, there are dedents more than with any other flags. -/
theorem tokenize_closing (source : List Char) (flags : Flags) {closing : Flags}
    (closes : closing.keepsBlocksOpen = false) :
    (∃ e, tokenize flags source = .error e ∧ tokenize closing source = .error e) ∨
      ∃ tokens n span, tokenize flags source = .ok tokens ∧
        tokenize closing source = .ok (tokens ++ List.replicate n ⟨.dedent, span⟩) := by
  rw [tokenize_eq, tokenize_eq]
  cases (State.first source).read with
  | error e => exact .inl ⟨e, rfl, rfl⟩
  | ok s =>
    change (∃ e, s.finish flags = _ ∧ s.finish closing = _) ∨
      ∃ tokens n span, s.finish flags = _ ∧ s.finish closing = _
    match inside : s.brackets with
    | b :: outer =>
      exact .inl ⟨_, State.finish_open flags inside, State.finish_open closing inside⟩
    | [] =>
      have all : s.closing closing = s.indents.length := by simp [State.closing, closes]
      have le : s.closing flags ≤ s.closing closing := by
        rw [all]
        unfold State.closing
        split <;> omega
      refine .inr ⟨_, s.closing closing - s.closing flags, s.cursor.spanTo s.cursor,
        State.finish_eq flags inside, ?_⟩
      rw [State.finish_eq closing inside, List.append_assoc, ← List.replicate_add,
        Nat.add_sub_cancel' le]

/-- The tokens of a text are balanced, and without the flag that keeps blocks open every block is
closed. With other flags the same texts have tokens, and some dedents at the end are all that may be
missing. -/
theorem tokens_are_balanced (source : List Char) :
    (∀ flags tokens, tokenize flags source = .ok tokens →
      Balanced (tokens.map (·.token)) ∧
        (flags.keepsBlocksOpen = false →
          (tokens.map (·.token)).count .dedent = (tokens.map (·.token)).count .indent)) ∧
    ∀ flags closing : Flags, closing.keepsBlocksOpen = false →
      (∃ e, tokenize flags source = .error e ∧ tokenize closing source = .error e) ∨
        ∃ tokens dedents, tokenize flags source = .ok tokens ∧
          tokenize closing source = .ok (tokens ++ dedents) ∧ ∀ p ∈ dedents, p.token = .dedent := by
  constructor
  · intro flags tokens h
    obtain ⟨n, paired, blocks, closed⟩ := blocks_of_tokenize h
    refine ⟨⟨paired, blocks.opened⟩, fun closes => ?_⟩
    have left := blocks.left
    rw [closed closes] at left
    exact left.symm
  · intro flags closing closes
    rcases tokenize_closing source flags closes with failed | ⟨tokens, n, span, some, all⟩
    · exact .inl failed
    · exact .inr ⟨tokens, _, some, all, fun p mem => by rw [(List.mem_replicate.mp mem).2]⟩

/-- A block in a block, with brackets over several lines. -/
def nested : List Char := "def f(a):\n  if a[\n0]:\n\treturn (\n1)".toList

theorem tokens_are_balanced_nested :
    ∃ tokens dedents, tokenize ⟨0x200⟩ nested = .ok tokens ∧
      tokenize {} nested = .ok (tokens ++ dedents) ∧ dedents.length = 2 ∧
      (∀ p ∈ dedents, p.token = .dedent) ∧ Balanced (tokens.map (·.token)) ∧
      Paired true ((tokens ++ dedents).map (·.token)) ∧
      ((tokens ++ dedents).map (·.token)).count .indent = 2 ∧
      ((tokens ++ dedents).map (·.token)).count .dedent = 2 := by
  have sizes : (tokenize ⟨0x200⟩ nested).toOption.map (·.length) = some 21 ∧
      (tokenize {} nested).toOption.map (fun ts => (ts.length, (ts.map (·.token)).count .indent)) =
        some (23, 2) := by decide +kernel
  obtain ⟨balanced, ends⟩ := tokens_are_balanced nested
  rcases ends ⟨0x200⟩ {} rfl with ⟨e, failed, -⟩ | ⟨tokens, dedents, kept, closed, all⟩
  · rw [failed] at sizes
    cases sizes.1
  · rw [kept, closed] at sizes
    have short : tokens.length = 21 := Option.some.inj sizes.1
    have long : ((tokens ++ dedents).length, ((tokens ++ dedents).map (·.token)).count .indent) =
        (23, 2) := Option.some.inj sizes.2
    obtain ⟨whole, equal⟩ := balanced {} _ closed
    rw [List.length_append, short] at long
    refine ⟨tokens, dedents, kept, closed, ?_, all, (balanced _ _ kept).1, whole.brackets,
      (Prod.mk.inj long).2, (equal rfl).trans (Prod.mk.inj long).2⟩
    have := (Prod.mk.inj long).1
    omega

end Scratchpad.Token
