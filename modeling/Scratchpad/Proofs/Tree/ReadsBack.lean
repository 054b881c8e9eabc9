import Scratchpad.Proofs.Tree.Levels

/-!
# What is written is read back

The tokens of an expression, as `Expression.tokens` writes them, are read back to that expression,
unless it nests too deep. An expression of a level that repeats an operator on the left (a sum, a
term, a primary) is not read by one call of a parser: it is what a loop has come to. So the
induction carries two facts about each operand: it is read where it stands (`Reading`), and a loop
that has read it can go on (`Chaining`).
-/

namespace Scratchpad.Expression

open Parse

theorem itemTokens_eq (es : List Expression) : itemTokens es = es.map tokens := by
  induction es with
  | nil => rfl
  | cons e es ih => rw [itemTokens, ih, List.map_cons]

theorem pairTokens_eq (pairs : List (Expression × Expression)) :
    pairTokens pairs = pairs.map fun p => p.1.tokens ++ .symbol .colon :: p.2.tokens := by
  induction pairs with
  | nil => rfl
  | cons p pairs ih => rw [pairTokens, ih, List.map_cons]

theorem opens_wrap {position own : Level} (h : Opens own ts) : Opens position (wrap position own ts) := by
  unfold wrap
  split
  · exact opens_paren _
  · exact h.looser (by omega)

theorem opens_tokens (e : Expression) : Opens e.level e.tokens := by
  induction e using Expression.induction with
  | step e ih =>
    have part : ∀ x ∈ e.parts, ∀ position, Opens position (wrap position x.level x.tokens) :=
      fun x mem position => opens_wrap (ih x mem)
    cases e with
    | name id => exact ⟨rfl, by simp [tokens], by simp [tokens, sign?], by simp [tokens]⟩
    | literal value =>
      rcases value with _ | ⟨_ | _⟩ | _ | _ | _
      all_goals
        exact ⟨rfl, by simp [tokens, literalToken], by simp [tokens, literalToken, sign?],
          by simp [tokens, literalToken]⟩
    | binary left op right =>
      refine ((part left (by simp [parts]) (leftLevel op)).append _ ?_).looser ?_
      · cases op <;> simp [opToken]
      · cases op <;> simp [level, leftLevel, opLevel, Level.rank]
    | unary op operand =>
      cases op
      case neg | pos =>
        exact ⟨rfl, by simp [tokens, unaryToken], fun _ => Nat.le_refl _, by simp [tokens, unaryToken]⟩
      case not =>
        exact ⟨rfl, fun _ => Nat.le_refl _, by simp [tokens, unaryToken, sign?],
          by simp [tokens, unaryToken]⟩
    | boolean op first second others =>
      rw [tokens, List.append_assoc]
      refine ((part first (by simp [parts]) (wordLevel op)).append _ (by simp)).looser ?_
      cases op <;> simp [level, wordLevel, Level.rank]
    | compare left op right others =>
      rw [tokens, List.append_assoc, List.append_assoc]
      refine ((part left (by simp [parts]) .sum).append _ ?_).looser (by simp [level, Level.rank])
      cases op <;> simp [compareTokens]
    | conditional test body orelse =>
      rw [tokens, List.append_assoc]
      exact ((part body (by simp [parts]) .disjunction).append _ (by simp)).looser (Nat.zero_le _)
    | named target value => exact opens_paren _
    | call func args =>
      rw [tokens, List.append_assoc]
      exact (part func (by simp [parts]) .primary).append _ (by simp)
    | «attribute» value attr => exact (part value (by simp [parts]) .primary).append _ (by simp)
    | subscript value index =>
      rw [tokens, List.append_assoc]
      exact (part value (by simp [parts]) .primary).append _ (by simp)
    | list elts => exact ⟨rfl, by simp [tokens], by simp [tokens, sign?], by simp [tokens]⟩
    | tuple elts => exact opens_paren _
    | dict pairs => exact ⟨rfl, by simp [tokens], by simp [tokens, sign?], by simp [tokens]⟩

/-! ### Reading and going on -/

/-- The expression is read wherever it stands. -/
def Reading (e : Expression) : Prop :=
  ∀ ⦃position : Level⦄ ⦃room : Nat⦄ ⦃after : List Token⦄ ⦃deep : Prop⦄ ⦃base : Array Node⦄,
    Stops position after → (room < wrapped position e.level e.nesting → deep) →
      Reads deep base (parser (.within room) position) (tokensAt position e) after (Hangs · · e)

/-- The levels whose operators are joined from the left, and the primaries. -/
def Level.loops : Level → Bool
  | .sum | .term | .primary => true
  | _ => false

/-- One operator with its operand on the right. -/
def chainTurn (op? : Option Token → Option BinaryOp) (operand : Parse NodeId) (left : NodeId) :
    Parse (Option NodeId) := do
  match op? (← peek?) with
  | some op =>
    let _ ← advance
    let right ← operand
    return some (← pushBetween (.binary left op right) left right)
  | none => return none

/-- One turn of the loop of a level. -/
def turn (inner : Inner) : Level → NodeId → Parse (Option NodeId)
  | .sum => chainTurn sumOp? (Parse.term inner)
  | .term => chainTurn termOp? (factor inner)
  | .primary => trailer inner
  | _ => fun _ => pure none

theorem parser_of_loops {inner : Inner} {l : Level} (loops : l.loops = true) :
    parser inner l = parser inner l.next >>= iterate (turn inner l) := by
  cases l <;> first | rfl | cases loops

/-- The loop of a level that has read the expression can go on with `more`. -/
def Chaining (e : Expression) (l : Level) : Prop :=
  ∀ ⦃room : Nat⦄ ⦃more after : List Token⦄ ⦃deep : Prop⦄ ⦃base : Array Node⦄
    ⦃Q : Array Node → NodeId → Prop⦄,
    Stops l.next (more ++ after) → (room < wrapped l e.level e.nesting → deep) →
    (∀ a base', Grows base base' → Hangs base' a e →
      Turns deep base' (turn (.within room) l) a more after Q) →
    Reads deep base (parser (.within room) l) (tokensAt l e ++ more) after Q

/-- The expression is read by the parser of its own level. -/
def OwnReading (e : Expression) : Prop :=
  ∀ ⦃room : Nat⦄ ⦃after : List Token⦄ ⦃deep : Prop⦄ ⦃base : Array Node⦄,
    Stops e.level after → (room < e.nesting → deep) →
      Reads deep base (parser (.within room) e.level) e.tokens after (Hangs · · e)

/-- The expression is read where any may stand. -/
def Whole (e : Expression) : Prop :=
  ∀ ⦃room : Nat⦄ ⦃after : List Token⦄ ⦃deep : Prop⦄ ⦃base : Array Node⦄,
    Stops .conditional after → (room < e.nesting → deep) →
      Reads deep base (Parse.conditional (.within room)) e.tokens after (Hangs · · e)

theorem Reading.whole {e : Expression} (h : Reading e) : Whole e := by
  intro room after deep base stops far
  exact h stops far

theorem OwnReading.loose {e : Expression} {position : Level} (own : OwnReading e)
    (le : position.rank ≤ e.level.rank) (stops : Stops position after)
    (far : room < e.nesting → deep) :
    Reads deep base (parser (.within room) position) e.tokens after (Hangs · · e) :=
  reads_of_le (own (stops.tighter le) far) le (opens_tokens e) stops

theorem OwnReading.whole {e : Expression} (own : OwnReading e) : Whole e := by
  intro room after deep base stops far
  exact own.loose (Nat.zero_le _) stops far

theorem tokensAt_own (e : Expression) : tokensAt e.level e = e.tokens := if_neg (Nat.lt_irrefl _)

theorem wrapped_own (l : Level) (n : Nat) : wrapped l l n = n := if_neg (Nat.lt_irrefl _)

theorem opens_tokensAt (position : Level) (e : Expression) : Opens position (tokensAt position e) :=
  opens_wrap (opens_tokens e)

/-! ### One level deeper -/

theorem reads_exhausted (far : deep) :
    Reads deep base (do fail (.tooNested what) (← peekSpan?) : Parse α) ts after Q :=
  fun _ _ _ _ => ⟨far, what, _, rfl⟩

section Inner

variable {e : Expression} {room : Nat} {after rest : List Token} {deep : Prop} {base : Array Node}

theorem Whole.test (h : Whole e) (stops : Stops .conditional after)
    (far : room < e.nesting + 1 → deep) :
    Reads deep base (Inner.within room).test e.tokens after (Hangs · · e) := by
  cases room with
  | zero => exact reads_exhausted (far (by omega))
  | succ room => exact h stops fun lt => far (by omega)

theorem Reading.negated (h : Reading e) (stops : Stops .negation after)
    (far : room < wrapped .negation e.level e.nesting + 1 → deep) :
    Reads deep base (Inner.within room).negated (tokensAt .negation e) after (Hangs · · e) := by
  cases room with
  | zero => exact reads_exhausted (far (by omega))
  | succ room => exact h stops fun lt => far (by omega)

theorem Reading.signed (h : Reading e) (stops : Stops .sign after)
    (far : room < wrapped .sign e.level e.nesting + 1 → deep) :
    Reads deep base (Inner.within room).signed (tokensAt .sign e) after (Hangs · · e) := by
  cases room with
  | zero => exact reads_exhausted (far (by omega))
  | succ room => exact h stops fun lt => far (by omega)

theorem Reading.exponent (h : Reading e) (stops : Stops .sign after)
    (far : room < wrapped .sign e.level e.nesting + 1 → deep) :
    Reads deep base (Inner.within room).exponent (tokensAt .sign e) after (Hangs · · e) := by
  cases room with
  | zero => exact reads_exhausted (far (by omega))
  | succ room => exact h stops fun lt => far (by omega)

theorem Whole.namedTest (h : Whole e) (ends : separates t = true)
    (far : room < e.nesting + 1 → deep) :
    Reads deep base (Parse.namedTest (.within room)) e.tokens (t :: rest) (Hangs · · e) := by
  refine reads_peek (reads_peekSecond ?_)
  have opens := (opens_tokens e).before ends rest
  split
  next name walrus => exact absurd walrus (opens.names _ name).1
  next => exact h.test (stops_of_separates ends rest) far

theorem Whole.argument (h : Whole e) (ends : separates t = true)
    (far : room < e.nesting + 1 → deep) :
    Reads deep base (Parse.argument (.within room)) e.tokens (t :: rest) (Hangs · · e) := by
  refine reads_peek (reads_peekSecond ?_)
  have opens := (opens_tokens e).before ends rest
  split
  next name assign => exact absurd assign (opens.names _ name).2
  next => exact h.namedTest ends far

/-- A whole expression, not followed by a comma. -/
theorem Whole.testList (h : Whole e) (stops : Stops .conditional after)
    (other : after.head? ≠ some (.symbol .comma)) (far : room < e.nesting + 1 → deep) :
    Reads deep base (Parse.testList (.within room)) e.tokens after (Hangs · · e) := by
  refine (h.test stops far).andThen fun a s here => ?_
  rw [bind_of_ok (peek?_eq s), here]
  exact congrFun (if_pos other) s

end Inner

/-! ### From the own level to all positions -/

/-- Parentheses make an atom of an expression. -/
theorem reads_parens {e : Expression} (own : OwnReading e) (far : room < e.nesting + 1 → deep) :
    Reads deep base (parser (.within room) .atom)
      (.symbol .leftParen :: e.tokens ++ [.symbol .rightParen]) after (Hangs · · e) := by
  rw [List.cons_append]
  refine reads_peek (reads_expect fun start => reads_peek ?_)
  rw [List.append_assoc, if_neg ((opens_tokens e).head_ne rfl _)]
  refine (own.whole.namedTest rfl far).bind fun a base' _ made => ?_
  refine reads_eat_not (by simp) (reads_expect fun stop => reads_pure fun nodes more => ?_)
  exact made.mono more

theorem OwnReading.reading {e : Expression} (own : OwnReading e) : Reading e := by
  intro position room after deep base stops far
  unfold tokensAt wrap
  unfold wrapped at far
  split
  next looser =>
    rw [if_pos looser] at far
    refine reads_of_le (reads_parens own far) ?_ (opens_paren _) stops
    cases position <;> decide
  next tight =>
    rw [if_neg tight] at far
    exact own.loose (by omega) stops far

/-- Where the expression does not belong to a loop's level, the tighter level reads it first. -/
theorem Reading.chaining {e : Expression} (h : Reading e) {l : Level} (loops : l.loops = true)
    (other : e.level ≠ l) : Chaining e l := by
  intro room more after deep base Q stops far goes
  rw [parser_of_loops loops]
  have apart : ¬ e.level.rank = l.rank := fun same => other (Level.eq_of_rank same)
  have next : l.next.rank = l.rank + 1 := Level.rank_next (by rintro rfl; cases loops)
  have tokens : tokensAt l e = tokensAt l.next e := by
    unfold tokensAt wrap
    congr 1
    rw [next]
    exact propext (by omega)
  have same : wrapped l e.level e.nesting = wrapped l.next e.level e.nesting := by
    unfold wrapped
    congr 1
    rw [next]
    exact propext (by omega)
  rw [tokens]
  refine (h stops fun lt => far (same ▸ lt)).bind fun a base' grown made => ?_
  exact reads_iterate (goes a base' grown made)

theorem turn_stop {inner : Inner} {l : Level} {a : NodeId} {s : State}
    (none : goesOn s.tokens l = false) : turn inner l a s = .ok (Option.none, s) := by
  have chain : ∀ {op? operand}, (op? s.tokens.head?).isSome = false →
      chainTurn op? operand a s = .ok (Option.none, s) := fun other => by
    unfold chainTurn
    rw [bind_of_ok (peek?_eq s), Option.isNone_iff_eq_none.mp (Option.isSome_eq_false_iff.mp other)]
    rfl
  cases l with
  | sum | term => exact chain none
  | primary => exact trailer_stop none
  | _ => rfl

/-- A loop that has read the whole expression stops after it. -/
theorem Chaining.ownReading {e : Expression} (loops : e.level.loops = true)
    (h : Chaining e e.level) : OwnReading e := by
  intro room after deep base stops far
  have next : e.level.next.rank = e.level.rank + 1 :=
    Level.rank_next fun same => by rw [same] at loops; cases loops
  have read := @h room [] after deep base (Hangs · · e) (stops.tighter (by omega))
    (by rwa [wrapped_own]) fun a base' grown made =>
      turns_stop (fun s here => turn_stop (here ▸ stops _ (Nat.le_refl _))) fun _ more => made.mono more
  rwa [List.append_nil, tokensAt_own] at read

end Scratchpad.Expression
