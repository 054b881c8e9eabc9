import Scratchpad.Proofs.Tree.Reads

/-!
# Levels of the grammar

What the parser of a level does not read on at (`Stops`), what tokens an expression opens with
(`Opens`), and the way from a level to the looser ones: where no operator of a level follows, its
parser reads what the next tighter one reads (`reads_looser`).
-/

namespace Scratchpad.Expression

open Parse

/-- One level tighter. -/
def Level.next : Level → Level
  | .conditional => .disjunction
  | .disjunction => .conjunction
  | .conjunction => .negation
  | .negation => .comparison
  | .comparison => .sum
  | .sum => .term
  | .term => .sign
  | .sign => .power
  | .power => .primary
  | .primary | .atom => .atom

theorem Level.rank_next {l : Level} (h : l ≠ .atom) : l.next.rank = l.rank + 1 := by
  cases l <;> first | rfl | contradiction

theorem Level.eq_of_rank {l l' : Level} (h : l.rank = l'.rank) : l = l' := by
  cases l <;> cases l' <;> first | rfl | contradiction

/-- The parser of a level. -/
def parser (inner : Inner) : Level → Parse NodeId
  | .conditional => Parse.conditional inner
  | .disjunction => orTest inner
  | .conjunction => andTest inner
  | .negation => notTest inner
  | .comparison => Parse.comparison inner
  | .sum => Parse.sum inner
  | .term => Parse.term inner
  | .sign => factor inner
  | .power => Parse.power inner
  | .primary => Parse.primary inner
  | .atom => Parse.atom inner

/-- Can the token open a call, a subscript or an attribute? -/
def opensTrailer : Option Token → Bool
  | some (.symbol .leftParen) | some (.symbol .leftBracket) | some (.symbol .dot) => true
  | _ => false

def isText : Option Token → Bool
  | some (.text _) => true
  | _ => false

/-- Does what a level reads go on with these tokens? -/
def goesOn (ts : List Token) : Level → Bool
  | .conditional => ts.head? = some (.keyword .ifKw)
  | .disjunction => ts.head? = some (.keyword .orKw)
  | .conjunction => ts.head? = some (.keyword .andKw)
  | .comparison => (compareOp? ts.head? ts[1]?).isSome
  | .sum => (sumOp? ts.head?).isSome
  | .term => (termOp? ts.head?).isSome
  | .power => ts.head? = some (.symbol .doubleStar)
  | .primary => opensTrailer ts.head?
  | .atom => isText ts.head?
  | .negation | .sign => false

/-- Neither the level nor a tighter one goes on with these tokens. -/
def Stops (l : Level) (ts : List Token) : Prop :=
  ∀ l' : Level, l.rank ≤ l'.rank → goesOn ts l' = false

theorem Stops.tighter {l l' : Level} (h : Stops l ts) (le : l.rank ≤ l'.rank) : Stops l' ts :=
  fun l'' le' => h l'' (le.trans le')

theorem Stops.sign_of_power (h : Stops .power ts) : Stops .sign ts := by
  intro l le
  by_cases sign : l = .sign
  · subst sign
    rfl
  · refine h l ?_
    cases l <;> first | decide | contradiction

/-! ### The first tokens -/

/-- Tokens of which an expression of a level can be the start. -/
structure Opens (l : Level) (ts : List Token) : Prop where
  starts : ts.head?.any startsExpression = true
  negates : ts.head? = some (.keyword .notKw) → l.rank ≤ Level.negation.rank
  signs : (sign? ts.head?).isSome → l.rank ≤ Level.sign.rank
  names : ∀ id, ts.head? = some (.name id) →
    ts[1]? ≠ some (.symbol .walrus) ∧ ts[1]? ≠ some (.symbol .assign)

theorem Opens.looser {l l' : Level} (h : Opens l ts) (le : l'.rank ≤ l.rank) : Opens l' ts :=
  ⟨h.starts, fun negates => le.trans (h.negates negates), fun signs => le.trans (h.signs signs),
    h.names⟩

theorem Opens.head {l : Level} (h : Opens l ts) : ∃ t rest, ts = t :: rest := by
  cases ts with
  | nil => exact absurd h.starts (by decide)
  | cons t rest => exact ⟨t, rest, rfl⟩

theorem Opens.append {l : Level} (h : Opens l ts) (after : List Token)
    (other : after.head? ≠ some (.symbol .walrus) ∧ after.head? ≠ some (.symbol .assign)) :
    Opens l (ts ++ after) := by
  obtain ⟨t, rest, rfl⟩ := h.head
  refine ⟨h.starts, h.negates, h.signs, fun id name => ?_⟩
  cases rest with
  | nil => rwa [List.singleton_append, List.getElem?_cons_succ, ← List.head?_eq_getElem?]
  | cons second rest => exact h.names id name

theorem Opens.head_ne {l : Level} (h : Opens l ts) (other : startsExpression t = false)
    (after : List Token) : (ts ++ after).head? ≠ some t := by
  obtain ⟨t', rest, rfl⟩ := h.head
  rintro ⟨rfl⟩
  exact absurd (h.starts.symm.trans other) (by decide)

theorem opens_paren {l : Level} (ts : List Token) : Opens l (.symbol .leftParen :: ts) :=
  ⟨rfl, by simp, by simp [sign?], by simp⟩

/-- Tokens that end an expression wherever it stands. -/
def separates : Token → Bool
  | .newline => true
  | .symbol t => t = .rightParen || t = .rightBracket || t = .rightBrace || t = .comma || t = .colon
  | _ => false

theorem stops_of_separates (h : separates t = true) (rest : List Token) :
    Stops .conditional (t :: rest) := by
  intro l _
  cases t with
  | symbol t => cases t <;> first | cases l <;> rfl | cases h
  | newline => cases l <;> rfl
  | _ => cases h

theorem Opens.before {l : Level} (h : Opens l ts) (ends : separates t = true) (rest : List Token) :
    Opens l (ts ++ t :: rest) := by
  refine h.append _ ⟨?_, ?_⟩
  all_goals
    rintro ⟨rfl⟩
    cases ends

/-! ### One level looser -/

theorem iterate_stop {step : α → Parse (Option α)} {a : α} {s : State}
    (stops : step a s = .ok (none, s)) : iterate step a s = .ok (a, s) := by
  change repeatFrom step (s.total + 1) a s = _
  rw [repeatFrom, bind_of_ok stops]
  rfl

theorem leftChain_stop {op? : Option Token → Option BinaryOp} {operand : Parse NodeId}
    (none : (op? after.head?).isSome = false)
    (h : Reads deep base operand ts after Q) :
    Reads deep base (leftChain op? operand) ts after Q := by
  refine h.andThen fun a s here => iterate_stop ?_
  rw [bind_of_ok (peek?_eq s), here, Option.isSome_eq_false_iff.mp none |> Option.isNone_iff_eq_none.mp]
  rfl

theorem wordChain_stop {key : Keyword} {operand : Parse NodeId}
    (none : after.head? ≠ some (.keyword key)) (h : Reads deep base operand ts after Q) :
    Reads deep base (wordChain key op operand) ts after Q := by
  refine h.andThen fun a s here => ?_
  rw [bind_of_ok (peek?_eq s), here]
  exact congrFun (if_pos none) s

theorem trailer_stop {inner : Inner} {a : NodeId} {s : State}
    (other : opensTrailer s.tokens.head? = false) : trailer inner a s = .ok (none, s) := by
  unfold trailer
  rw [bind_of_ok (peek?_eq s)]
  generalize s.tokens.head? = next at other ⊢
  split
  case h_4 => rfl
  all_goals cases other

theorem link_stop {inner : Inner} {read : List (CompareOp × NodeId)} {s : State}
    (none : goesOn s.tokens .comparison = false) : link inner read s = .ok (Option.none, s) := by
  unfold link
  rw [bind_of_ok (peek?_eq s), bind_of_ok (peekSecond?_eq s),
    Option.isNone_iff_eq_none.mp (Option.isSome_eq_false_iff.mp none)]
  rfl

theorem reads_looser {inner : Inner} {l : Level} {Q : Array Node → NodeId → Prop}
    (opens : Opens l.next ts) (stops : Stops l after)
    (h : Reads deep base (parser inner l.next) ts after Q) :
    Reads deep base (parser inner l) ts after Q := by
  have none := stops l (Nat.le_refl _)
  obtain ⟨t, rest, rfl⟩ := opens.head
  cases l with
  | conditional =>
    refine h.andThen fun a s here => ?_
    rw [bind_of_ok (peek?_eq s), here]
    exact congrFun (if_pos (by simpa [goesOn] using none)) s
  | disjunction => exact wordChain_stop (by simpa [goesOn] using none) h
  | conjunction => exact wordChain_stop (by simpa [goesOn] using none) h
  | negation =>
    refine reads_peek ?_
    have other : (t :: rest ++ after).head? ≠ some (.keyword .notKw) :=
      fun negates => absurd (opens.negates negates) (by decide)
    rw [if_neg other]
    exact h
  | comparison =>
    refine h.andThen fun a s here => ?_
    rw [bind_of_ok (iterate_stop (link_stop (here ▸ none)))]
    rfl
  | sum => exact leftChain_stop none h
  | term => exact leftChain_stop none h
  | sign =>
    refine reads_peek ?_
    have other : sign? (t :: rest ++ after).head? = Option.none :=
      Option.not_isSome_iff_eq_none.mp fun signs => absurd (opens.signs signs) (by decide)
    rw [other]
    exact h
  | power =>
    refine h.andThen fun a s here => ?_
    have other : eat (.symbol .doubleStar) s = .ok (false, s) := by
      unfold eat
      rw [bind_of_ok (peek?_eq s), here]
      exact congrFun (if_neg (by simpa [goesOn] using none)) s
    rw [bind_of_ok other]
    rfl
  | primary => exact h.andThen fun a s here => iterate_stop (trailer_stop (here ▸ none))
  | atom => exact h

/-- What the parser of a level reads, the parsers of all looser levels read. -/
theorem reads_of_le {inner : Inner} {l own : Level} {Q : Array Node → NodeId → Prop}
    (h : Reads deep base (parser inner own) ts after Q) (le : l.rank ≤ own.rank)
    (opens : Opens own ts) (stops : Stops l after) :
    Reads deep base (parser inner l) ts after Q := by
  induction away : own.rank - l.rank generalizing l with
  | zero =>
    have : l = own := Level.eq_of_rank (by omega)
    exact this ▸ h
  | succ n ih =>
    have loose : l ≠ .atom := by
      rintro rfl
      cases own <;> contradiction
    have next := Level.rank_next loose
    have tighter := ih (l := l.next) (by omega) (stops.tighter (by omega)) (by omega)
    exact reads_looser (opens.looser (by omega)) stops tighter

end Scratchpad.Expression
