import Scratchpad.Proofs.Tree.Progress
import Scratchpad.Proofs.Tree.ReadsBack

/-!
# Reading inverts writing

One lemma for each form of expression, and from them the round trip: the tokens of any expression
give a tree on which that expression hangs, or an error that says it nests too deep.
-/

namespace Scratchpad.Expression

open Parse

/-! ### Names and literals -/

theorem ownReading_name (id : String) : OwnReading (.name id) := by
  intro room after deep base _ _
  exact reads_peek (reads_advance fun span => reads_push fun nodes _ => hangs_push rfl)

/-- The text so far, and where it ends: one more text after it. -/
def textTurn (read : String × Span) : Parse (Option (String × Span)) := do
  match ← peek? with
  | some (.text part) => return some (read.1 ++ part, ← advance)
  | _ => return none

theorem textTurn_stop {read : String × Span} {s : State} (other : isText s.tokens.head? = false) :
    textTurn read s = .ok (none, s) := by
  unfold textTurn
  rw [bind_of_ok (peek?_eq s)]
  generalize s.tokens.head? = next at other ⊢
  split
  · cases other
  · rfl

theorem reads_texts {chars : String} (other : isText after.head? = false) :
    Reads deep base texts [.text chars] after (Hangs · · (.literal (.text chars))) := by
  refine reads_peekSpan fun start => ?_
  have turn : Reads deep base (textTurn ("", start.getD {})) [.text chars] after
      fun _ r => ∃ b, r = some b ∧ b.1 = chars :=
    reads_peek (reads_advance fun stop => reads_pure fun _ _ => ⟨_, rfl, String.empty_append⟩)
  have loop : Turns deep base textTurn ("", start.getD {}) [.text chars] after
      fun _ r => r.1 = chars :=
    turns_last (by simp) turn fun b _ _ same =>
      turns_stop (fun s here => textTurn_stop (here ▸ other)) fun _ _ => same
  refine (reads_iterate loop).finish fun r _ _ same => ?_
  subst same
  exact reads_push fun nodes _ => hangs_push rfl

theorem ownReading_literal (value : Literal) : OwnReading (.literal value) := by
  intro room after deep base stops _
  rcases value with _ | ⟨_ | _⟩ | _ | _ | chars
  case text => exact reads_peek (reads_texts (stops .atom (Nat.le_refl _)))
  all_goals
    exact reads_peek (reads_advance fun span => reads_push fun nodes _ => hangs_push rfl)

/-! ### Operators -/

theorem ownReading_unary {e : Expression} (h : Reading e) (op : UnaryOp) :
    OwnReading (.unary op e) := by
  intro room after deep base stops far
  have made : ∀ {a base' span}, Hangs base' a e → ∀ nodes, Grows base' nodes →
      Hangs (nodes.push ⟨.unary op a, span⟩) nodes.size (.unary op e) := fun hangs nodes more =>
    hangs_push (by simp [ofKind, (hangs.mono more).below])
  cases op with
  | neg | pos =>
    refine reads_peek (reads_advance fun start => ?_)
    refine (h.signed stops far).finish fun a base' _ hangs => ?_
    exact reads_spanOf fun span => reads_push (made hangs)
  | not =>
    refine reads_peek (reads_advance fun start => ?_)
    refine (h.negated stops far).finish fun a base' _ hangs => ?_
    exact reads_spanOf fun span => reads_push (made hangs)

theorem hangs_binary {left right : Expression} {base nodes : Array Node} {a b : NodeId} {span : Span}
    (l : Hangs base a left) (r : Hangs base b right) (more : Grows base nodes) (op : BinaryOp) :
    Hangs (nodes.push ⟨.binary a op b, span⟩) nodes.size (.binary left op right) :=
  hangs_push (by simp [ofKind, (l.mono more).below, (r.mono more).below])

theorem stops_opToken (op : BinaryOp) (rest : List Token) :
    Stops (opLevel op).next (opToken op :: rest) := by
  intro l le
  cases op <;> cases l <;> first | rfl | exact absurd le (by decide)

theorem ownReading_pow {left right : Expression} (l : Reading left) (r : Reading right) :
    OwnReading (.binary left .pow right) := by
  intro room after deep base stops far
  change room < max (wrapped .primary left.level left.nesting)
    (wrapped .sign right.level right.nesting + 1) → deep at far
  have first : Stops .primary (.symbol .doubleStar :: tokensAt .sign right ++ after) :=
    stops_opToken .pow _
  refine (l first fun lt => far (by omega)).bind fun a base' _ first => ?_
  refine reads_eat ?_
  refine (r.exponent stops.sign_of_power fun lt => far (by omega)).finish fun b base'' grown second => ?_
  exact reads_pushBetween fun nodes span more => hangs_binary (first.mono grown) second more .pow

/-- The loops of sums and of terms: one more operand on the right. -/
theorem reads_chainTurn {left right : Expression} {op : BinaryOp} {operand : Parse NodeId}
    {op? : Option Token → Option BinaryOp} (found : op? (some (opToken op)) = some op)
    (l : Hangs base a left) (r : Reads deep base operand ts after (Hangs · · right)) :
    Reads deep base (chainTurn op? operand a) (opToken op :: ts) after fun nodes r =>
      ∃ b, r = some b ∧ Hangs nodes b (.binary left op right) := by
  refine reads_peek ?_
  rw [List.cons_append, List.head?_cons, found]
  refine reads_advance fun _ => r.finish fun b base' grown second => ?_
  refine Reads.finish (Q := (Hangs · · (.binary left op right))) (reads_pushBetween
    fun nodes span more => hangs_binary (l.mono grown) second more op) fun c base'' _ made => ?_
  exact reads_pure fun nodes more => ⟨c, rfl, made.mono more⟩

theorem chaining_binary {left right : Expression} {op : BinaryOp} (loops : op ≠ .pow)
    (l : Chaining left (opLevel op)) (r : Reading right) :
    Chaining (.binary left op right) (opLevel op) := by
  intro room more after deep base Q stops far goes
  have found : ∃ op?, turn (.within room) (opLevel op) =
      chainTurn op? (parser (.within room) (rightLevel op)) ∧ op? (some (opToken op)) = some op := by
    cases op
    case pow => contradiction
    case add | sub => exact ⟨sumOp?, rfl, rfl⟩
    all_goals exact ⟨termOp?, rfl, rfl⟩
  have tight : (opLevel op).next = rightLevel op := by cases op <;> first | rfl | contradiction
  have loop : leftLevel op = opLevel op := by cases op <;> first | rfl | contradiction
  obtain ⟨op?, same, found⟩ := found
  have own : tokensAt (opLevel op) (.binary left op right) =
      tokensAt (opLevel op) left ++ opToken op :: tokensAt (rightLevel op) right := by
    refine (tokensAt_own (.binary left op right)).trans ?_
    rw [tokens, loop]
    rfl
  have far' : (room < wrapped (opLevel op) left.level left.nesting → deep) ∧
      (room < wrapped (rightLevel op) right.level right.nesting → deep) := by
    rw [level, wrapped_own, nesting, loop, if_neg loops] at far
    exact ⟨fun lt => far (by omega), fun lt => far (by omega)⟩
  rw [own, List.append_assoc]
  refine l (stops_opToken op _) far'.1 fun a base' grown first => ?_
  rw [tight] at stops
  have turn := reads_chainTurn found first (r stops far'.2)
  rw [← same] at turn
  exact turns_step (by simp) turn fun b base'' grown' both => goes b base'' (grown.trans grown') both

theorem hangs_mono (nodes nodes' : Array Node) (a : NodeId) (e : Expression) (more : Grows nodes nodes')
    (h : Hangs nodes a e) : Hangs nodes' a e := h.mono more

theorem hangs_all {base nodes : Array Node} (h : List.Forall₂ (Hangs base) ids es)
    (more : Grows base nodes) : List.Forall₂ (Hangs nodes) ids es :=
  h.imp fun _ _ => (·.mono more)

/-! ### Words -/

theorem wordTokens_eq (op : BoolOp) (es : List Expression) :
    wordTokens op es = es.flatMap fun e => .keyword (word op) :: tokensAt (wordLevel op) e := by
  induction es with
  | nil => rfl
  | cons e es ih => rw [wordTokens, ih, List.flatMap_cons]; rfl

theorem le_nestingAt {position : Level} {x : Expression} {es : List Expression} (mem : x ∈ es) :
    wrapped position x.level x.nesting ≤ nestingAt position es := by
  induction mem with
  | head => exact le_max_left ..
  | tail _ _ ih => exact ih.trans (le_max_right ..)

theorem stops_word (op : BoolOp) (rest : List Token) :
    Stops (wordLevel op) (.keyword (word op) :: rest) := by
  intro l le
  cases op <;> cases l <;> first | rfl | exact absurd le (by decide)

theorem reads_wordChain {op : BoolOp} {operand : Parse NodeId} {first second : Expression}
    {others : List Expression} (ends : after.head? ≠ some (.keyword (word op)))
    (each : ∀ x ∈ first :: second :: others, ∀ base' after', Grows base base' →
      after' = after ∨ after'.head? = some (.keyword (word op)) →
      Reads deep base' operand (tokensAt (wordLevel op) x) after' (Hangs · · x)) :
    Reads deep base (wordChain (word op) op operand) (.boolean op first second others : Expression).tokens
      after (Hangs · · (.boolean op first second others)) := by
  have own : (Expression.boolean op first second others).tokens =
      tokensAt (wordLevel op) first ++
        (second :: others).flatMap fun e => .keyword (word op) :: tokensAt (wordLevel op) e := by
    rw [tokens, wordTokens_eq, List.append_assoc]
    rfl
  rw [own]
  refine (each first (by simp) base _ (.refl _) (.inr rfl)).bind fun a base' grown head => ?_
  refine reads_peek ?_
  rw [if_neg (by simp)]
  have loop := turns_more hangs_mono ends (fun x mem base'' after' more => each x (.tail _ mem)
    base'' after' (grown.trans more)) (.cons head .nil)
  refine (reads_iterate loop).finish fun ids base'' _ all => ?_
  refine reads_pushBetween fun nodes span more => hangs_push ?_
  simp [ofKind, mapM_below (hangs_all all more)]

theorem ownReading_boolean {op : BoolOp} {first second : Expression} {others : List Expression}
    (h : ∀ x ∈ first :: second :: others, Reading x) :
    OwnReading (.boolean op first second others) := by
  intro room after deep base stops far
  have each : ∀ x ∈ first :: second :: others, ∀ base' after', Grows base base' →
      after' = after ∨ after'.head? = some (.keyword (word op)) →
      Reads deep base' (parser (.within room) (wordLevel op)) (tokensAt (wordLevel op) x) after'
        (Hangs · · x) := by
    intro x mem base' after' _ next
    refine h x mem ?_ fun lt => far (lt.trans_le ?_)
    · rcases next with rfl | next
      · exact stops.tighter (by cases op <;> simp [level, wordLevel, Level.rank])
      · obtain ⟨rest, rfl⟩ := List.head?_eq_some_iff.mp next
        exact stops_word op rest
    · exact (le_nestingAt mem : _ ≤ nestingAt (wordLevel op) (first :: second :: others))
  have ends := stops _ (Nat.le_refl _)
  cases op with
  | and => exact reads_wordChain (of_decide_eq_false ends) each
  | or => exact reads_wordChain (of_decide_eq_false ends) each

/-! ### Comparisons -/

theorem le_nestingLinks {l : CompareOp × Expression} {links : List (CompareOp × Expression)}
    (mem : l ∈ links) : wrapped .sum l.2.level l.2.nesting ≤ nestingLinks links := by
  induction mem with
  | head => exact le_max_left ..
  | tail _ _ ih => exact ih.trans (le_max_right ..)

theorem stops_compare (op : CompareOp) (rest : List Token) :
    Stops .sum (compareTokens op ++ rest) := by
  intro l le
  cases op <;> cases l <;> first | rfl | exact absurd le (by decide)

theorem compareOp?_tokens (op : CompareOp) {rest : List Token}
    (other : rest.head? ≠ some (.keyword .notKw)) :
    compareOp? (compareTokens op ++ rest).head? (compareTokens op ++ rest)[1]? =
      some (op, (compareTokens op).length) := by
  cases op
  case same =>
    rw [List.head?_eq_getElem?] at other
    simp [compareTokens, compareOp?]
  all_goals rfl

/-- The same comparison with what hangs on the node. -/
def Links (nodes : Array Node) (read : CompareOp × NodeId) (l : CompareOp × Expression) : Prop :=
  read.1 = l.1 ∧ Hangs nodes read.2 l.2

theorem reads_link {room : Nat} {op : CompareOp} {e : Expression} {read : List (CompareOp × NodeId)}
    (h : Reading e) (stops : Stops .sum after) (far : room < wrapped .sum e.level e.nesting → deep) :
    Reads deep base (link (.within room) read) (compareTokens op ++ tokensAt .sum e) after
      fun nodes r => ∃ b, r = some b ∧ ∃ a, b = read ++ [a] ∧ Links nodes a (op, e) := by
  have opens := opens_tokensAt .sum e
  have other : (tokensAt .sum e ++ after).head? ≠ some (.keyword .notKw) := by
    obtain ⟨t, rest, toks⟩ := opens.head
    rw [toks] at opens ⊢
    exact fun negates => absurd (opens.negates negates) (by decide)
  refine reads_peek (reads_peekSecond ?_)
  rw [List.append_assoc, compareOp?_tokens op other]
  have operand : Reads deep base (do return some (read ++ [(op, ← Parse.sum (.within room))]))
      (tokensAt .sum e) after fun nodes r => ∃ b, r = some b ∧ ∃ a, b = read ++ [a] ∧
        Links nodes a (op, e) :=
    (h stops far).finish fun a base' _ hangs => reads_pure fun nodes more =>
      ⟨_, rfl, (op, a), rfl, rfl, hangs.mono more⟩
  cases op
  case notIn | notSame => exact reads_advance fun _ => reads_advance fun _ => operand
  all_goals exact reads_advance fun _ => operand

theorem turns_links {room : Nat} {links past : List (CompareOp × Expression)}
    {read : List (CompareOp × NodeId)} (stops : Stops .comparison after)
    (each : ∀ l ∈ links, Reading l.2)
    (far : ∀ l ∈ links, room < wrapped .sum l.2.level l.2.nesting → deep)
    (done : List.Forall₂ (Links base) read past) :
    Turns deep base (link (.within room)) read (linkTokens links) after
      fun nodes r => List.Forall₂ (Links nodes) r (past ++ links) := by
  have mono : ∀ {nodes nodes' : Array Node} {read past}, Grows nodes nodes' →
      List.Forall₂ (Links nodes) read past → List.Forall₂ (Links nodes') read past :=
    fun more h => h.imp fun _ _ same => ⟨same.1, same.2.mono more⟩
  induction links generalizing base read past with
  | nil =>
    refine turns_stop (fun s here => link_stop (here ▸ stops .comparison (Nat.le_refl _))) ?_
    rw [List.append_nil]
    exact fun nodes more => mono more done
  | cons l links ih =>
    have next : Stops .sum (linkTokens links ++ after) := by
      cases links with
      | nil => exact stops.tighter (by decide)
      | cons l' links => rw [linkTokens, List.append_assoc, List.append_assoc]; exact stops_compare _ _
    have turn : Reads deep base (link (.within room) read) (compareTokens l.1 ++ tokensAt .sum l.2)
        (linkTokens links ++ after) fun nodes r =>
          ∃ b, r = some b ∧ ∃ a, b = read ++ [a] ∧ Links nodes a l :=
      reads_link (each l List.mem_cons_self) next (far l List.mem_cons_self)
    refine turns_step ?_ turn ?_
    · rw [ne_eq, List.append_eq_nil_iff]
      exact fun h => by cases op : l.1 <;> rw [op] at h <;> cases h.1
    · rintro _ base' more ⟨a, rfl, made⟩
      have left := ih (fun l' mem => each l' (.tail l mem)) (fun l' mem => far l' (.tail l mem))
        (List.rel_append (mono more done) (.cons made .nil))
      rwa [List.append_assoc] at left

theorem hangs_compare {left right : Expression} {op : CompareOp} {others : List (CompareOp × Expression)}
    {base nodes : Array Node} {a : NodeId} {read : List (CompareOp × NodeId)} {span : Span}
    (l : Hangs base a left) (links : List.Forall₂ (Links base) read ((op, right) :: others))
    (more : Grows base nodes) :
    Hangs (nodes.push ⟨.compare a (read.map (·.1)) (read.map (·.2)), span⟩) nodes.size
      (.compare left op right others) := by
  have ops : ∀ {read links}, List.Forall₂ (Links base) read links →
      read.map (·.1) = links.map (·.1) := by
    intro read links h
    induction h with
    | nil => rfl
    | cons same _ ih => rw [List.map_cons, List.map_cons, ih, same.1]
  have hang : List.Forall₂ (Hangs nodes) (read.map (·.2)) (((op, right) :: others).map (·.2)) :=
    List.forall₂_map_left_iff.mpr (List.forall₂_map_right_iff.mpr
      (links.imp fun _ _ same => same.2.mono more))
  refine hangs_push ?_
  rw [ofKind, if_pos (by simp), (l.mono more).below, mapM_below hang, ops links]
  simp [List.zip_map']

theorem ownReading_compare {left right : Expression} {op : CompareOp}
    {others : List (CompareOp × Expression)} (l : Reading left)
    (h : ∀ x ∈ (op, right) :: others, Reading x.2) : OwnReading (.compare left op right others) := by
  intro room after deep base stops far
  have own : (Expression.compare left op right others).tokens =
      tokensAt .sum left ++ linkTokens ((op, right) :: others) := by
    rw [tokens, linkTokens, List.append_assoc, List.append_assoc, List.append_assoc]
    rfl
  have first : Stops .sum (linkTokens ((op, right) :: others) ++ after) := by
    rw [linkTokens, List.append_assoc, List.append_assoc]
    exact stops_compare _ _
  have nest : (Expression.compare left op right others).nesting =
      max (wrapped .sum left.level left.nesting) (nestingLinks ((op, right) :: others)) := rfl
  rw [own]
  rw [nest] at far
  refine (l first fun lt => far (lt.trans_le (le_max_left ..))).bind fun a base' _ hangs => ?_
  have loop : Turns deep base' (link (.within room)) [] (linkTokens ((op, right) :: others)) after
      fun nodes r => List.Forall₂ (Links nodes) r ((op, right) :: others) :=
    turns_links stops h (fun x mem lt => far
      (lt.trans_le ((le_nestingLinks mem).trans (le_max_right ..)))) .nil
  refine (reads_iterate loop).finish fun read base'' grown links => ?_
  cases links with
  | cons same rest =>
    exact reads_pushBetween fun nodes span more =>
      hangs_compare (hangs.mono grown) (.cons same rest) more

/-! ### Conditionals -/

theorem ownReading_conditional {test body orelse : Expression} (t : Reading test) (b : Reading body)
    (o : Reading orelse) : OwnReading (.conditional test body orelse) := by
  intro room after deep base stops far
  have next : ∀ {k : Keyword} {rest : List Token}, k = .ifKw ∨ k = .elseKw →
      Stops .disjunction (.keyword k :: rest) := by
    intro k rest either l le
    rcases either with rfl | rfl <;> cases l <;> first | rfl | exact absurd le (by decide)
  have nest : (Expression.conditional test body orelse).nesting =
      max (wrapped .disjunction test.level test.nesting)
        (max (wrapped .disjunction body.level body.nesting) (orelse.nesting + 1)) := rfl
  have own : (Expression.conditional test body orelse).tokens = tokensAt .disjunction body ++
      .keyword .ifKw :: (tokensAt .disjunction test ++ .keyword .elseKw :: orelse.tokens) := by
    rw [tokens, List.append_assoc]
    rfl
  rw [own]
  rw [nest] at far
  refine (b (next (.inl rfl)) fun lt => far (by omega)).bind fun bodyId base' _ hb => ?_
  refine reads_peek ?_
  rw [if_neg (by simp)]
  refine reads_advance fun _ => ?_
  refine (t (next (.inr rfl)) fun lt => far (by omega)).bind fun testId base'' grown ht => ?_
  refine reads_expect fun _ => ?_
  refine (o.whole.test stops fun lt => far (by omega)).finish fun orelseId base3 grown' ho => ?_
  refine reads_pushBetween fun nodes span more => hangs_push ?_
  have more' := grown'.trans more
  simp [ofKind, (ht.mono more').below, (hb.mono (grown.trans more')).below, (ho.mono more).below]

/-! ### Brackets -/

theorem ownReading_named {target : String} {e : Expression} (h : Reading e) :
    OwnReading (.named target e) := by
  intro room after deep base _ far
  refine reads_peek (reads_expect fun start => reads_peek ?_)
  rw [if_neg (by simp)]
  have named : Reads deep base (namedTest (.within room)) (.name target :: .symbol .walrus :: e.tokens)
      (.symbol .rightParen :: after) (Hangs · · (.named target e)) := by
    refine reads_peek (reads_peekSecond (reads_advance fun _ => reads_advance fun _ => ?_))
    refine (h.whole.test (stops_of_separates rfl _) far).finish fun a base' _ made => ?_
    exact reads_spanOf fun _ => reads_push fun nodes more => hangs_push (by simp [ofKind, (made.mono more).below])
  refine named.bind fun a base' _ made => ?_
  exact reads_eat_not (by simp) (reads_expect fun _ => reads_pure fun nodes more => made.mono more)

/-- Whole expressions between commas. -/
theorem reads_items {item : Parse NodeId} {closer : Token} {es : List Expression}
    (ends : separates closer = true) (closes : closer ≠ .symbol .comma)
    (other : startsExpression closer = false)
    (each : ∀ x ∈ es, ∀ base' t rest, separates t = true →
      Reads deep base' item x.tokens (t :: rest) (Hangs · · x)) :
    Reads deep base (itemsBefore closer fun _ => item) (commas (itemTokens es)) (closer :: after)
      fun nodes ids => List.Forall₂ (Hangs nodes) ids es := by
  rw [itemTokens_eq]
  refine reads_itemsBefore hangs_mono closes (fun x _ => ?_) fun x mem _ base' t rest _ next => ?_
  · obtain ⟨t, rest, toks⟩ := (opens_tokens x).head
    refine ⟨t, rest, toks, fun same => ?_⟩
    have ne := (opens_tokens x).head_ne other []
    rw [toks] at ne
    exact ne (congrArg some same)
  · refine each x mem base' t rest ?_
    rcases next with rfl | rfl
    · exact ends
    · rfl

theorem reads_namedItems {room : Nat} {closer : Symbol} {es : List Expression}
    (ends : separates (.symbol closer) = true) (closes : closer ≠ .comma)
    (other : startsExpression (.symbol closer) = false) (h : ∀ x ∈ es, Reading x)
    (far : room < nestingAt .conditional es + 1 → deep) :
    Reads deep base (itemsBefore (.symbol closer) fun _ => namedTest (.within room))
      (commas (itemTokens es)) (.symbol closer :: after)
      fun nodes ids => List.Forall₂ (Hangs nodes) ids es := by
  refine reads_items ends (by simpa using closes) other fun x mem base' t rest next => ?_
  refine (h x mem).whole.namedTest next fun lt => far (lt.trans_le (Nat.succ_le_succ ?_))
  exact (le_nestingAt mem : wrapped .conditional x.level x.nesting ≤ _)

theorem ownReading_list {es : List Expression} (h : ∀ x ∈ es, Reading x) : OwnReading (.list es) := by
  intro room after deep base _ far
  have own : (Expression.list es).tokens =
      .symbol .leftBracket :: (commas (itemTokens es) ++ [.symbol .rightBracket]) := rfl
  rw [own]
  refine reads_peek (reads_expect fun start => ?_)
  refine (reads_namedItems rfl (by decide) rfl h far).bind fun ids base' _ made => ?_
  refine reads_expect fun _ => reads_push fun nodes more => hangs_push ?_
  simp [ofKind, mapM_below (hangs_all made more)]

theorem tokens_tuple_cons (e : Expression) (es : List Expression) :
    (Expression.tuple (e :: es)).tokens = .symbol .leftParen ::
      (e.tokens ++ .symbol .comma :: (commas (itemTokens es) ++ [.symbol .rightParen])) := by
  cases es with
  | nil => simp [tokens, itemTokens, commas]
  | cons e' es => simp [tokens, itemTokens, commas, List.intercalate_cons_cons]

theorem ownReading_tuple {es : List Expression} (h : ∀ x ∈ es, Reading x) : OwnReading (.tuple es) := by
  intro room after deep base _ far
  cases es with
  | nil =>
    refine reads_peek (reads_expect fun start => reads_peek (reads_expect fun stop => ?_))
    exact reads_push fun nodes _ => hangs_push rfl
  | cons e es =>
    have nest : (Expression.tuple (e :: es)).nesting =
      max e.nesting (nestingAt .conditional es) + 1 := rfl
    rw [tokens_tuple_cons]
    rw [nest] at far
    refine reads_peek (reads_expect fun start => reads_peek ?_)
    rw [List.append_assoc, if_neg ((opens_tokens e).head_ne rfl _)]
    refine ((h e List.mem_cons_self).whole.namedTest rfl fun lt => far (by omega)).bind
      fun a base' grown first => reads_eat ?_
    refine (reads_namedItems rfl (by decide) rfl (fun x mem => h x (.tail e mem))
      fun lt => far (by omega)).bind fun ids base'' grown' rest => ?_
    refine reads_expect fun _ => reads_push fun nodes more => hangs_push ?_
    have all : List.Forall₂ (Hangs nodes) (a :: ids) (e :: es) :=
      hangs_all (.cons (first.mono grown') rest) more
    simp [ofKind, mapM_below all]

theorem reads_dictPair {room : Nat} {key value : Expression} (k : Reading key) (v : Reading value)
    (ends : separates t = true) (far : room < max key.nesting value.nesting + 1 → deep) :
    Reads deep base (dictPair (.within room)) (key.tokens ++ .symbol .colon :: value.tokens)
      (t :: rest) fun nodes p => Hangs nodes p.1 key ∧ Hangs nodes p.2 value := by
  refine (k.whole.test (stops_of_separates rfl _) fun lt => far (by omega)).bind fun a base' _ hk => ?_
  refine reads_peek ?_
  rw [if_neg (by simp)]
  refine reads_advance fun _ => ?_
  refine (v.whole.test (stops_of_separates ends _) fun lt => far (by omega)).finish
    fun b base'' grown hv => ?_
  exact reads_pure fun nodes more => ⟨hk.mono (grown.trans more), hv.mono more⟩

theorem le_nestingPairs {p : Expression × Expression} {pairs : List (Expression × Expression)}
    (mem : p ∈ pairs) : max p.1.nesting p.2.nesting ≤ nestingPairs pairs := by
  induction mem with
  | head => exact le_max_left ..
  | tail _ _ ih => exact ih.trans (le_max_right ..)

theorem hangs_dict {pairs : List (Expression × Expression)} {read : List (NodeId × NodeId)}
    {base nodes : Array Node} {span : Span}
    (h : List.Forall₂ (fun r p => Hangs base r.1 p.1 ∧ Hangs base r.2 p.2) read pairs)
    (more : Grows base nodes) :
    Hangs (nodes.push ⟨.dict (read.map (·.1)) (read.map (·.2)), span⟩) nodes.size (.dict pairs) := by
  have keys : List.Forall₂ (Hangs nodes) (read.map (·.1)) (pairs.map (·.1)) :=
    List.forall₂_map_left_iff.mpr (List.forall₂_map_right_iff.mpr
      (h.imp fun _ _ same => same.1.mono more))
  have values : List.Forall₂ (Hangs nodes) (read.map (·.2)) (pairs.map (·.2)) :=
    List.forall₂_map_left_iff.mpr (List.forall₂_map_right_iff.mpr
      (h.imp fun _ _ same => same.2.mono more))
  refine hangs_push ?_
  rw [ofKind, if_pos (by simp), mapM_below keys, mapM_below values]
  simp [List.zip_map']

theorem ownReading_dict {pairs : List (Expression × Expression)}
    (h : ∀ p ∈ pairs, Reading p.1 ∧ Reading p.2) : OwnReading (.dict pairs) := by
  intro room after deep base _ far
  have own : (Expression.dict pairs).tokens =
      .symbol .leftBrace :: (commas (pairTokens pairs) ++ [.symbol .rightBrace]) := rfl
  have items : Reads deep base (itemsBefore (.symbol .rightBrace) fun _ => dictPair (.within room))
      (commas (pairTokens pairs)) (.symbol .rightBrace :: after) fun nodes read =>
        List.Forall₂ (fun r p => Hangs nodes r.1 p.1 ∧ Hangs nodes r.2 p.2) read pairs := by
    rw [pairTokens_eq]
    refine reads_itemsBefore (fun _ _ _ _ more same => ⟨same.1.mono more, same.2.mono more⟩) (by simp)
      (fun p _ => ?_) fun p mem _ base' t rest _ next => ?_
    · obtain ⟨t, rest, toks⟩ := (opens_tokens p.1).head
      have ne := (opens_tokens p.1).head_ne (t := .symbol .rightBrace) rfl []
      rw [toks] at ne ⊢
      exact ⟨t, _, rfl, fun same => ne (congrArg some same)⟩
    · refine reads_dictPair (h p mem).1 (h p mem).2 ?_ fun lt => far (lt.trans_le ?_)
      · rcases next with rfl | rfl <;> rfl
      · exact Nat.succ_le_succ (le_nestingPairs mem)
  rw [own]
  refine reads_peek (reads_expect fun start => items.bind fun read base' _ made => ?_)
  exact reads_expect fun _ => reads_push fun nodes more => hangs_dict made more

/-! ### Trailers -/

/-- An expression that is another one with a trailer. -/
theorem chaining_trailer {e func : Expression} (f : Chaining func .primary)
    (own : e.level = .primary) (written : e.tokens = tokensAt .primary func ++ ts)
    (opens : opensTrailer ts.head? = true)
    (nest : wrapped .primary func.level func.nesting ≤ e.nesting)
    (read : ∀ (room : Nat) (deep : Prop) (base : Array Node) (a : NodeId) (after : List Token),
      (room < e.nesting → deep) → Hangs base a func →
      Reads deep base (trailer (.within room) a) ts after fun nodes r =>
        ∃ b, r = some b ∧ Hangs nodes b e) :
    Chaining e .primary := by
  intro room more after deep base Q stops far goes
  have some : ts ≠ [] := by
    rintro rfl
    cases opens
  have first : Stops .atom (ts ++ more ++ after) := by
    obtain ⟨t, rest, rfl⟩ := List.exists_cons_of_ne_nil some
    intro l le
    cases l with
    | atom => cases t <;> first | rfl | cases opens
    | _ => exact absurd le (by decide)
  have own' : tokensAt .primary e = tokensAt .primary func ++ ts := by
    rw [← written, ← own, tokensAt_own]
  rw [own', List.append_assoc]
  rw [own, wrapped_own] at far
  refine f first (fun lt => far (lt.trans_le nest)) fun a base' grown made => ?_
  exact turns_step some (read _ _ _ _ _ far made) fun b base'' grown' made' => goes b base'' (grown.trans grown') made'

theorem chaining_attribute {value : Expression} {attr : String} (v : Chaining value .primary) :
    Chaining (.attribute value attr) .primary := by
  refine chaining_trailer v rfl rfl rfl (Nat.le_refl _) fun _ _ _ _ _ _ made => ?_
  refine reads_peek (reads_advance fun _ => reads_expectName fun _ => reads_spanOf fun _ => ?_)
  refine Reads.finish (Q := (Hangs · · (.attribute value attr))) (reads_push fun nodes more =>
    hangs_push ?_) fun c _ _ made' => reads_pure fun nodes more => ⟨c, rfl, made'.mono more⟩
  simp [ofKind, (made.mono more).below]

theorem chaining_subscript {value index : Expression} (v : Chaining value .primary)
    (i : Reading index) : Chaining (.subscript value index) .primary := by
  have own : (Expression.subscript value index).tokens = tokensAt .primary value ++
      .symbol .leftBracket :: (index.tokens ++ [.symbol .rightBracket]) := by
    rw [tokens, List.append_assoc]
    rfl
  have nest : (Expression.subscript value index).nesting =
      max (wrapped .primary value.level value.nesting) (index.nesting + 1) := rfl
  refine chaining_trailer v rfl own rfl (le_max_left ..) fun room deep base a after far made => ?_
  rw [nest] at far
  refine reads_peek (reads_advance fun _ => ?_)
  have inside : Reads deep base (testList (.within room)) index.tokens (.symbol .rightBracket :: after)
      (Hangs · · index) :=
    i.whole.testList (stops_of_separates rfl _) (by simp) fun lt => far (lt.trans_le (le_max_right ..))
  refine inside.bind fun b base' grown made' => reads_expect fun _ => reads_spanOf fun _ => ?_
  refine Reads.finish (Q := (Hangs · · (.subscript value index))) (reads_push fun nodes more =>
    hangs_push ?_) fun c base'' _ made'' => reads_pure fun nodes more => ⟨c, rfl, made''.mono more⟩
  simp [ofKind, (made.mono (grown.trans more)).below, (made'.mono more).below]

theorem chaining_call {func : Expression} {args : List Expression} (f : Chaining func .primary)
    (h : ∀ x ∈ args, Reading x) : Chaining (.call func args) .primary := by
  have own : (Expression.call func args).tokens = tokensAt .primary func ++
      .symbol .leftParen :: (commas (itemTokens args) ++ [.symbol .rightParen]) := by
    rw [tokens, List.append_assoc]
    rfl
  have nest : (Expression.call func args).nesting =
      max (wrapped .primary func.level func.nesting) (nestingAt .conditional args + 1) := rfl
  refine chaining_trailer f rfl own rfl (le_max_left ..) fun room deep base a after far made => ?_
  rw [nest] at far
  refine reads_peek (reads_advance fun _ => ?_)
  have inside : Reads deep base (itemsBefore (.symbol .rightParen) fun _ => argument (.within room))
      (commas (itemTokens args)) (.symbol .rightParen :: after)
      fun nodes ids => List.Forall₂ (Hangs nodes) ids args := by
    refine reads_items rfl (by simp) rfl fun x mem base' t rest ends => ?_
    have nest : x.nesting ≤ nestingAt .conditional args :=
      (le_nestingAt mem : wrapped .conditional x.level x.nesting ≤ _)
    exact (h x mem).whole.argument ends fun lt => far (by omega)
  refine inside.bind fun ids base' grown made' => reads_expect fun _ => reads_spanOf fun _ => ?_
  refine Reads.finish (Q := (Hangs · · (.call func args))) (reads_push fun nodes more =>
    hangs_push ?_) fun c _ _ made'' => reads_pure fun nodes more => ⟨c, rfl, made''.mono more⟩
  simp [ofKind, (made.mono (grown.trans more)).below, mapM_below (hangs_all made' more)]

/-! ### All expressions -/

/-- What the induction carries: the expression is read, and loops go on after it. -/
structure ReadsBack (e : Expression) : Prop where
  reading : Reading e
  chaining : ∀ l : Level, l.loops = true → Chaining e l

theorem OwnReading.readsBack {e : Expression} (own : OwnReading e) (other : e.level.loops = false) :
    ReadsBack e := by
  refine ⟨own.reading, fun l loops => own.reading.chaining loops ?_⟩
  rintro rfl
  rw [loops] at other
  cases other

theorem Chaining.readsBack {e : Expression} {l : Level} (own : e.level = l) (loops : l.loops = true)
    (h : Chaining e l) : ReadsBack e := by
  subst own
  have reading := (Chaining.ownReading loops h).reading
  refine ⟨reading, fun l loops' => ?_⟩
  by_cases same : e.level = l
  · subst same
    exact h
  · exact reading.chaining loops' same

theorem readsBack (e : Expression) : ReadsBack e := by
  induction e using Expression.induction with
  | step e ih =>
    have reading : ∀ x ∈ e.parts, Reading x := fun x mem => (ih x mem).reading
    have chaining : ∀ x ∈ e.parts, ∀ l : Level, l.loops = true → Chaining x l :=
      fun x mem => (ih x mem).chaining
    cases e with
    | name id => exact (ownReading_name id).readsBack rfl
    | literal value => exact (ownReading_literal value).readsBack rfl
    | binary left op right =>
      have l := ih left (by simp [parts])
      have r := ih right (by simp [parts])
      by_cases pow : op = .pow
      · subst pow
        exact (ownReading_pow l.reading r.reading).readsBack rfl
      · have loops : (opLevel op).loops = true := by cases op <;> first | rfl | contradiction
        exact (chaining_binary pow (l.chaining _ loops) r.reading).readsBack rfl loops
    | unary op operand =>
      refine (ownReading_unary (reading operand (by simp [parts])) op).readsBack ?_
      cases op <;> rfl
    | boolean op first second others =>
      refine (ownReading_boolean reading).readsBack ?_
      cases op <;> rfl
    | compare left op right others =>
      refine (ownReading_compare (reading left (by simp [parts])) fun x mem => ?_).readsBack rfl
      exact reading x.2 (.tail _ (List.mem_map_of_mem mem))
    | conditional test body orelse =>
      exact (ownReading_conditional (reading test (by simp [parts])) (reading body (by simp [parts]))
        (reading orelse (by simp [parts]))).readsBack rfl
    | named target value => exact (ownReading_named (reading value (by simp [parts]))).readsBack rfl
    | call func args =>
      exact (chaining_call (chaining func (by simp [parts]) .primary rfl) fun x mem =>
        reading x (.tail _ mem)).readsBack rfl rfl
    | «attribute» value attr =>
      exact (chaining_attribute (chaining value (by simp [parts]) .primary rfl)).readsBack rfl rfl
    | subscript value index =>
      exact (chaining_subscript (chaining value (by simp [parts]) .primary rfl)
        (reading index (by simp [parts]))).readsBack rfl rfl
    | list elts => exact (ownReading_list reading).readsBack rfl
    | tuple elts => exact (ownReading_tuple reading).readsBack rfl
    | dict pairs =>
      exact (ownReading_dict fun p mem =>
        ⟨reading p.1 (List.mem_append_left _ (List.mem_map_of_mem mem)),
          reading p.2 (List.mem_append_right _ (List.mem_map_of_mem mem))⟩).readsBack rfl

end Scratchpad.Expression

namespace Scratchpad

namespace Parse

open Expression (Hangs opens_tokens readsBack stops_of_separates)

def newlineTurn (_ : Unit) : Parse (Option Unit) := do
  if ← eat .newline then return some () else return none

theorem newlineTurn_stop {s : State} (other : s.tokens.head? ≠ some .newline) :
    newlineTurn () s = .ok (none, s) := by
  have seen : eat .newline s = .ok (false, s) := by
    unfold eat
    rw [bind_of_ok (peek?_eq s)]
    exact congrFun (if_neg other) s
  rw [newlineTurn, bind_of_ok seen]
  rfl

theorem reads_noNewline {f : Unit → Parse β} {R : Array Node → β → Prop}
    (other : (ts ++ after).head? ≠ some .newline) (h : Reads deep base (f ()) ts after R) :
    Reads deep base (skipNewlines >>= f) ts after R := by
  intro s old here bound
  have seen : skipNewlines s = .ok ((), s) :=
    Expression.iterate_stop (newlineTurn_stop (here ▸ other))
  rw [bind_of_ok seen]
  exact h s old here bound

theorem reads_newline (other : after.head? ≠ some .newline) :
    Reads deep base skipNewlines [.newline] after fun _ _ => True := by
  refine reads_iterate (turns_last (by simp) (P := fun _ _ => True) ?_ fun _ _ _ _ =>
    turns_stop (fun s here => newlineTurn_stop (here ▸ other)) fun _ _ => trivial)
  exact reads_eat (reads_pure fun _ _ => ⟨(), rfl, trivial⟩)

/-- A whole source of one expression. -/
theorem reads_expression (e : Expression) :
    Reads (maxNesting ≤ e.nesting) #[] (expression (.within maxNesting)) (e.tokens ++ [.newline]) []
      fun nodes root => ∃ id, root = .expression id ∧ Hangs nodes id e := by
  have first : ((e.tokens ++ [Token.newline] ++ []).head?).isNone = false := by
    obtain ⟨t, rest, toks⟩ := (opens_tokens e).head
    rw [toks]
    rfl
  refine reads_noNewline ?_ (reads_peek ?_)
  · rw [List.append_assoc]
    exact (opens_tokens e).head_ne rfl _
  rw [first]
  have whole : Reads (maxNesting ≤ e.nesting) #[] (testList (.within maxNesting)) e.tokens [.newline]
      (Hangs · · e) :=
    (readsBack e).reading.whole.testList (stops_of_separates rfl _) (by simp) Nat.le_of_lt_succ
  refine whole.bind fun id base' _ hangs => ?_
  refine (reads_newline (by simp)).finish fun _ base'' grown _ => ?_
  intro s old here bound
  have done : peekSpan? s = .ok (none, s) := by
    have ended : s.rest = [] := List.map_eq_nil_iff.mp here
    change Except.ok (s.rest.head?.map (·.span), s) = _
    rw [ended]
    rfl
  rw [bind_of_ok done]
  exact ⟨here, .refl _, rfl, id, rfl, hangs.mono (grown.trans old)⟩

end Parse

/-- The expression of a tree that was read as one. -/
def Tree.expression? (t : Tree) : Option Expression :=
  match t.root with
  | .expression id => Expression.ofNode t.nodes t.nodes.size id
  | _ => none

theorem Tree.ofTokens_written (e : Expression) {placed : List Token.Placed}
    (written : placed.map (·.token) = e.tokens ++ [.newline]) :
    (∃ nodes id, Tree.ofTokens .eval placed = .ok ⟨nodes, .expression id⟩ ∧
      Expression.Hangs nodes id e) ∨
      Parse.maxNesting ≤ e.nesting ∧
        ∃ what span, Tree.ofTokens .eval placed = .error (.invalid (.tooNested what) span) := by
  have came := Parse.reads_expression e (.ofTokens placed) (.refl _)
    (written.trans (List.append_nil _).symm) (Parse.bounded_ofTokens placed)
  rw [Tree.ofTokens_within, Tree.ofTokensWithin, StateT.run, Parse.rootWithin]
  generalize Parse.expression (.within Parse.maxNesting) (.ofTokens placed) = run at came ⊢
  rcases run with _ | ⟨_, s⟩
  · obtain ⟨far, what, span, rfl⟩ := came
    exact .inr ⟨far, what, span, rfl⟩
  · obtain ⟨_, _, _, id, rfl, hangs⟩ := came
    exact .inl ⟨s.nodes, id, rfl, hangs⟩

/-- The tokens of an expression give a tree of that expression, or are refused because it nests too
deep; nothing else happens. -/
theorem ofTokens_tokens (e : Expression) (placed : List Token.Placed)
    (written : placed.map (·.token) = e.tokens ++ [.newline]) :
    (∃ t, Tree.ofTokens .eval placed = .ok t ∧ t.expression? = some e) ∨
      Parse.maxNesting ≤ e.nesting ∧
        ∃ what span, Tree.ofTokens .eval placed = .error (.invalid (.tooNested what) span) := by
  rcases Tree.ofTokens_written e written with ⟨nodes, id, read, hangs⟩ | refused
  · exact .inl ⟨_, read, Expression.ofNode_mono (.refl _) hangs.lt_size hangs⟩
  · exact .inr refused

/-- `(a + b) * -c ** d if not (x := 1) in [p] or q else {k: (v,)}` -/
def Expression.manyLevels : Expression :=
  .conditional
    (.boolean .or
      (.unary .not (.compare (.named "x" (.literal (.int 1))) .isIn (.list [.name "p"]) []))
      (.name "q") [])
    (.binary (.binary (.name "a") .add (.name "b")) .mul
      (.unary .neg (.binary (.name "c") .pow (.name "d"))))
    (.dict [(.name "k", .tuple [.name "v"])])

theorem ofTokens_tokens_manyLevels :
    ∃ t, Tree.ofTokens .eval ((Expression.manyLevels.tokens ++ [Token.newline]).map (⟨·, {}⟩)) = .ok t ∧
      t.expression? = some Expression.manyLevels := by
  rcases ofTokens_tokens Expression.manyLevels
    ((Expression.manyLevels.tokens ++ [Token.newline]).map (⟨·, {}⟩)) (by simp [Function.comp_def])
    with read | ⟨deep, _⟩
  · exact read
  · exact absurd deep (by decide)

end Scratchpad
