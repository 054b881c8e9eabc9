import Scratchpad.Proofs.Token.Joined
import Scratchpad.Proofs.Tree.Embeds
import Scratchpad.Proofs.Tree.Modes

/-!
# Parsing with more tokens behind

A parser is run twice: on the tokens of one text, and where other nodes were made before and other
tokens follow. `Echoes` says that the second run does what the first does, unless it is cut short, which it
is not (`root_tracks`). In the line the two see the same tokens (`Inside`), so that nothing tells them apart;
the new nodes are the same but for their ids, which start after those that were there.
-/

namespace Scratchpad.Parse

open Token (isLayout Closed)

/-- The kinds of the nodes made so far. -/
def State.kinds (s : State) : List NodeKind := s.nodes.toList.map (·.kind)

/-- The tokens at the end of one text, and what the other has in their place. Where blocks are to be
closed, one more newline may stand before that. -/
inductive Seam (after : List Token) : List Token → List Token → Prop where
  | plain : Seam after [] after
  | padded (n : Nat) : Seam after (List.replicate (n + 1) .dedent)
      (.newline :: (List.replicate (n + 1) .dedent ++ after))

/-- Both runs have `front` before them, and then the one has the end of its text and the other goes
on. -/
structure Beside (base : List NodeKind) (after front : List Token) (s s' : State) : Prop where
  tokens : ∃ back back', Seam after back back' ∧ s.tokens = front ++ back ∧ s'.tokens = front ++ back'
  kinds : s'.kinds = base ++ s.kinds.map (·.rename (base.length + ·))

variable {base : List NodeKind} {after front : List Token} {s s' : State}

/-- Both runs stand before tokens with `F`. -/
def Stands (F : List Token → Prop) (base : List NodeKind) (after : List Token) (s s' : State) : Prop :=
  ∃ front, F front ∧ Beside base after front s s'

/-- Both runs stand in a line, before its end. -/
abbrev Inside := Stands fun front => front ≠ [] ∧ Closed front

/-- Both runs stand in a line, or where one may start. -/
abbrev Loose := Stands Closed

/-- Both runs stand before the token. -/
abbrev At (t : Token) := Stands fun front => ∃ rest, front = t :: rest ∧ Closed front

/-- Both runs stand before two tokens. -/
abbrev Ahead (t t₂ : Token) := Stands fun front => ∃ rest, front = t :: t₂ :: rest ∧ Closed front

theorem Stands.mono {F G : List Token → Prop} (h : Stands F base after s s')
    (weaker : ∀ front, F front → G front) : Stands G base after s s' := by
  obtain ⟨front, holds, beside⟩ := h
  exact ⟨front, weaker front holds, beside⟩

theorem closed_tail {t : Token} {rest : List Token} (h : Closed (t :: rest)) : Closed rest := by
  intro last mem
  cases rest with
  | nil => cases mem
  | cons t' rest => exact h last (by rwa [List.getLast?_cons_cons])

/-- After a token of a line the line goes on. -/
theorem closed_inLine {t : Token} {rest : List Token} (h : Closed (t :: rest))
    (inLine : isLayout t = false) : rest ≠ [] := by
  rintro rfl
  have layout := h t rfl
  rw [inLine] at layout
  cases layout

/-! ### The second run echoes the first -/

theorem Lasts.of_ok {y : Parse β} (h : y s = .ok r) : Lasts y s := by
  intro span cut
  rw [h] at cut
  cases cut

theorem Lasts.bind {y : Parse β} {g : β → Parse γ} (h : Lasts (y >>= g) s) :
    Lasts y s ∧ ∀ b s', y s = .ok (b, s') → Lasts (g b) s' := by
  refine ⟨fun span cut => h span (bind_of_error cut), fun b s' done => ?_⟩
  rwa [Lasts, bind_of_ok done] at h

def Echoes (I : State → State → Prop) (x : Parse α) (y : Parse β)
    (Q : α → β → State → State → Prop) : Prop :=
  ∀ s s' a s₁, I s s' → x s = .ok (a, s₁) → Lasts y s' → ∃ b s₁', y s' = .ok (b, s₁') ∧ Q a b s₁ s₁'

/-- The results are related, and so are the states. -/
def Gives (R : α → β → Prop) (J : State → State → Prop) (a : α) (b : β) (s s' : State) : Prop :=
  R a b ∧ J s s'

/-- The id of the same node in the second run. -/
abbrev Shift (base : List NodeKind) (a b : NodeId) : Prop := b = base.length + a

/-- Any two results. -/
abbrev Whatever (_ : α) (_ : β) : Prop := True

section Judgement

variable {I I' J K : State → State → Prop} {R : α → β → Prop} {x : Parse α} {y : Parse β}

theorem Echoes.mono {Q Q' : α → β → State → State → Prop} (h : Echoes I x y Q)
    (pre : ∀ s s', I' s s' → I s s') (post : ∀ a b s s', Q a b s s' → Q' a b s s') :
    Echoes I' x y Q' := by
  intro s s' a s₁ start done lasts
  obtain ⟨b, s₁', done', holds⟩ := h s s' a s₁ (pre s s' start) done lasts
  exact ⟨b, s₁', done', post a b s₁ s₁' holds⟩

theorem Echoes.bind {f : α → Parse γ} {g : β → Parse δ} {Q : γ → δ → State → State → Prop}
    (h : Echoes I x y (Gives R J)) (next : ∀ a b, R a b → Echoes J (f a) (g b) Q) :
    Echoes I (x >>= f) (y >>= g) Q := by
  intro s s' c s₂ start done lasts
  obtain ⟨a, s₁, first, rest⟩ := bind_ok done
  obtain ⟨b, s₁', first', related, kept⟩ := h s s' a s₁ start first lasts.bind.1
  rw [bind_of_ok first']
  exact next a b related s₁ s₁' c s₂ kept rest (lasts.bind.2 b s₁' first')

theorem echoes_pure {a : α} {b : β} (h : R a b) : Echoes I (pure a) (pure b) (Gives R I) := by
  intro s s' c s₁ start done _
  obtain ⟨rfl, rfl⟩ := pure_ok done
  exact ⟨b, s', rfl, h, start⟩

theorem echoes_fail {Q : α → β → State → State → Prop} : Echoes I (fail v span) y Q :=
  fun _ _ _ _ _ done _ => (fail_ok done).elim

theorem echoes_failThen {f : γ → Parse α} {Q : α → β → State → State → Prop} :
    Echoes I (fail v span >>= f) y Q := by
  intro s s' a s₁ _ done _
  obtain ⟨_, _, failed, _⟩ := bind_ok done
  exact (fail_ok failed).elim

theorem echoes_unexpected {Q : α → β → State → State → Prop} : Echoes I (unexpected what) y Q :=
  fun _ _ _ _ _ done _ => (unexpected_ok done).elim

theorem echoes_unexpectedThen {f : γ → Parse α} {Q : α → β → State → State → Prop} :
    Echoes I (unexpected what >>= f) y Q := by
  intro s s' a s₁ _ done _
  obtain ⟨_, _, failed, _⟩ := bind_ok done
  exact (unexpected_ok failed).elim

theorem echoes_ite {c : Prop} [Decidable c] {x' : Parse α} {y' : Parse β}
    {Q : α → β → State → State → Prop} (yes : c → Echoes I x y Q) (no : ¬ c → Echoes I x' y' Q) :
    Echoes I (if c then x else x') (if c then y else y') Q := by
  split
  · exact yes ‹_›
  · exact no ‹_›

theorem echoes_spanOf (id id' : NodeId) : Echoes I (spanOf id) (spanOf id') (Gives Whatever I) := by
  intro s s' span s₁ start done _
  obtain ⟨-, rfl⟩ := spanOf_ok done
  exact ⟨_, s', rfl, trivial, start⟩

theorem echoes_peekSpan : Echoes I peekSpan? peekSpan? (Gives Whatever I) := by
  intro s s' span s₁ start done _
  obtain ⟨-, rfl⟩ := peekSpan?_ok done
  exact ⟨_, s', rfl, trivial, start⟩

end Judgement

/-! ### Tokens -/

section Tokens

variable {F G : List Token → Prop} {Q : α → β → State → State → Prop}

theorem Beside.pass {t : Token} {s₁ s₁' : State} (h : Beside base after (t :: front) s s')
    (passed : s.Passes t s₁) (passed' : s'.Passes t s₁') : Beside base after front s₁ s₁' := by
  obtain ⟨back, back', seam, tokens, tokens'⟩ := h.tokens
  refine ⟨⟨back, back', seam, ?_, ?_⟩, ?_⟩
  · exact (List.cons.inj (passed.tokens.symm.trans tokens)).2
  · exact (List.cons.inj (passed'.tokens.symm.trans tokens')).2
  · rw [State.kinds, State.kinds, passed.nodes, passed'.nodes]
    exact h.kinds

theorem Beside.head? (h : Beside base after (t :: front) s s') :
    s.tokens.head? = some t ∧ s'.tokens.head? = some t := by
  obtain ⟨back, back', seam, tokens, tokens'⟩ := h.tokens
  rw [tokens, tokens']
  exact ⟨rfl, rfl⟩

theorem echoes_advance (passes : ∀ front, F front → ∃ t rest, front = t :: rest ∧ G rest) :
    Echoes (Stands F base after) advance advance (Gives Whatever (Stands G base after)) := by
  rintro s s' span s₁ ⟨front, holds, beside⟩ done _
  obtain ⟨t, rest, rfl, holds'⟩ := passes front holds
  obtain ⟨head, head'⟩ := beside.head?
  obtain ⟨back, back', seam, tokens, tokens'⟩ := beside.tokens
  obtain ⟨span', s₁', done', -⟩ := advance_eq tokens'
  exact ⟨span', s₁', done', trivial, rest, holds',
    beside.pass (advance_ok head done) (advance_ok head' done')⟩

theorem echoes_advance_at (inLine : isLayout t = false) :
    Echoes (At t base after) advance advance (Gives Whatever (Inside base after)) :=
  echoes_advance fun _ ⟨rest, same, closed⟩ =>
    ⟨t, rest, same, closed_inLine (same ▸ closed) inLine, closed_tail (same ▸ closed)⟩

theorem echoes_peek {f : Option Token → Parse α} {g : Option Token → Parse β}
    (h : ∀ t, Echoes (At t base after) (f (some t)) (g (some t)) Q) :
    Echoes (Inside base after) (peek? >>= f) (peek? >>= g) Q := by
  rintro s s' a s₁ ⟨front, ⟨some, closed⟩, beside⟩ done lasts
  obtain ⟨t, rest, rfl⟩ := List.exists_cons_of_ne_nil some
  obtain ⟨head, head'⟩ := beside.head?
  rw [bind_of_ok (peek?_eq s), head] at done
  rw [Lasts, bind_of_ok (peek?_eq s'), head'] at lasts
  rw [bind_of_ok (peek?_eq s'), head']
  exact h t s s' a s₁ ⟨_, ⟨rest, rfl, closed⟩, beside⟩ done lasts

theorem echoes_peek_at {f : Option Token → Parse α} {g : Option Token → Parse β}
    (h : Echoes (At t base after) (f (some t)) (g (some t)) Q) :
    Echoes (At t base after) (peek? >>= f) (peek? >>= g) Q := by
  rintro s s' a s₁ ⟨front, ⟨rest, rfl, closed⟩, beside⟩ done lasts
  obtain ⟨head, head'⟩ := beside.head?
  rw [bind_of_ok (peek?_eq s), head] at done
  rw [Lasts, bind_of_ok (peek?_eq s'), head'] at lasts
  rw [bind_of_ok (peek?_eq s'), head']
  exact h s s' a s₁ ⟨_, ⟨rest, rfl, closed⟩, beside⟩ done lasts

/-- Where the first run is at the end of its text, or has blocks to close, the second may see what
follows. -/
theorem echoes_peek_loose {f : Option Token → Parse α} {g : Option Token → Parse β}
    (inside : ∀ t, Echoes (At t base after) (f (some t)) (g (some t)) Q)
    (ended : Echoes (Loose base after) (f none) (g after.head?) Q)
    (closing : Echoes (Loose base after) (f (some .dedent)) (g (some .newline)) Q) :
    Echoes (Loose base after) (peek? >>= f) (peek? >>= g) Q := by
  rintro s s' a s₁ ⟨front, closed, beside⟩ done lasts
  obtain ⟨back, back', seam, tokens, tokens'⟩ := beside.tokens
  have stands : Loose base after s s' := ⟨front, closed, beside⟩
  rw [bind_of_ok (peek?_eq s), tokens] at done
  rw [Lasts, bind_of_ok (peek?_eq s'), tokens'] at lasts
  rw [bind_of_ok (peek?_eq s'), tokens']
  cases front with
  | cons t rest => exact inside t s s' a s₁ ⟨_, ⟨rest, rfl, closed⟩, beside⟩ done lasts
  | nil =>
    cases seam with
    | plain => exact ended s s' a s₁ stands done lasts
    | padded n => exact closing s s' a s₁ stands done lasts

theorem At.inside (h : At t base after s s') : Inside base after s s' :=
  h.mono fun _ ⟨rest, same, closed⟩ => ⟨by simp [same], closed⟩

theorem Echoes.inside {x : Parse α} {y : Parse β} (h : Echoes (Inside base after) x y Q) :
    Echoes (At t base after) x y Q :=
  h.mono (fun _ _ => At.inside) fun _ _ _ _ => id

theorem echoes_peekSecond (inLine : isLayout t = false) {f : Option Token → Parse α}
    {g : Option Token → Parse β}
    (h : ∀ t₂, Echoes (Ahead t t₂ base after) (f (some t₂)) (g (some t₂)) Q) :
    Echoes (At t base after) (peekSecond? >>= f) (peekSecond? >>= g) Q := by
  rintro s s' a s₁ ⟨front, ⟨rest, rfl, closed⟩, beside⟩ done lasts
  obtain ⟨t₂, rest, rfl⟩ := List.exists_cons_of_ne_nil (closed_inLine closed inLine)
  obtain ⟨back, back', seam, tokens, tokens'⟩ := beside.tokens
  rw [bind_of_ok (peekSecond?_eq s), tokens] at done
  rw [Lasts, bind_of_ok (peekSecond?_eq s'), tokens'] at lasts
  rw [bind_of_ok (peekSecond?_eq s'), tokens']
  exact h t₂ s s' a s₁ ⟨_, ⟨rest, rfl, closed⟩, beside⟩ done lasts

/-- A second token that makes no difference. -/
theorem echoes_peekSecond_any {I : State → State → Prop} {f : Option Token → Parse α}
    {g : Option Token → Parse β} (h : ∀ o o', Echoes I (f o) (g o') Q) :
    Echoes I (peekSecond? >>= f) (peekSecond? >>= g) Q := by
  intro s s' a s₁ start done lasts
  rw [bind_of_ok (peekSecond?_eq s)] at done
  rw [bind_of_ok (peekSecond?_eq s')]
  exact h _ _ s s' a s₁ start done (lasts.bind.2 _ _ (peekSecond?_eq s'))

theorem echoes_advance_ahead : Echoes (Ahead t t₂ base after) advance advance
    (Gives Whatever (At t₂ base after)) :=
  echoes_advance fun _ ⟨rest, same, closed⟩ => ⟨t, t₂ :: rest, same, rest, rfl, closed_tail (same ▸ closed)⟩

theorem Echoes.ahead {x : Parse α} {y : Parse β} (h : Echoes (At t base after) x y Q) :
    Echoes (Ahead t t₂ base after) x y Q :=
  h.mono (fun _ _ start => start.mono fun _ ⟨rest, same, closed⟩ => ⟨t₂ :: rest, same, closed⟩)
    fun _ _ _ _ => id

theorem eat_of_head (head : s.tokens.head? = some t) : ∃ s₁, eat t s = .ok (true, s₁) ∧ s.Passes t s₁ := by
  obtain ⟨span, s₁, done, -⟩ := advance_eq (List.eq_cons_of_mem_head? head)
  refine ⟨s₁, ?_, advance_ok head done⟩
  rw [eat, bind_of_ok (peek?_eq s), if_pos head, bind_of_ok done]
  rfl

theorem echoes_eat_any (passes : ∀ rest, Closed (t :: rest) → G rest) {f : Bool → Parse α}
    {g : Bool → Parse β} (yes : Echoes (Stands G base after) (f true) (g true) Q)
    (no : Echoes (Inside base after) (f false) (g false) Q) :
    Echoes (Inside base after) (eat t >>= f) (eat t >>= g) Q := by
  rintro s s' a s₂ ⟨front, ⟨some, closed⟩, beside⟩ done lasts
  obtain ⟨t', rest, rfl⟩ := List.exists_cons_of_ne_nil some
  obtain ⟨head, head'⟩ := beside.head?
  obtain ⟨b, s₁, ate, done⟩ := bind_ok done
  rcases eat_ok ate with ⟨rfl, passed⟩ | ⟨rfl, rfl, other⟩
  · rw [passed.tokens] at head
    cases head
    obtain ⟨s₁', ate', passed'⟩ := eat_of_head head'
    rw [bind_of_ok ate']
    exact yes s₁ s₁' a s₂ ⟨rest, passes rest closed, beside.pass passed passed'⟩ done (lasts.bind.2 _ _ ate')
  · have ate' := eat_not (head'.trans head.symm ▸ other)
    rw [bind_of_ok ate']
    exact no s s' a s₂ ⟨_, ⟨some, closed⟩, beside⟩ done (lasts.bind.2 _ _ ate')

theorem echoes_eat (inLine : isLayout t = false) {f : Bool → Parse α} {g : Bool → Parse β}
    (yes : Echoes (Inside base after) (f true) (g true) Q)
    (no : Echoes (Inside base after) (f false) (g false) Q) :
    Echoes (Inside base after) (eat t >>= f) (eat t >>= g) Q :=
  echoes_eat_any (fun _ closed => ⟨closed_inLine closed inLine, closed_tail closed⟩) yes no

theorem echoes_expect (inLine : isLayout t = false) :
    Echoes (Inside base after) (expect t) (expect t) (Gives Whatever (Inside base after)) := by
  refine echoes_peek fun t' => echoes_ite (fun same => ?_) fun _ => echoes_unexpected
  cases same
  exact echoes_advance_at inLine

theorem echoes_expectName : Echoes (Inside base after) expectName expectName
    (Gives (fun a b => b.1 = a.1) (Inside base after)) := by
  refine echoes_peek fun t => ?_
  cases t with
  | name id => exact (echoes_advance_at rfl).bind fun _ _ _ => echoes_pure rfl
  | _ => exact echoes_unexpected

end Tokens

/-! ### Nodes -/

section Nodes

variable {F : List Token → Prop}

theorem Beside.push (h : Beside base after front s s') (kind : NodeKind) (span span' : Span) :
    Beside base after front { s with nodes := s.nodes.push ⟨kind, span⟩ }
      { s' with nodes := s'.nodes.push ⟨kind.rename (base.length + ·), span'⟩ } where
  tokens := h.tokens
  kinds := by
    have kinds := h.kinds
    simp only [State.kinds, Array.toList_push, List.map_append, List.map_cons, List.map_nil] at kinds ⊢
    rw [kinds, List.append_assoc]

theorem Beside.size (h : Beside base after front s s') :
    s'.nodes.size = base.length + s.nodes.size := by
  have same := congrArg List.length h.kinds
  simpa [State.kinds] using same

theorem Beside.get? (h : Beside base after front s s') (id : NodeId) :
    s'.nodes[base.length + id]?.map (·.kind) =
      (s.nodes[id]?.map (·.kind)).map (·.rename (base.length + ·)) := by
  have same := congrArg (·[base.length + id]?) h.kinds
  simpa [State.kinds, List.getElem?_append_right] using same

/-- The same node but for the ids of other nodes. -/
theorem echoes_push (kind : NodeKind) (span span' : Span) :
    Echoes (Stands F base after) (push kind span) (push (kind.rename (base.length + ·)) span')
      (Gives (Shift base) (Stands F base after)) := by
  rintro s s' a s₁ ⟨front, holds, beside⟩ done _
  cases done
  exact ⟨_, _, rfl, beside.size, front, holds, beside.push kind span span'⟩

theorem echoes_pushBetween (kind : NodeKind) (first last first' last' : NodeId) :
    Echoes (Stands F base after) (pushBetween kind first last)
      (pushBetween (kind.rename (base.length + ·)) first' last')
      (Gives (Shift base) (Stands F base after)) :=
  (echoes_spanOf first first').bind fun _ _ _ =>
    (echoes_spanOf last last').bind fun _ _ _ => echoes_push kind _ _

theorem echoes_node (id : NodeId) : Echoes (Stands F base after) (node? id) (node? (base.length + id))
    (Gives (fun o o' => o'.map (·.kind) = (o.map (·.kind)).map (·.rename (base.length + ·)))
      (Stands F base after)) := by
  rintro s s' a s₁ ⟨front, holds, beside⟩ done _
  cases done
  exact ⟨_, _, rfl, beside.get? id, front, holds, beside⟩

end Nodes

/-! ### Loops -/

/-- Both runs stop, or both go on. -/
abbrev Turned (R : α → β → Prop) (J : State → State → Prop) := Gives (Option.Rel R) J

section Loops

variable {I : State → State → Prop} {R : α → β → Prop} {step : α → Parse (Option α)}
  {step' : β → Parse (Option β)} {a : α} {b : β}

theorem echoes_stop : Echoes I (pure (none : Option α)) (pure (none : Option β)) (Turned R I) :=
  echoes_pure .none

theorem echoes_goOn (h : R a b) : Echoes I (pure (some a)) (pure (some b)) (Turned R I) :=
  echoes_pure (.some h)

variable (turn : ∀ a b, R a b → Echoes I (step a) (step' b) (Turned R I))

include turn

/-- The second run is cut short, or makes as many rounds as the first. -/
theorem echoes_repeat (rounds rounds' : Nat) (h : R a b) :
    Echoes I (repeatFrom step rounds a) (repeatFrom step' rounds' b) (Gives R I) := by
  induction rounds generalizing rounds' a b with
  | zero => exact echoes_fail
  | succ rounds ih =>
    cases rounds' with
    | zero => exact fun _ _ _ _ _ _ lasts => absurd rfl (lasts none)
    | succ rounds' =>
      refine Echoes.bind (turn a b h) fun o o' same => ?_
      cases same with
      | none => exact echoes_pure h
      | some related => exact ih rounds' related

theorem echoes_iterate (h : R a b) : Echoes I (iterate step a) (iterate step' b) (Gives R I) :=
  fun s s' => echoes_repeat turn (s.total + 1) (s'.total + 1) h s s'

end Loops

/-- The ids of the same nodes in the second run. -/
abbrev ShiftAll (base : List NodeKind) (ids ids' : List NodeId) : Prop := ids' = ids.map (base.length + ·)

theorem ShiftAll.snoc {ids ids' : List NodeId} {a b : NodeId} (all : ShiftAll base ids ids')
    (last : Shift base a b) : ShiftAll base (ids ++ [a]) (ids' ++ [b]) := by
  rw [ShiftAll, all, last, List.map_append, List.map_singleton]

section Lists

variable {R : List α → List α → Prop} {items items' : List α}

theorem echoes_more {continues : Parse Bool} {item : Parse α} {S : α → α → Prop}
    (asks : Echoes (Inside base after) continues continues (Gives Eq (Inside base after)))
    (each : Echoes (Inside base after) item item (Gives S (Inside base after)))
    (snoc : ∀ {items items' a b}, R items items' → S a b → R (items ++ [a]) (items' ++ [b]))
    (h : R items items') : Echoes (Inside base after) (more continues item items)
      (more continues item items') (Gives R (Inside base after)) := by
  rw [more_eq, more_eq]
  refine echoes_iterate (fun items items' h => ?_) h
  refine asks.bind fun go _ same => ?_
  subst same
  cases go with
  | true => exact each.bind fun a b related => echoes_goOn (snoc h related)
  | false => exact echoes_stop

theorem echoes_itemsBefore {item : List α → Parse α} (closer : Token)
    (each : ∀ items items', R items items' → Echoes (Inside base after) (item items) (item items')
      (Gives (fun a b => R (items ++ [a]) (items' ++ [b])) (Inside base after)))
    (h : R [] []) : Echoes (Inside base after) (itemsBefore closer item) (itemsBefore closer item)
      (Gives R (Inside base after)) := by
  rw [itemsBefore_eq]
  refine (echoes_iterate (R := fun a b => R a.1 b.1 ∧ b.2 = a.2) ?_ ⟨h, rfl⟩).bind
    fun a b related => echoes_pure related.1
  rintro ⟨items, go⟩ ⟨items', go'⟩ ⟨h, rfl⟩
  refine echoes_peek fun t => echoes_ite (fun _ => echoes_stop.inside) fun _ => Echoes.inside ?_
  refine (each items items' h).bind fun a b related => ?_
  exact echoes_eat rfl (echoes_goOn ⟨related, rfl⟩) (echoes_goOn ⟨related, rfl⟩)

end Lists

end Scratchpad.Parse
