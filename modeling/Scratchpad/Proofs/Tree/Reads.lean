import Scratchpad.Proofs.Tree.Written

/-!
# What a parser reads

`Reads deep base p ts after Q`: where the tokens `ts` stand before `after`, the parser `p` passes just
them and gives something with `Q`, or it fails because they nest too deep, which happens only if
`deep` does. Nodes that were there before stay; `base` are some of them. Loops are read turn by turn
(`Turns`), the number of tokens being more than the turns that are needed. What is read are the parsers
`Inner.within`, which know how much deeper they may nest and count nothing.
-/

namespace Scratchpad.Parse

/-- Nothing may nest further. -/
def Inner.exhausted : Inner :=
  let stop {α : Type} (what : Nesting) : Parse α := do fail (.tooNested what) (← peekSpan?)
  ⟨stop .parentheses, stop .unaryOperators, stop .unaryOperators, stop .exponents, stop .blocks⟩

/-- Parsers that may nest `room` levels further. -/
def Inner.within : Nat → Inner
  | 0 => .exhausted
  | room + 1 =>
    let inner := within room
    ⟨conditional inner, notTest inner, factor inner, factor inner, blockBody inner⟩

/-- The parser of a whole source that nests at most so deep. -/
def rootWithin (room : Nat) : Mode → Parse Root
  | .exec => module (Inner.within room)
  | .eval => expression (Inner.within room)
  | .single => interactive (Inner.within room)

/-- The tokens still to read, wherever they stand. -/
def State.tokens (s : State) : List Token := s.rest.map (·.token)

theorem bind_of_ok {p : Parse α} {f : α → Parse β} {s s' : State} (h : p s = .ok (a, s')) :
    (p >>= f) s = f a s' := by
  change (p s).bind _ = _
  rw [h]
  rfl

theorem bind_of_error {p : Parse α} {f : α → Parse β} {s : State} (h : p s = .error e) :
    (p >>= f) s = .error e := by
  change (p s).bind _ = _
  rw [h]
  rfl

theorem peek?_eq (s : State) : peek? s = .ok (s.tokens.head?, s) := by
  rw [State.tokens, List.head?_map]
  rfl

theorem peekSecond?_eq (s : State) : peekSecond? s = .ok (s.tokens[1]?, s) := by
  rw [State.tokens, List.getElem?_map, ← List.head?_drop]
  rfl

theorem advance_eq {s : State} (h : s.tokens = t :: ts) :
    ∃ span s', advance s = .ok (span, s') ∧ s'.tokens = ts ∧ s'.nodes = s.nodes ∧
      s'.total = s.total := by
  obtain ⟨rest, nodes, last, total, depth⟩ := s
  cases rest with
  | nil => cases h
  | cons first rest =>
    cases h
    exact ⟨first.span, ⟨rest, nodes, last, total, depth⟩, rfl, rfl, rfl, rfl⟩

theorem spanOf_eq (id : NodeId) (s : State) : ∃ span, spanOf id s = .ok (span, s) := ⟨_, rfl⟩

theorem pushBetween_eq (kind : NodeKind) (first last : NodeId) (s : State) :
    ∃ span, pushBetween kind first last s = push kind span s := ⟨_, rfl⟩

/-! ### Reading -/

/-- What a parser came to: something with `Q` before the tokens `after`, or too deep a nesting. -/
def Came (deep : Prop) (s : State) (after : List Token) (Q : Array Node → α → Prop) :
    Except SyntaxError (α × State) → Prop
  | .ok (a, s') => s'.tokens = after ∧ Grows s.nodes s'.nodes ∧ s'.total = s.total ∧ Q s'.nodes a
  | .error e => deep ∧ ∃ what span, e = .invalid (.tooNested what) span

/-- No loop runs out of turns. -/
def State.Bounded (s : State) : Prop := s.tokens.length ≤ s.total

def Reads (deep : Prop) (base : Array Node) (p : Parse α) (ts after : List Token)
    (Q : Array Node → α → Prop) : Prop :=
  ∀ s : State, Grows base s.nodes → s.tokens = ts ++ after → s.Bounded → Came deep s after Q (p s)

variable {deep : Prop} {base : Array Node} {p : Parse α} {f : α → Parse β} {ts ts' after : List Token}
  {Q : Array Node → α → Prop} {R : Array Node → β → Prop}

theorem Came.trans {s s' : State} {r : Except SyntaxError (α × State)} (h : Came deep s' after Q r)
    (more : Grows s.nodes s'.nodes) (total : s'.total = s.total) : Came deep s after Q r := by
  match r with
  | .ok (a, s'') =>
    obtain ⟨passed, grown, same, holds⟩ := h
    exact ⟨passed, more.trans grown, same.trans total, holds⟩
  | .error e => exact h

theorem Reads.bind (first : Reads deep base p ts (ts' ++ after) Q)
    (rest : ∀ a base', Grows base base' → Q base' a → Reads deep base' (f a) ts' after R) :
    Reads deep base (p >>= f) (ts ++ ts') after R := by
  intro s old here bound
  rw [List.append_assoc] at here
  have came := first s old here bound
  match done : p s with
  | .ok (a, s') =>
    rw [done] at came
    obtain ⟨passed, more, total, holds⟩ := came
    rw [bind_of_ok done]
    refine (rest a s'.nodes (old.trans more) holds s' (.refl _) passed ?_).trans more total
    have fewer : s'.tokens.length ≤ s.tokens.length := by simp [here, passed]
    exact fewer.trans (bound.trans (Nat.le_of_eq total.symm))
  | .error e =>
    rw [done] at came
    rw [bind_of_error done]
    exact came

/-- What follows reads no more. -/
theorem Reads.finish (first : Reads deep base p ts after Q)
    (rest : ∀ a base', Grows base base' → Q base' a → Reads deep base' (f a) [] after R) :
    Reads deep base (p >>= f) ts after R := by
  have both : Reads deep base (p >>= f) (ts ++ []) after R := Reads.bind first rest
  rwa [List.append_nil] at both

/-- What follows leaves the tokens and the value alone. -/
theorem Reads.andThen {f : α → Parse α} (first : Reads deep base p ts after Q)
    (rest : ∀ a s, s.tokens = after → f a s = .ok (a, s)) : Reads deep base (p >>= f) ts after Q := by
  intro s old here bound
  have came := first s old here bound
  match done : p s with
  | .ok (a, s') =>
    rw [done] at came
    rw [bind_of_ok done, rest a s' came.1]
    exact came
  | .error e =>
    rw [done] at came
    rw [bind_of_error done]
    exact came

theorem reads_pure {a : α} (h : ∀ nodes, Grows base nodes → Q nodes a) :
    Reads deep base (pure a) [] after Q :=
  fun s old here _ => ⟨here, .refl _, rfl, h s.nodes old⟩

/-- A look at the next token passes nothing. -/
theorem reads_peek {f : Option Token → Parse β} (h : Reads deep base (f (ts ++ after).head?) ts after R) :
    Reads deep base (peek? >>= f) ts after R := by
  intro s old here bound
  rw [bind_of_ok (peek?_eq s), here]
  exact h s old here bound

theorem reads_peekSecond {f : Option Token → Parse β}
    (h : Reads deep base (f (ts ++ after)[1]?) ts after R) :
    Reads deep base (peekSecond? >>= f) ts after R := by
  intro s old here bound
  rw [bind_of_ok (peekSecond?_eq s), here]
  exact h s old here bound

theorem reads_peekSpan {f : Option Span → Parse β} (h : ∀ span, Reads deep base (f span) ts after R) :
    Reads deep base (peekSpan? >>= f) ts after R :=
  fun s old here bound => h _ s old here bound

theorem reads_advance {f : Span → Parse β} (h : ∀ span, Reads deep base (f span) ts after R) :
    Reads deep base (advance >>= f) (t :: ts) after R := by
  intro s old here bound
  obtain ⟨span, s', done, passed, nodes, total⟩ := advance_eq here
  rw [bind_of_ok done]
  have bound' : s'.Bounded := by
    unfold State.Bounded at bound ⊢
    rw [passed, total]
    rw [here] at bound
    exact Nat.le_of_succ_le bound
  exact (h span s' (nodes ▸ old) passed bound').trans (nodes ▸ .refl _) total

theorem reads_expect {f : Span → Parse β} (h : ∀ span, Reads deep base (f span) ts after R) :
    Reads deep base (expect t >>= f) (t :: ts) after R := by
  intro s old here bound
  have seen : expect t s = advance s := by
    unfold expect
    rw [bind_of_ok (peek?_eq s), here]
    exact congrFun (if_pos rfl) s
  change (expect t s).bind _ |> Came deep s after R
  rw [seen]
  exact reads_advance h s old here bound

theorem reads_expectName {id : String} {f : String × Span → Parse β}
    (h : ∀ span, Reads deep base (f (id, span)) ts after R) :
    Reads deep base (expectName >>= f) (.name id :: ts) after R := by
  unfold expectName
  rw [bind_assoc]
  refine reads_peek ?_
  rw [List.cons_append, List.head?_cons, bind_assoc]
  exact reads_advance h

theorem reads_eat {f : Bool → Parse β} (h : Reads deep base (f true) ts after R) :
    Reads deep base (eat t >>= f) (t :: ts) after R := by
  intro s old here bound
  have seen : (eat t >>= f) s = (advance >>= fun _ => f true) s := by
    unfold eat
    rw [bind_assoc, bind_of_ok (peek?_eq s), here, List.cons_append, List.head?_cons, if_pos rfl,
      bind_assoc]
    rfl
  rw [seen]
  exact reads_advance (fun _ => h) s old here bound

theorem reads_eat_not {f : Bool → Parse β} (other : (ts ++ after).head? ≠ some t)
    (h : Reads deep base (f false) ts after R) : Reads deep base (eat t >>= f) ts after R := by
  intro s old here bound
  have seen : eat t s = .ok (false, s) := by
    unfold eat
    rw [bind_of_ok (peek?_eq s), here, if_neg other]
    rfl
  rw [bind_of_ok seen]
  exact h s old here bound

theorem reads_spanOf {id : NodeId} {f : Span → Parse β} (h : ∀ span, Reads deep base (f span) ts after R) :
    Reads deep base (spanOf id >>= f) ts after R := by
  intro s old here bound
  obtain ⟨span, found⟩ := spanOf_eq id s
  rw [bind_of_ok found]
  exact h span s old here bound

theorem reads_push {Q : Array Node → NodeId → Prop}
    (h : ∀ nodes, Grows base nodes → Q (nodes.push ⟨kind, span⟩) nodes.size) :
    Reads deep base (push kind span) [] after Q :=
  fun s old here _ => ⟨here, grows_push _ _, rfl, h s.nodes old⟩

theorem reads_pushBetween {first last : NodeId} {Q : Array Node → NodeId → Prop}
    (h : ∀ nodes span, Grows base nodes → Q (nodes.push ⟨kind, span⟩) nodes.size) :
    Reads deep base (pushBetween kind first last) [] after Q := by
  intro s old here bound
  obtain ⟨span, same⟩ := pushBetween_eq kind first last s
  rw [same]
  exact reads_push (fun nodes => h nodes span) s old here bound

/-! ### Loops -/

/-- The turns of a loop from the state `a` on. -/
def Turns (deep : Prop) (base : Array Node) (step : α → Parse (Option α)) (a : α)
    (ts after : List Token) (Q : Array Node → α → Prop) : Prop :=
  ∀ n (s : State), Grows base s.nodes → s.tokens = ts ++ after → s.Bounded → s.tokens.length < n →
    Came deep s after Q (repeatFrom step n a s)

variable {step : α → Parse (Option α)} {a : α}

theorem reads_iterate (h : Turns deep base step a ts after Q) :
    Reads deep base (iterate step a) ts after Q :=
  fun s old here bound => h (s.total + 1) s old here bound (Nat.lt_succ_of_le bound)

theorem turns_stop (stops : ∀ s, s.tokens = after → step a s = .ok (none, s))
    (h : ∀ nodes, Grows base nodes → Q nodes a) : Turns deep base step a [] after Q := by
  intro n s old here _ enough
  cases n with
  | zero => omega
  | succ n =>
    rw [repeatFrom, bind_of_ok (stops s here)]
    exact ⟨here, .refl _, rfl, h s.nodes old⟩

/-- One turn that passes some tokens, and the others after it. -/
theorem turns_step {P : Array Node → α → Prop} (passes : ts ≠ [])
    (first : Reads deep base (step a) ts (ts' ++ after) fun nodes r => ∃ b, r = some b ∧ P nodes b)
    (rest : ∀ b base', Grows base base' → P base' b → Turns deep base' step b ts' after Q) :
    Turns deep base step a (ts ++ ts') after Q := by
  intro n s old here bound enough
  cases n with
  | zero => omega
  | succ n =>
    rw [List.append_assoc] at here
    have came := first s old here bound
    match done : step a s with
    | .ok (r, s') =>
      rw [done] at came
      obtain ⟨passed, more, total, b, rfl, holds⟩ := came
      have fewer : s'.tokens.length < s.tokens.length := by
        have := List.length_pos_of_ne_nil passes
        simp only [here, passed, List.length_append]
        omega
      rw [repeatFrom, bind_of_ok done]
      have bound' : s'.Bounded := by
        unfold State.Bounded at bound ⊢
        omega
      exact (rest b s'.nodes (old.trans more) holds n s' (.refl _) passed bound'
        (by omega)).trans more total
    | .error e =>
      rw [done] at came
      rw [repeatFrom, bind_of_error done]
      exact came

/-- One turn that passes all tokens, after which the loop stops. -/
theorem turns_last {P : Array Node → α → Prop} (passes : ts ≠ [])
    (first : Reads deep base (step a) ts after fun nodes r => ∃ b, r = some b ∧ P nodes b)
    (rest : ∀ b base', Grows base base' → P base' b → Turns deep base' step b [] after Q) :
    Turns deep base step a ts after Q := by
  have both : Turns deep base step a (ts ++ []) after Q := turns_step passes first rest
  rwa [List.append_nil] at both

/-! ### Items -/

/-- One more item, if the last one was followed by a comma and this is not the end. -/
def itemTurn (closer : Token) (item : List α → Parse α) (read : List α × Bool) :
    Parse (Option (List α × Bool)) := do
  if !read.2 || (← peek?) = some closer then return none
  let items := read.1 ++ [← item read.1]
  return some (items, ← eat (.symbol .comma))

theorem itemsBefore_eq (closer : Token) (item : List α → Parse α) :
    itemsBefore closer item = iterate (itemTurn closer item) ([], true) >>= fun r => pure r.1 := rfl

theorem itemTurn_stop {closer : Token} {item : List α → Parse α} {go : Bool} {s : State}
    (h : go = false ∨ s.tokens.head? = some closer) :
    itemTurn closer item (items, go) s = .ok (none, s) := by
  unfold itemTurn
  rw [bind_of_ok (peek?_eq s)]
  refine congrFun (if_pos ?_) s
  rcases h with rfl | found
  · rfl
  · simp [found]

theorem reads_itemTurn {item : List α → Parse α} {P : Array Node → α → Prop} {closer : Token}
    (mono : ∀ nodes nodes' a, Grows nodes nodes' → P nodes a → P nodes' a)
    (opens : (ts ++ ts' ++ after).head? ≠ some closer)
    (h : Reads deep base (item items) ts (ts' ++ after) P)
    (goes : ts' = [.symbol .comma] ∧ go = true ∨
      ts' = [] ∧ after.head? ≠ some (.symbol .comma) ∧ go = false) :
    Reads deep base (itemTurn closer item (items, true)) (ts ++ ts') after fun nodes r =>
      ∃ b, r = some b ∧ ∃ a, b = (items ++ [a], go) ∧ P nodes a := by
  refine reads_peek ?_
  rw [if_neg (by simpa using opens)]
  refine h.bind fun a base' _ made => ?_
  have done : Reads deep base' (pure (some (items ++ [a], go))) [] after fun nodes r =>
      ∃ b, r = some b ∧ ∃ a, b = (items ++ [a], go) ∧ P nodes a :=
    reads_pure fun nodes more => ⟨_, rfl, a, rfl, mono _ _ a more made⟩
  rcases goes with ⟨rfl, rfl⟩ | ⟨rfl, other, rfl⟩
  · exact reads_eat done
  · exact reads_eat_not other done

/-- The loop has read the items of `past`, and `xs` are left. -/
theorem turns_items {item : List α → Parse α} {tok : β → List Token}
    {P : Array Node → α → β → Prop} {closer : Token} {xs past : List β}
    (mono : ∀ nodes nodes' a b, Grows nodes nodes' → P nodes a b → P nodes' a b)
    (closes : closer ≠ .symbol .comma) (opens : ∀ x ∈ xs, ∃ t rest, tok x = t :: rest ∧ t ≠ closer)
    (each : ∀ x ∈ xs, ∀ items base' t rest, Grows base base' → t = closer ∨ t = .symbol .comma →
      Reads deep base' (item items) (tok x) (t :: rest) (P · · x))
    (done : List.Forall₂ (P base) items past) :
    Turns deep base (itemTurn closer item) (items, true) ([.symbol .comma].intercalate (xs.map tok))
      (closer :: after) fun nodes r => List.Forall₂ (P nodes) r.1 (past ++ xs) := by
  induction xs generalizing base items past with
  | nil =>
    refine turns_stop (fun s here => itemTurn_stop (.inr (by rw [here]; rfl))) fun nodes more => ?_
    rw [List.append_nil]
    exact done.imp fun a b => mono _ _ a b more
  | cons x xs ih =>
    obtain ⟨t, rest, toks, other⟩ := opens x List.mem_cons_self
    have first := each x List.mem_cons_self items base
    have now : ∀ {base' a}, Grows base base' → P base' a x →
        List.Forall₂ (P base') (items ++ [a]) (past ++ [x]) := fun more made =>
      List.rel_append (done.imp fun a b => mono _ _ a b more) (.cons made .nil)
    cases xs with
    | nil =>
      have turn := reads_itemTurn (fun nodes nodes' a => mono nodes nodes' a x)
        (by simpa [toks] using other) (first closer after (.refl _) (.inl rfl))
        (.inr ⟨rfl, by simpa using closes, rfl⟩)
      rw [List.append_nil] at turn
      rw [List.map_singleton, List.intercalate_singleton]
      refine turns_last (by simp [toks]) turn ?_
      rintro _ base' more ⟨a, rfl, made⟩
      exact turns_stop (fun s _ => itemTurn_stop (.inl rfl)) fun nodes more' =>
        (now more made).imp fun a b => mono _ _ a b more'
    | cons y ys =>
      have turn := reads_itemTurn (fun nodes nodes' a => mono nodes nodes' a x)
        (by simpa [toks] using other)
        (first (.symbol .comma) ([.symbol .comma].intercalate ((y :: ys).map tok) ++ closer :: after)
          (.refl _) (.inr rfl))
        (.inl ⟨rfl, rfl⟩)
      rw [List.map_cons, List.map_cons, List.intercalate_cons_cons]
      refine turns_step (by simp [toks]) turn ?_
      rintro _ base' more ⟨a, rfl, made⟩
      have left := ih (fun z mem => opens z (.tail x mem))
        (fun z mem items' base'' t rest more' => each z (.tail x mem) items' base'' t rest
          (more.trans more')) (now more made)
      rwa [List.append_assoc] at left

/-- Items between commas, each of which is read before a comma and before the closing token. -/
theorem reads_itemsBefore {item : List α → Parse α} {tok : β → List Token}
    {P : Array Node → α → β → Prop} {closer : Token} {xs : List β}
    (mono : ∀ nodes nodes' a b, Grows nodes nodes' → P nodes a b → P nodes' a b)
    (closes : closer ≠ .symbol .comma) (opens : ∀ x ∈ xs, ∃ t rest, tok x = t :: rest ∧ t ≠ closer)
    (each : ∀ x ∈ xs, ∀ items base' t rest, Grows base base' → t = closer ∨ t = .symbol .comma →
      Reads deep base' (item items) (tok x) (t :: rest) (P · · x)) :
    Reads deep base (itemsBefore closer item) ([.symbol .comma].intercalate (xs.map tok))
      (closer :: after) fun nodes as => List.Forall₂ (P nodes) as xs := by
  rw [itemsBefore_eq]
  refine (reads_iterate (turns_items mono closes opens each .nil)).finish fun r base' _ made =>
    reads_pure fun nodes more => ?_
  exact made.imp fun a b => mono _ _ a b more

/-! ### Items after a token each -/

def moreTurn (continues : Parse Bool) (item : Parse α) (items : List α) : Parse (Option (List α)) := do
  if ← continues then return some (items ++ [← item]) else return none

theorem more_eq (continues : Parse Bool) (item : Parse α) (items : List α) :
    more continues item items = iterate (moreTurn continues item) items := rfl

theorem turns_more {item : Parse α} {tok : β → List Token} {P : Array Node → α → β → Prop}
    {t : Token} {xs past : List β}
    (mono : ∀ nodes nodes' a b, Grows nodes nodes' → P nodes a b → P nodes' a b)
    (ends : after.head? ≠ some t)
    (each : ∀ x ∈ xs, ∀ base' after', Grows base base' → after' = after ∨ after'.head? = some t →
      Reads deep base' item (tok x) after' (P · · x))
    (done : List.Forall₂ (P base) items past) :
    Turns deep base (moreTurn (eat t) item) items (xs.flatMap fun x => t :: tok x) after
      fun nodes r => List.Forall₂ (P nodes) r (past ++ xs) := by
  induction xs generalizing base items past with
  | nil =>
    refine turns_stop (fun s here => ?_) fun nodes more => ?_
    · have other : eat t s = .ok (false, s) := by
        unfold eat
        rw [bind_of_ok (peek?_eq s), here]
        exact congrFun (if_neg ends) s
      rw [moreTurn, bind_of_ok other]
      rfl
    · rw [List.append_nil]
      exact done.imp fun a b => mono _ _ a b more
  | cons x xs ih =>
    have next : xs.flatMap (fun x => t :: tok x) ++ after = after ∨
        (xs.flatMap (fun x => t :: tok x) ++ after).head? = some t := by
      cases xs with
      | nil => exact .inl rfl
      | cons y ys => exact .inr rfl
    have turn : Reads deep base (moreTurn (eat t) item items) (t :: tok x)
        (xs.flatMap (fun x => t :: tok x) ++ after) fun nodes r =>
          ∃ b, r = some b ∧ ∃ a, b = items ++ [a] ∧ P nodes a x := by
      refine reads_eat ?_
      rw [if_pos rfl]
      refine (each x List.mem_cons_self base _ (.refl _) next).finish fun a base' _ made => ?_
      exact reads_pure fun nodes more => ⟨_, rfl, a, rfl, mono _ _ a x more made⟩
    refine turns_step (by simp) turn ?_
    rintro _ base' more ⟨a, rfl, made⟩
    have left := ih (fun z mem base'' after' more' => each z (.tail x mem) base'' after'
      (more.trans more')) (List.rel_append (done.imp fun a b => mono _ _ a b more) (.cons made .nil))
    rwa [List.append_assoc] at left

end Scratchpad.Parse
