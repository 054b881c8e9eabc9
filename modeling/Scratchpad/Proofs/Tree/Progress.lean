import Scratchpad.Proofs.Tree.Built.Statement

/-!
# How a parser gets on

A parser that counts its levels does what one does that knows how many it may still enter
(`Follows`): it fails where that fails, and else leaves the count as it was. It is never cut short, as
each turn of a loop passes a token and a node is mentioned only by later ones. So every parser comes to
an end, and one that succeeds has passed a token (`parsers_advance`). So too a parser that
may nest further does what one does that may not, unless that refuses to (`Tree.ofTokensWithin_mono`).
-/

namespace Scratchpad

namespace Parse

/-- The levels that are open, and whether more may be opened than by the parser that is followed. -/
structure Allowance where
  depth : Fin (maxNesting + 1)
  spare : Bool

variable {α β : Type} {d : Allowance} {s s' : State} {inner inner' : Inner} {k : α → Bool}

/-- The state with the levels of `d` open. -/
def State.at (s : State) (d : Allowance) : State := { s with depth := d.depth }

/-- Two runs that start at `s` come to the same, the second with the levels of `d` open, and are not cut short.
They pass a token before they give something with `k`. Where the second may nest further, the first may
refuse what it reads. -/
inductive Alike (d : Allowance) (k : α → Bool) (s : State) :
    Except SyntaxError (α × State) → Except SyntaxError (α × State) → Prop
  | ok {a : α} {s' : State} (spent : k a = true → s'.rest.length < s.rest.length := by nofun)
      (later : s'.rest <:+ s.rest := by exact List.suffix_refl _) (total : s'.total = s.total := by rfl) :
      Alike d k s (.ok (a, s')) (.ok (a, s'.at d))
  | error {e : SyntaxError} (proper : ∀ span, e ≠ .invalid .unending span := by simp) :
      Alike d k s (.error e) (.error e)
  | refused (spare : d.spare = true) : Alike d k s (.error (.invalid (.tooNested what) span)) x

def Tracks (d : Allowance) (k : α → Bool) (s : State) (p q : Parse α) : Prop :=
  Alike d k s (q s) (p (s.at d))

/-- The run is not cut short. -/
def Lasts (p : Parse α) (s : State) : Prop := ∀ span, p s ≠ .error (.invalid .unending span)

/-- Parsers track each other wherever they start. Instances follow the way they are put together. -/
class Follows (d : Allowance) (k : α → Bool) (p q : Parse α) : Prop where
  tracks : ∀ s : State, s.Bounded → Tracks d k s p q

/-- No token need be passed. -/
def free (_ : α) : Bool := false

/-- A token is passed in any case. -/
def spends (_ : α) : Bool := true

section Compose

variable {p q : Parse α} {f g : α → Parse β}

theorem Tracks.of_ok (h : Tracks d k s p q) (ok : q s = .ok (a, s')) :
    (k a = true → s'.rest.length < s.rest.length) ∧ s'.rest <:+ s.rest ∧ s'.total = s.total ∧
      p (s.at d) = .ok (a, s'.at d) := by
  rw [Tracks, ok] at h
  generalize p (s.at d) = x at h
  cases h with
  | ok spent later total => exact ⟨spent, later, total, rfl⟩

theorem Tracks.lasts (h : Tracks d k s p q) : Lasts q s ∧ (d.spare = false → Lasts p (s.at d)) := by
  rw [Tracks] at h
  unfold Lasts
  generalize q s = y at h
  generalize p (s.at d) = x at h
  cases h with
  | ok => exact ⟨by simp, by simp⟩
  | error proper => exact ⟨fun span => by simp [proper span], fun _ span => by simp [proper span]⟩
  | refused spare => exact ⟨by simp, by simp [spare]⟩

theorem Tracks.bounded (h : Tracks d k s p q) (ok : q s = .ok (a, s')) (bound : s.Bounded) : s'.Bounded := by
  obtain ⟨-, later, total, -⟩ := h.of_ok ok
  rw [State.Bounded, total]
  exact (later.map _).length_le.trans bound

theorem Tracks.bind {j : α → Bool} {k l : β → Bool} (h : Tracks d j s p q)
    (next : ∀ a s', q s = .ok (a, s') → Tracks d k s' (f a) (g a))
    (either : ∀ a b, l b = true → j a = true ∨ k b = true) : Tracks d l s (p >>= f) (q >>= g) := by
  change Alike d l s ((q s).bind fun r => g r.1 r.2) ((p (s.at d)).bind fun r => f r.1 r.2)
  rw [Tracks] at h
  generalize q s = y at h next
  generalize p (s.at d) = x at h
  cases h with
  | error proper => exact .error proper
  | refused spare => exact .refused spare
  | @ok a s' spent later total =>
    have after : Alike d k s' (g a s') (f a (s'.at d)) := next a s' rfl
    change Alike d l s (g a s') (f a (s'.at d))
    generalize g a s' = y at after
    generalize f a (s'.at d) = x at after
    cases after with
    | error proper => exact .error proper
    | refused spare => exact .refused spare
    | @ok b s'' spent' later' total' =>
      refine .ok (fun asked => ?_) (later'.trans later) (total'.trans total)
      rcases either a b asked with before | behind
      · exact later'.length_le.trans_lt (spent before)
      · exact (spent' behind).trans_le later.length_le

theorem Follows.bind {k : β → Bool} (h : Follows d free p q) (next : ∀ a, Follows d k (f a) (g a)) :
    Follows d k (p >>= f) (q >>= g) :=
  ⟨fun s bound => (h.tracks s bound).bind (fun a s' ok =>
    (next a).tracks s' ((h.tracks s bound).bounded ok bound)) fun _ _ => .inr⟩

instance {k : β → Bool} [Follows d free p q] [∀ a, Follows d k (f a) (g a)] :
    Follows d k (p >>= f) (q >>= g) := .bind inferInstance inferInstance

theorem Tracks.first {k : β → Bool} (h : Tracks d spends s p q) (bound : s.Bounded)
    (next : ∀ a, Follows d free (f a) (g a) := by infer_instance) : Tracks d k s (p >>= f) (q >>= g) :=
  h.bind (fun a s' ok => (next a).tracks s' (h.bounded ok bound)) fun _ _ _ => .inl rfl

theorem Follows.first {k : β → Bool} (h : Follows d spends p q) (next : ∀ a, Follows d free (f a) (g a)) :
    Follows d k (p >>= f) (q >>= g) := ⟨fun s bound => (h.tracks s bound).first bound⟩

instance {k : β → Bool} [Follows d spends p q] [∀ a, Follows d free (f a) (g a)] :
    Follows d k (p >>= f) (q >>= g) := .first inferInstance inferInstance

theorem Tracks.when {j : α → Bool} (h : Tracks d j s p q)
    (spent : ∀ a s', q s = .ok (a, s') → k a = true → s'.rest.length < s.rest.length) : Tracks d k s p q := by
  rw [Tracks] at h ⊢
  generalize q s = y at h spent
  generalize p (s.at d) = x at h
  cases h with
  | error proper => exact .error proper
  | refused spare => exact .refused spare
  | ok _ later total => exact .ok (spent _ _ rfl) later total

instance (priority := low) [h : Follows d spends p q] : Follows d k p q :=
  ⟨fun s bound => (h.tracks s bound).when fun _ _ ok _ => ((h.tracks s bound).of_ok ok).1 rfl⟩

instance {c : Prop} [Decidable c] {p' q' : Parse α} [Follows d k p q] [Follows d k p' q'] :
    Follows d k (if c then p else p') (if c then q else q') := by
  split <;> assumption

end Compose

/-! ### Steps -/

instance (a : α) : Follows d free (pure a : Parse α) (pure a) := ⟨fun _ _ => .ok⟩

instance : Follows d Option.isSome (pure none : Parse (Option α)) (pure none) := ⟨fun _ _ => .ok⟩

instance : Follows d free peek? peek? := ⟨fun _ _ => .ok⟩

instance : Follows d free peekSecond? peekSecond? := ⟨fun _ _ => .ok⟩

instance : Follows d free peekSpan? peekSpan? := ⟨fun _ _ => .ok⟩

instance (x : NodeId) : Follows d free (node? x) (node? x) := ⟨fun _ _ => .ok⟩

instance (x : NodeId) : Follows d free (spanOf x) (spanOf x) := ⟨fun _ _ => .ok⟩

instance : Follows d free (push kind span) (push kind span) := ⟨fun _ _ => .ok⟩

instance : Follows d free (pushBetween kind x y) (pushBetween kind x y) := ⟨fun _ _ => .ok⟩

theorem Follows.fail (proper : v ≠ .unending := by nofun) : Follows d k (fail v span : Parse α) (fail v span) :=
  ⟨fun _ _ => .error (by simp [proper])⟩

instance : Follows d k (unexpected what : Parse α) (unexpected what) := by
  refine ⟨fun ⟨rest, nodes, last, total, depth⟩ _ => ?_⟩
  rcases rest with _ | ⟨⟨t, span⟩, rest⟩
  · exact .error
  · cases t <;> exact .error

instance : Follows d free advance advance := by
  refine ⟨fun ⟨rest, nodes, last, total, depth⟩ _ => ?_⟩
  cases rest with
  | nil => exact .ok
  | cons t rest => exact .ok nofun (List.suffix_cons t rest)

/-- A token that is there is passed. -/
theorem advance_tracks (head : s.tokens.head? = some t) : Tracks d spends s advance advance := by
  obtain ⟨rest, nodes, last, total, depth⟩ := s
  cases rest with
  | nil => cases head
  | cons t rest => exact .ok (fun _ => Nat.lt_succ_self _) (List.suffix_cons t rest)

theorem peek_tracks {f g : Option Token → Parse α}
    (next : ∀ o, s.tokens.head? = o → Tracks d k s (f o) (g o)) :
    Tracks d k s (peek? >>= f) (peek? >>= g) := by
  refine Tracks.bind (j := free) .ok (fun o s' ok => ?_) fun _ _ => .inr
  obtain ⟨rfl, rfl⟩ := peek?_ok ok
  exact next _ rfl

instance : Follows d spends (expect t) (expect t) := by
  refine ⟨fun s bound => peek_tracks fun o head => ?_⟩
  split
  · next found => exact advance_tracks (head.trans found)
  · exact Follows.tracks s bound

instance : Follows d spends expectName expectName := by
  refine ⟨fun s bound => peek_tracks fun o head => ?_⟩
  split
  · exact (advance_tracks head).first bound
  · exact Follows.tracks s bound

instance : Follows d free (eat t) (eat t) := by
  unfold eat
  infer_instance

/-! ### Loops -/

theorem repeatFrom_tracks {step step' : α → Parse (Option α)}
    (turn : ∀ a, Follows d Option.isSome (step a) (step' a)) (bound : s.Bounded)
    (enough : s.rest.length < rounds) :
    Tracks d free s (repeatFrom step rounds a) (repeatFrom step' rounds a) := by
  induction rounds generalizing a s with
  | zero => exact absurd enough (Nat.not_lt_zero _)
  | succ rounds ih =>
    have first := (turn a).tracks s bound
    refine first.bind (k := free) (fun o s' ok => ?_) nofun
    cases o with
    | none => exact .ok
    | some b =>
      have := (first.of_ok ok).1 rfl
      exact ih (first.bounded ok bound) (by omega)

theorem iterate_follows {step step' : α → Parse (Option α)}
    (turn : ∀ a, Follows d Option.isSome (step a) (step' a)) :
    Follows d free (iterate step a) (iterate step' a) := by
  refine ⟨fun s bound => ?_⟩
  have enough : s.rest.length < s.total + 1 := by
    simpa [State.Bounded, State.tokens, Nat.lt_succ_iff] using bound
  exact repeatFrom_tracks turn bound enough

/-- A loop whose first turn passes a token for sure. -/
theorem iterate_tracks {step step' : α → Parse (Option α)}
    (turn : ∀ a, Follows d Option.isSome (step a) (step' a)) (bound : s.Bounded)
    (first : Tracks d spends s (step a) (step' a)) : Tracks d spends s (iterate step a) (iterate step' a) := by
  have all : Tracks d spends s (repeatFrom step (s.total + 1) a) (repeatFrom step' (s.total + 1) a) := by
    refine first.bind (k := free) (fun o s' ok => ?_) fun _ _ _ => .inl rfl
    cases o with
    | none => exact .ok
    | some b =>
      refine repeatFrom_tracks turn (first.bounded ok bound) (((first.of_ok ok).1 rfl).trans_le ?_)
      simpa [State.Bounded, State.tokens] using bound
  exact all

instance {step step' : α → Parse (Option α)} [∀ a, Follows d Option.isSome (step a) (step' a)] :
    Follows d free (iterate step a) (iterate step' a) := iterate_follows inferInstance

instance : Follows d free skipNewlines skipNewlines := by
  refine iterate_follows fun _ => ⟨fun s bound => Tracks.when (j := free) (Follows.tracks s bound)
    fun a s' ok some => ?_⟩
  obtain ⟨b, s₁, ate, ok⟩ := bind_ok ok
  rcases eat_ok ate with ⟨rfl, passes⟩ | ⟨rfl, -⟩
  · obtain ⟨-, rfl⟩ := pure_ok ok
    obtain ⟨span, rest⟩ := passes.rest
    simp [rest]
  · obtain ⟨rfl, -⟩ := pure_ok ok
    cases some

theorem more_follows {asks asks' : Parse Bool} {item item' : Parse α} (_ : Follows d free asks asks')
    [Follows d spends item item'] : Follows d free (more asks item items) (more asks' item' items) := by
  unfold more
  infer_instance

instance {asks asks' : Parse Bool} {item item' : Parse α} [Follows d free asks asks']
    [Follows d spends item item'] : Follows d free (more asks item items) (more asks' item' items) :=
  more_follows inferInstance

instance {item item' : List α → Parse α} [∀ items, Follows d spends (item items) (item' items)] :
    Follows d free (itemsBefore closer item) (itemsBefore closer item') := by
  rw [itemsBefore_eq, itemsBefore_eq]
  refine .bind (iterate_follows fun r => ?_) inferInstance
  unfold itemTurn
  infer_instance

/-! ### Expressions -/

/-- The parsers of the next level follow each other, and what is read there is laid out as it should be. -/
class Inner.Follows (d : Allowance) (inner inner' : Inner) : Prop where
  test : Parse.Follows d spends inner.test inner'.test
  negated : Parse.Follows d spends inner.negated inner'.negated
  signed : Parse.Follows d spends inner.signed inner'.signed
  exponent : Parse.Follows d spends inner.exponent inner'.exponent
  block : Parse.Follows d spends inner.block inner'.block
  shallow : ∃ e, inner'.Shallow e

attribute [instance] Inner.Follows.test Inner.Follows.negated Inner.Follows.signed Inner.Follows.exponent
  Inner.Follows.block

theorem leaf_tracks (head : s.tokens.head? = some t) (bound : s.Bounded) :
    Tracks d spends s (leaf kind) (leaf kind) := (advance_tracks head).first bound

theorem texts_tracks (head : s.tokens.head? = some (.text part)) (bound : s.Bounded) :
    Tracks d spends s texts texts := by
  refine Tracks.bind (j := free) .ok (fun o s' ok => ?_) fun _ _ => .inr
  obtain ⟨-, rfl⟩ := peekSpan?_ok ok
  refine (iterate_tracks (fun _ => ⟨fun s bound => peek_tracks fun o head => ?_⟩) bound
    (peek_tracks fun o here => ?_)).first bound
  · split
    · exact (advance_tracks head).first bound
    · exact Follows.tracks s bound
  · obtain rfl := here.symm.trans head
    exact (advance_tracks head).first bound

section Grammar

variable [within : Inner.Follows d inner inner']

include within

instance : Follows d spends (testList inner) (testList inner') := by
  unfold testList
  infer_instance

instance : Follows d spends (namedTest inner) (namedTest inner') := by
  refine .bind inferInstance fun o => .bind inferInstance fun o' => ?_
  split <;> infer_instance

instance : Follows d spends (parenthesized inner) (parenthesized inner') := by
  unfold parenthesized
  infer_instance

instance : Follows d spends (listDisplay inner) (listDisplay inner') := by
  unfold listDisplay
  infer_instance

instance : Follows d spends (dictPair inner) (dictPair inner') := by
  refine .first inferInstance fun key => .bind inferInstance fun o => ?_
  split
  · exact .bind inferInstance fun span => .bind .fail inferInstance
  · infer_instance

instance : Follows d spends (dictDisplay inner) (dictDisplay inner') := by
  unfold dictDisplay
  infer_instance

instance : Follows d spends (atom inner) (atom inner') := by
  refine ⟨fun s bound => ?_⟩
  unfold atom
  refine peek_tracks fun o head => ?_
  cases o with
  | none => exact Follows.tracks s bound
  | some t =>
    cases t with
    | name | int | float => exact leaf_tracks head bound
    | text => exact texts_tracks head bound
    | keyword word => cases word <;> first | exact leaf_tracks head bound | exact Follows.tracks s bound
    | symbol mark => cases mark <;> exact Follows.tracks s bound
    | _ => exact Follows.tracks s bound

instance : Follows d spends (argument inner) (argument inner') := by
  refine .bind inferInstance fun o => .bind inferInstance fun o' => ?_
  split
  · exact .bind inferInstance fun _ => .fail
  · infer_instance

instance : Follows d Option.isSome (trailer inner x) (trailer inner' x) := by
  refine .bind inferInstance fun o => ?_
  split <;> infer_instance

instance : Follows d spends (primary inner) (primary inner') := by
  unfold primary
  infer_instance

instance : Follows d spends (power inner) (power inner') := by
  unfold power
  infer_instance

instance : Follows d spends (factor inner) (factor inner') := by
  refine .bind inferInstance fun o => ?_
  split <;> infer_instance

instance {operand operand' : Parse NodeId} [Follows d spends operand operand'] :
    Follows d spends (leftChain op? operand) (leftChain op? operand') := by
  refine .first inferInstance fun _ => iterate_follows fun _ => .bind inferInstance fun o => ?_
  split <;> infer_instance

instance : Follows d spends (term inner) (term inner') := by
  unfold term
  infer_instance

instance : Follows d spends (sum inner) (sum inner') := by
  unfold sum
  infer_instance

instance : Follows d Option.isSome (link inner links) (link inner' links) := by
  refine .bind inferInstance fun o => .bind inferInstance fun o' => ?_
  split <;> infer_instance

instance : Follows d spends (comparison inner) (comparison inner') := by
  refine .first inferInstance fun left => .bind inferInstance fun links => ?_
  split <;> infer_instance

instance : Follows d spends (notTest inner) (notTest inner') := by
  unfold notTest
  infer_instance

instance {operand operand' : Parse NodeId} [Follows d spends operand operand'] :
    Follows d spends (wordChain word op operand) (wordChain word op operand') := by
  unfold wordChain
  infer_instance

instance : Follows d spends (andTest inner) (andTest inner') := by
  unfold andTest
  infer_instance

instance : Follows d spends (orTest inner) (orTest inner') := by
  unfold orTest
  infer_instance

instance : Follows d spends (conditional inner) (conditional inner') := by
  unfold conditional
  infer_instance

/-! ### Statements -/

instance : Follows d spends (targetList inner) (targetList inner') := by
  unfold targetList
  infer_instance

omit within in
theorem forM_tracks {check : NodeId → Parse Unit} {ids : List NodeId}
    (each : ∀ x ∈ ids, Tracks d free s (check x) (check x))
    (still : ∀ x ∈ ids, ∀ u s', check x s = .ok (u, s') → s = s') :
    Tracks d free s (ids.forM check) (ids.forM check) := by
  induction ids with
  | nil => exact .ok
  | cons x ids ih =>
    refine (each x List.mem_cons_self).bind (fun u s' ok => ?_) fun _ _ => .inr
    rw [← still x List.mem_cons_self u s' ok]
    exact ih (fun y mem => each y (List.mem_cons_of_mem x mem)) fun y mem => still y (List.mem_cons_of_mem x mem)

omit within in
theorem checkTarget_tracks {x : NodeId} {s₀ : State} {P : Token → Prop} (built : Built P s₀ s ids)
    (new : s₀.nodes.size ≤ x) (there : x < s.nodes.size) (deep : x < depth) :
    Tracks d free s (checkTarget depth x) (checkTarget depth x) := by
  induction depth generalizing x with
  | zero => exact absurd deep (Nat.not_lt_zero x)
  | succ depth ih =>
    have known := Array.getElem?_eq_getElem there
    have display : ∀ elts, (s.nodes[x]).kind.children = elts →
        Tracks d free s (elts.forM (checkTarget depth)) (elts.forM (checkTarget depth)) := by
      rintro elts rfl
      have below (y : NodeId) (mem : y ∈ (s.nodes[x]).kind.children) :
          s₀.nodes.size ≤ y ∧ y < s.nodes.size ∧ y < depth := by
        have earlier := (built.sound x _ new known).earlier y mem
        exact ⟨built.new_child new known mem, earlier.trans there,
          Nat.lt_of_lt_of_le earlier (Nat.le_of_lt_succ deep)⟩
      refine forM_tracks (fun y mem => ?_) fun y mem u s' ok => ?_
      all_goals obtain ⟨new, there, deep⟩ := below y mem
      · exact ih new there deep
      · exact (checkTarget_ok built new there deep ok).1
    refine Tracks.bind (j := free) .ok (fun o s' ok => ?_) fun _ _ => .inr
    cases ok
    rw [known]
    generalize s.nodes[x] = n at display
    obtain ⟨kind, span⟩ := n
    cases kind with
    | name | subscript | «attribute» => exact .ok
    | tuple elts => exact display elts rfl
    | list elts => exact display elts rfl
    | _ => exact .error

omit within in
theorem requireTarget_tracks {x : NodeId} {s₀ : State} {P : Token → Prop} (built : Built P s₀ s ids)
    (mem : x ∈ ids) : Tracks d free s (requireTarget x) (requireTarget x) := by
  have lt := built.lt mem
  exact checkTarget_tracks (d := d) built (built.ge mem) lt (Nat.lt_succ_of_lt lt)

instance : Follows d free (augmented inner x op) (augmented inner' x op) := by
  refine .bind inferInstance fun o => ?_
  split
  · dsimp only
    split
    · exact .bind inferInstance fun _ => .bind .fail inferInstance
    · infer_instance
  · infer_instance

theorem assignment_tracks {first : NodeId} {s₀ : State} (shallow : inner'.Shallow e)
    (before : Given e s₀ first s) (bound : s.Bounded) :
    Tracks d free s (assignment inner first) (assignment inner' first) := by
  have read : Follows d free (more (eat (.symbol .assign)) (testList inner) [first])
    (more (eat (.symbol .assign)) (testList inner') [first]) := inferInstance
  refine (read.tracks s bound).bind (fun chain s₁ ok => ?_) fun _ _ => .inr
  have all := more_given (fun _ _ _ ate => eat_built (t := .symbol .assign) ate trivial)
    (fun _ _ _ => testList_given shallow) before.all ok
  have inside (x : NodeId) (mem : x ∈ chain.dropLast) := List.dropLast_subset _ mem
  have checked := forM_tracks (d := d) (fun x mem => requireTarget_tracks all.built (inside x mem))
    fun x mem u s' ok => (requireTarget_ok all.built (inside x mem) ok).1
  exact checked.bind (k := free) (fun _ _ _ => .ok) fun _ _ => .inr

instance : Follows d spends (expressionStatement inner) (expressionStatement inner') := by
  obtain ⟨e, shallow⟩ := within.shallow
  refine ⟨fun s bound => ?_⟩
  have first : Tracks d spends s (testList inner) (testList inner') := Follows.tracks s bound
  refine first.bind (k := free) (fun x s₁ ok => ?_) fun _ _ _ => .inl rfl
  have bound := first.bounded ok bound
  refine peek_tracks fun o _ => ?_
  split
  · exact Follows.tracks s₁ bound
  · refine peek_tracks fun o _ => ?_
    split
    · exact assignment_tracks shallow (testList_given shallow ok) bound
    · exact Follows.tracks s₁ bound

omit within in
instance : Follows d spends globalStatement globalStatement := by
  unfold globalStatement
  infer_instance

theorem returnStatement_tracks (head : s.tokens.head? = some t) (bound : s.Bounded) :
    Tracks d spends s (returnStatement inner) (returnStatement inner') := by
  refine (advance_tracks head).first bound fun start => .bind inferInstance fun o => ?_
  split <;> infer_instance

instance : Follows d spends (smallStatement inner) (smallStatement inner') := by
  refine ⟨fun s bound => peek_tracks fun o head => ?_⟩
  split
  all_goals first
    | exact leaf_tracks head bound
    | exact returnStatement_tracks head bound
    | exact Follows.tracks s bound

instance : Follows d spends (simpleStatements inner) (simpleStatements inner') := by
  refine .first inferInstance fun first => .bind (more_follows (.bind inferInstance fun b => ?_)) fun ids =>
    .bind inferInstance fun o => ?_
  · split
    · refine .bind inferInstance fun o => ?_
      split <;> infer_instance
    · infer_instance
  · split
    · infer_instance
    · infer_instance
    · exact .bind inferInstance fun _ => .fail

omit within in
instance : Follows d free (endOf body) (endOf body) := by
  unfold endOf
  split <;> infer_instance

instance : Follows d spends (block inner) (block inner') := by
  unfold block
  infer_instance

omit within in
instance : Follows d spends (parameter params) (parameter params) := by
  refine .first inferInstance fun ⟨name, span⟩ => ?_
  dsimp only
  split
  · exact .bind .fail inferInstance
  · infer_instance

instance : Follows d spends (functionDef inner) (functionDef inner') := by
  unfold functionDef
  infer_instance

instance : Follows d spends (branch inner) (branch inner') := by
  unfold branch
  infer_instance

omit within in
instance : Follows d free (pushBranches stop orelse branches) (pushBranches stop orelse branches) := by
  induction branches with
  | nil => exact ⟨fun _ _ => .ok⟩
  | cons b branches ih =>
    unfold pushBranches
    infer_instance

instance : Follows d spends (ifStatement inner) (ifStatement inner') := by
  unfold ifStatement
  infer_instance

instance : Follows d spends (whileStatement inner) (whileStatement inner') := by
  unfold whileStatement
  infer_instance

instance : Follows d spends (forStatement inner) (forStatement inner') := by
  obtain ⟨e, shallow⟩ := within.shallow
  refine .bind inferInstance fun start => ⟨fun s bound => ?_⟩
  have first : Tracks d spends s (targetList inner) (targetList inner') := Follows.tracks s bound
  refine first.bind (k := free) (fun x s₁ ok => ?_) fun _ _ _ => .inl rfl
  have bound := first.bounded ok bound
  have checked := requireTarget_tracks (d := d) (targetList_given shallow ok).built List.mem_cons_self
  exact checked.bind (k := free) (fun _ s₂ ok => Follows.tracks s₂ (checked.bounded ok bound)) fun _ _ => .inr

instance : Follows d spends (statement inner) (statement inner') := by
  refine .bind inferInstance fun o => ?_
  split <;> infer_instance

instance : Follows d Option.isSome (blockItem inner body) (blockItem inner' body) := by
  unfold blockItem
  split
  · infer_instance
  · refine ⟨fun s bound => peek_tracks fun o head => ?_⟩
    split
    · exact (advance_tracks head).first bound
    · exact (advance_tracks head).first bound
    · exact Follows.tracks s bound
    · exact Follows.tracks s bound

instance : Follows d spends (blockBody inner) (blockBody inner') := by
  refine .bind inferInstance fun newline => ?_
  split
  · refine ⟨fun s bound => peek_tracks fun o head => ?_⟩
    split
    · exact Follows.tracks s bound
    · next indented => exact (advance_tracks (head.trans (Classical.not_not.mp indented))).first bound
  · infer_instance

instance : Follows d free (module inner) (module inner') := by
  unfold module
  infer_instance

instance : Follows d free (expression inner) (expression inner') := by
  refine .bind inferInstance fun _ => .bind inferInstance fun o => ?_
  dsimp only
  split
  on_goal 1 => refine .bind inferInstance fun _ => ?_
  all_goals
    refine .bind inferInstance fun body => .bind inferInstance fun _ => .bind inferInstance fun o => ?_
    split
    · exact .bind .fail inferInstance
    · infer_instance

instance : Follows d free (interactive inner) (interactive inner') := by
  refine .bind inferInstance fun _ => .bind inferInstance fun o => ?_
  split
  · infer_instance
  · refine .bind inferInstance fun body => .bind inferInstance fun _ => .bind inferInstance fun o => ?_
    split
    · exact .bind ⟨fun _ _ => .error⟩ inferInstance
    · infer_instance

end Grammar

/-! ### Levels -/

theorem descend_below (lt : s.depth < maxNesting) :
    descend what s = .ok ((), s.at ⟨⟨s.depth + 1, Nat.succ_lt_succ lt⟩, spare⟩) := congrFun (dif_pos lt) s

theorem descend_full (full : s.depth = maxNesting) :
    descend what s = .error (.invalid (.tooNested what) (s.rest.head?.map (·.span))) :=
  congrFun (dif_neg full.not_lt) s

theorem nested_follows {p q : Parse α} (fits : d.depth + 1 < maxNesting + 1)
    (h : Follows ⟨⟨d.depth + 1, fits⟩, d.spare⟩ k p q) : Follows d k (nested what p) q := by
  refine ⟨fun s bound => ?_⟩
  have opened : nested what p (s.at d) = (p (s.at ⟨⟨d.depth + 1, fits⟩, d.spare⟩)).bind fun r =>
      .ok (r.1, { r.2 with depth := ⟨r.2.depth - 1, by omega⟩ }) := by
    rw [nested, bind_of_ok (descend_below (s := s.at d) (Nat.lt_of_succ_lt_succ fits))]
    rfl
  have below := h.tracks s bound
  rw [Tracks] at below ⊢
  rw [opened]
  generalize q s = y at below
  generalize p (s.at ⟨⟨d.depth + 1, fits⟩, d.spare⟩) = x at below
  cases below with
  | error proper => exact .error proper
  | refused spare => exact .refused spare
  | ok spent later total => exact .ok spent later total

theorem nested_refuses {p : Parse α} (full : d.depth = maxNesting) :
    Follows d k (nested what p) (do fail (.tooNested what) (← peekSpan?)) := by
  refine ⟨fun s bound => ?_⟩
  rw [Tracks, nested, bind_of_error (descend_full (s := s.at d) full)]
  exact .error

/-- With enough fuel and the levels of `d` open the parsers are those that may nest as much further as is left. -/
theorem ofFuel_follows (counts : d.depth + room = maxNesting) (enough : room < fuel) :
    Inner.Follows d (.ofFuel fuel) (.within room) := by
  induction room generalizing d fuel with
  | zero =>
    obtain ⟨fuel, rfl⟩ := Nat.exists_eq_succ_of_ne_zero (Nat.ne_zero_of_lt enough)
    exact ⟨nested_refuses counts, nested_refuses counts, nested_refuses counts, nested_refuses counts,
      nested_refuses counts, _, within_shallow 0⟩
  | succ room ih =>
    obtain ⟨fuel, rfl⟩ := Nat.exists_eq_succ_of_ne_zero (Nat.ne_zero_of_lt enough)
    have fits : d.depth + 1 < maxNesting + 1 := by omega
    have below : Inner.Follows ⟨⟨d.depth + 1, fits⟩, d.spare⟩ (.ofFuel fuel) (.within room) :=
      ih (show d.depth + 1 + room = _ by omega) (Nat.lt_of_succ_lt_succ enough)
    exact ⟨nested_follows (q := conditional _) fits inferInstance, nested_follows (q := notTest _) fits inferInstance,
      nested_follows (q := factor _) fits inferInstance, nested_follows (q := factor _) fits inferInstance,
      nested_follows (q := blockBody _) fits inferInstance, _, within_shallow (room + 1)⟩

theorem outermost_follows : Inner.Follows ⟨0, false⟩ (.ofFuel (maxNesting + 1)) (.within maxNesting) :=
  ofFuel_follows (Nat.zero_add _) (Nat.lt_succ_self _)

/-- Parsers with more room do what those with less do, but where these refuse to nest. -/
theorem within_follows (spare : d.spare = true) (le : room ≤ room') :
    Inner.Follows d (.within room') (.within room) := by
  induction room generalizing room' with
  | zero =>
    have refuses {α : Type} {k : α → Bool} {p : Parse α} {what : Nesting} :
        Follows d k p (do fail (.tooNested what) (← peekSpan?)) := ⟨fun _ _ => .refused spare⟩
    exact ⟨refuses, refuses, refuses, refuses, refuses, _, within_shallow 0⟩
  | succ room ih =>
    obtain ⟨room', rfl⟩ := Nat.exists_eq_add_of_le' (Nat.one_le_of_lt le)
    have below : Inner.Follows d (.within room') (.within room) := ih (Nat.le_of_succ_le_succ le)
    change Inner.Follows d ⟨conditional _, notTest _, factor _, factor _, blockBody _⟩
      ⟨conditional _, notTest _, factor _, factor _, blockBody _⟩
    exact ⟨inferInstance, inferInstance, inferInstance, inferInstance, inferInstance, _,
      within_shallow (room + 1)⟩

theorem bounded_ofTokens (tokens : List Token.Placed) : (State.ofTokens tokens).Bounded := (List.length_map _).le

theorem root_tracks (mode : Mode) (tokens : List Token.Placed) :
    Tracks ⟨0, false⟩ free (.ofTokens tokens) (root mode) (rootWithin maxNesting mode) := by
  have levels := outermost_follows
  have bound := bounded_ofTokens tokens
  cases mode with
  | exec => exact Follows.tracks (p := module _) (q := module _) _ bound
  | eval => exact Follows.tracks (p := expression _) (q := expression _) _ bound
  | single => exact Follows.tracks (p := interactive _) (q := interactive _) _ bound

theorem rootWithin_tracks (mode : Mode) (tokens : List Token.Placed) (le : room ≤ room') :
    Tracks ⟨0, true⟩ free (.ofTokens tokens) (rootWithin room' mode) (rootWithin room mode) := by
  have levels : Inner.Follows ⟨0, true⟩ (.within room') (.within room) := within_follows rfl le
  have bound := bounded_ofTokens tokens
  cases mode with
  | exec => exact Follows.tracks (p := module _) (q := module _) _ bound
  | eval => exact Follows.tracks (p := expression _) (q := expression _) _ bound
  | single => exact Follows.tracks (p := interactive _) (q := interactive _) _ bound

/-- Runs that track each other give the same to what comes behind, if that does not mind the count. -/
theorem Tracks.run {p q : Parse α} {f : α × State → Except SyntaxError β} (h : Tracks d k s p q)
    (blind : ∀ a s, f (a, s.at d) = f (a, s)) :
    (p (s.at d)).bind f = (q s).bind f ∨
      d.spare = true ∧ ∃ what span, (q s).bind f = .error (.invalid (.tooNested what) span) := by
  rw [Tracks] at h
  generalize q s = y at h ⊢
  generalize p (s.at d) = x at h ⊢
  cases h with
  | ok => exact .inl (blind _ _)
  | error => exact .inl rfl
  | refused spare => exact .inr ⟨spare, _, _, rfl⟩

end Parse

namespace Tree

/-- The tree of a token list that nests at most so deep. -/
def ofTokensWithin (room : Nat) (mode : Mode) (tokens : List Token.Placed) : Except SyntaxError Tree := do
  let (root, s) ← (Parse.rootWithin room mode).run (.ofTokens tokens)
  return ⟨s.nodes, root⟩

theorem ofTokens_within (mode : Mode) (tokens : List Token.Placed) :
    ofTokens mode tokens = ofTokensWithin Parse.maxNesting mode tokens :=
  ((Parse.root_tracks mode tokens).run fun _ _ => rfl).resolve_right fun h => Bool.noConfusion h.1

/-- With more room a token list is read to the same, unless it was refused because it nests too deep. -/
theorem ofTokensWithin_mono (mode : Mode) (tokens : List Token.Placed) (le : room ≤ room') :
    ofTokensWithin room' mode tokens = ofTokensWithin room mode tokens ∨
      ∃ what span, ofTokensWithin room mode tokens = .error (.invalid (.tooNested what) span) :=
  ((Parse.rootWithin_tracks mode tokens le).run fun _ _ => rfl).imp_right And.right

end Tree

namespace Parse

/-- A run that is not cut short. If it succeeds it has passed a token, and has open what was open before. -/
def Advances (p : Parse α) (s : State) : Prop :=
  Lasts p s ∧ ∀ a s', p s = .ok (a, s') →
    s'.rest <:+ s.rest ∧ s'.rest.length < s.rest.length ∧ s'.depth = s.depth

theorem Tracks.advances {q : Parse α} (h : Tracks ⟨s.depth, false⟩ spends s p q) : Advances p s := by
  refine ⟨h.lasts.2 rfl, fun a s' ok => ?_⟩
  change Alike ⟨s.depth, false⟩ spends s (q s) (p s) at h
  rw [ok] at h
  generalize q s = y at h
  cases h with
  | ok spent later => exact ⟨later, spent rfl, rfl⟩
  | refused spare => cases spare

/-- The parsers that read an expression, or a statement with one node. -/
def nodeParsers (inner : Inner) : List (Parse NodeId) :=
  [inner.test, inner.negated, inner.signed, inner.exponent, testList inner, namedTest inner,
    parenthesized inner, listDisplay inner, dictDisplay inner, atom inner, argument inner, primary inner,
    power inner, factor inner, term inner, sum inner, comparison inner, notTest inner, andTest inner,
    orTest inner, conditional inner, targetList inner, expressionStatement inner, globalStatement,
    smallStatement inner, functionDef inner, whileStatement inner, forStatement inner]

/-- The parsers that read statements. -/
def statementParsers (inner : Inner) : List (Parse (List NodeId)) :=
  [inner.block, blockBody inner, simpleStatements inner, ifStatement inner, statement inner]

/-- Whatever the tokens are, no parser is cut short. Where a parser of expressions or statements succeeds it
has passed a token and closed the levels that it opened. Where as many are open as there may be, no more are
opened. -/
theorem parsers_advance :
    (∀ mode tokens span, Tree.ofTokens mode tokens ≠ .error (.invalid .unending span)) ∧
    (∀ fuel (s : State), s.Bounded → maxNesting < s.depth + fuel →
      (∀ p ∈ nodeParsers (.ofFuel fuel), Advances p s) ∧
      (∀ p ∈ statementParsers (.ofFuel fuel), Advances p s) ∧
      Advances (block (.ofFuel fuel)) s ∧ Advances (dictPair (.ofFuel fuel)) s ∧
      (s.rest ≠ [] → Advances (returnStatement (.ofFuel fuel)) s) ∧
      (∀ part, s.tokens.head? = some (.text part) → Advances texts s)) ∧
    ∀ (s : State) (what : Nesting), s.depth ≤ maxNesting ∧
      (s.depth = maxNesting → ∀ (α : Type) (p : Parse α), ∃ span,
        nested what p s = .error (.invalid (.tooNested what) span)) := by
  refine ⟨fun mode tokens span cut => ?_, fun fuel s bound enough => ?_, fun s what => ⟨s.depth.is_le, ?_⟩⟩
  · have lasts := (root_tracks mode tokens).lasts.2 rfl
    rw [Tree.ofTokens, StateT.run] at cut
    cases run : root mode (.ofTokens tokens) with
    | ok r =>
      rw [run] at cut
      cases cut
    | error e =>
      rw [run] at cut
      cases cut
      exact lasts span run
  · obtain ⟨below, levels⟩ : ∃ below, Inner.Follows ⟨s.depth, false⟩ (.ofFuel fuel) below :=
      ⟨.within (maxNesting - s.depth), ofFuel_follows (show s.depth + (maxNesting - s.depth) = _ by omega) (by omega)⟩
    have single {α : Type} (p q : Parse α) [h : Follows ⟨s.depth, false⟩ spends p q] : Advances p s :=
      (h.tracks s bound).advances
    have all {α : Type} {l m : List (Parse α)} (h : List.Forall₂ (Follows ⟨s.depth, false⟩ spends) l m) (p : Parse α)
        (mem : p ∈ l) : Advances p s := by
      induction h with
      | nil => cases mem
      | @cons p q _ _ first _ ih =>
        cases mem with
        | head => exact single p q
        | tail _ mem => exact ih mem
    refine ⟨all (m := nodeParsers below) ?_, all (m := statementParsers below) ?_, single _ (block below),
      single _ (dictPair below), fun left => ?_, fun part head => (texts_tracks head bound).advances⟩
    iterate 2
      · repeat refine .cons inferInstance ?_
        exact .nil
    · obtain ⟨t, rest, there⟩ := List.exists_cons_of_ne_nil left
      have head : s.tokens.head? = some t.token := by
        rw [State.tokens, there]
        rfl
      exact Tracks.advances (q := returnStatement below) (returnStatement_tracks head bound)
  · intro full α p
    exact ⟨_, bind_of_error (descend_full full)⟩

theorem parsers_advance_stray :
    let tokens : List Token.Placed :=
      [⟨.keyword .passKw, {}⟩, ⟨.newline, {}⟩, ⟨.dedent, {}⟩, ⟨.symbol .rightParen, {}⟩]
    (∀ mode span, Tree.ofTokens mode tokens ≠ .error (.invalid .unending span)) ∧
      (statement (.ofFuel (maxNesting + 1)) (.ofTokens tokens)).isOk = true ∧
      Advances (statement (.ofFuel (maxNesting + 1))) (.ofTokens tokens) := by
  refine ⟨fun mode => parsers_advance.1 mode _, by decide +kernel, ?_⟩
  refine (parsers_advance.2.1 (maxNesting + 1) _ (bounded_ofTokens _) (by decide)).2.1 _ ?_
  simp [statementParsers]

end Parse

end Scratchpad
