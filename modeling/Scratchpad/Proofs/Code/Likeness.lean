import Scratchpad.Proofs.Code.Failures
import Scratchpad.Proofs.Code.Order
import Scratchpad.Proofs.Code.Spans

/-!
# Lowering in two trees

Lowering looks at nodes only through their kinds, their places and the nodes below. So it does the same
with nodes that are alike in two trees (`expression_follows`, `statement_follows`). How much is the same is
said by a `Likeness`: that there is code at all, the code but for the places, or all with the errors.
-/

namespace Scratchpad

@[simp] theorem NodeKind.describe_rename (ρ : NodeId → NodeId) (kind : NodeKind) :
    (kind.rename ρ).describe = kind.describe := by
  cases kind <;> rfl

namespace Lower

def Item.mapSpan (σ : Span → Span) : Item → Item
  | .op i span => .op i (σ span)
  | .leave span => .leave (σ span)

def Segment.mapSpans (σ : Span → Span) (s : Segment) : Segment := s.map (Item.mapSpan σ)

def Tables.mapSpans (σ : Span → Span) (t : Tables) : Tables :=
  { t with constants := t.constants.map (·.mapSpans σ) }

section

variable {σ : Span → Span}

theorem Tables.mapSpans_empty : mapSpans σ {} = {} := by simp [mapSpans]

theorem close_map (stop : Nat) (s : Segment) :
    close stop (s.map (Item.mapSpan σ)) = (close stop s).map (Item.mapSpan σ) := by
  simp only [close, List.map_map]
  refine List.map_congr_left fun item _ => ?_
  cases item <;> rfl

theorem sameAs_mapSpans (k k' : Constant) : (k.mapSpans σ).sameAs (k'.mapSpans σ) = k.sameAs k' := by
  cases k <;> cases k' <;> simp [Constant.mapSpans, Constant.sameAs]

end

attribute [local simp] Item.mapSpan Segment.mapSpans

/-- What two runs of lowering have in common. Where the first succeeds, so does the second: with the
same code but for the places, if `exact`, and with the same errors, if `strict`. -/
structure Likeness where
  exact : Prop
  strict : Prop
  move : Span → Span
  plain : strict → exact ∧ move = id

/-- How the places of the two go together. -/
abbrev Likeness.places (k : Likeness) (span span' : Span) : Prop := k.exact → span' = k.move span

theorem Likeness.same {k : Likeness} {span span' : Span} (here : k.exact → span' = k.move span)
    (strict : k.strict) : span' = span := by
  obtain ⟨exact, still⟩ := k.plain strict
  rw [here exact, still, id]

/-- `y` ends as `x` does, with `V` for the results. -/
structure Matches (k : Likeness) (V : α → β → Prop) (x : Except SyntaxError α) (y : Except SyntaxError β) :
    Prop where
  ok : ∀ {a}, x = .ok a → ∃ b, y = .ok b ∧ V a b
  error : k.strict → ∀ {e}, x = .error e → y = .error e

/-- `y` does as `x` does, with `V` for the results, if it starts with the same tables. -/
def Follows (k : Likeness) (V : α → β → Prop) (x : Lower α) (y : Lower β) : Prop :=
  ∀ t u, (k.exact → u = t.mapSpans k.move) →
    Matches k (fun r r' => V r.1 r'.1 ∧ (k.exact → r'.2 = r.2.mapSpans k.move)) (x t) (y u)

/-- `y` lowers to the segment that `x` does. -/
abbrev Repeats (k : Likeness) (x y : Lower Segment) : Prop :=
  Follows k (fun s s' => k.exact → s' = s.mapSpans k.move) x y

section

variable {k : Likeness}

theorem matches_ok {V : α → β → Prop} (h : V a b) : Matches k V (.ok a) (.ok b) where
  ok := by
    rintro _ ⟨⟩
    exact ⟨b, rfl, h⟩
  error _ := by
    rintro _ ⟨⟩

theorem matches_error {V : α → β → Prop} {y : Except SyntaxError β} (h : k.strict → y = .error e) :
    Matches k V (.error e) y where
  ok := by
    rintro _ ⟨⟩
  error strict := by
    rintro _ ⟨⟩
    exact h strict

theorem Matches.bind {V : α → β → Prop} {W : γ → δ → Prop} {x : Except SyntaxError α}
    {y : Except SyntaxError β} {f : α → Except SyntaxError γ} {g : β → Except SyntaxError δ}
    (first : Matches k V x y) (rest : ∀ a b, V a b → Matches k W (f a) (g b)) :
    Matches k W (x >>= f) (y >>= g) := by
  cases made : x with
  | error e =>
    refine matches_error fun strict => ?_
    rw [first.error strict made]
    rfl
  | ok a =>
    obtain ⟨b, made', both⟩ := first.ok made
    rw [made']
    exact rest a b both

theorem follows_pure {V : α → β → Prop} (h : V a b) : Follows k V (pure a) (pure b) :=
  fun _ _ same => matches_ok ⟨h, same⟩

theorem follows_fail {V : α → β → Prop} {y : Lower β} (h : k.strict → y = fail violation span) :
    Follows k V (fail violation span) y :=
  fun _ _ _ => matches_error fun strict => by rw [h strict]; rfl

theorem Follows.bind {V : α → β → Prop} {W : γ → δ → Prop} {x : Lower α} {y : Lower β} {f : α → Lower γ}
    {g : β → Lower δ} (first : Follows k V x y) (rest : ∀ a b, V a b → Follows k W (f a) (g b)) :
    Follows k W (x >>= f) (y >>= g) :=
  fun t u same => (first t u same).bind fun r r' both => rest r.1 r'.1 both.1 r.2 r'.2 both.2

theorem Follows.give {V : α → β → Prop} {W : γ → δ → Prop} {x : Lower α} {y : Lower β} {f : α → γ}
    {g : β → δ} (h : Follows k V x y) (rest : ∀ a b, V a b → W (f a) (g b)) :
    Follows k W (x >>= fun a => pure (f a)) (y >>= fun b => pure (g b)) :=
  h.bind fun a b both => follows_pure (rest a b both)

/-- One instruction more at the end. -/
theorem Follows.op {x y : Lower Segment} {span span' : Span} (h : Repeats k x y)
    (here : k.exact → span' = k.move span) (i : Instr) :
    Repeats k (x >>= fun s => pure (s ++ [.op i span])) (y >>= fun s => pure (s ++ [.op i span'])) :=
  h.give fun s s' made exact => by simp [here exact, made exact]

theorem follows_guard {V : α → β → Prop} {b : Bool} {x : Lower α} {y : Lower β} {span span' : Span}
    (here : k.exact → span' = k.move span) (h : Follows k V x y) :
    Follows k V (if b then (fail violation span : Lower PUnit) >>= fun _ => x else x)
      (if b then (fail violation span' : Lower PUnit) >>= fun _ => y else y) := by
  cases b with
  | true => exact follows_fail fun strict => by rw [k.same here strict]; rfl
  | false => exact h

theorem Matches.lift {V : α → β → Prop} {x : Except SyntaxError α} {y : Except SyntaxError β}
    (h : Matches k V x y) : Follows k V (x : Lower α) (y : Lower β) :=
  fun _ _ same => h.bind fun _ _ both => matches_ok ⟨both, same⟩

/-! ### Tables -/

theorem constant_eq (κ : Constant) (t : Tables) :
    constant κ t = .ok (match t.constants.findIdx? (·.sameAs κ) with
      | some i => (i, t)
      | none => (t.constants.size, { t with constants := t.constants.push κ })) := by
  change (match t.constants.findIdx? (·.sameAs κ) with | some i => _ | none => _ : Lower Nat) t = _
  cases t.constants.findIdx? (·.sameAs κ) <;> rfl

theorem nameIndex_eq (name : String) (t : Tables) :
    nameIndex name t = .ok (match t.names.findIdx? (· = name) with
      | some i => (i, t)
      | none => (t.names.size, { t with names := t.names.push name })) := by
  change (match t.names.findIdx? (· = name) with | some i => _ | none => _ : Lower Nat) t = _
  cases t.names.findIdx? (· = name) <;> rfl

theorem follows_constant {κ κ' : Constant} (moved : k.exact → κ' = κ.mapSpans k.move) :
    Follows k (fun i j => k.exact → j = i) (constant κ) (constant κ') := by
  intro t u same
  rw [constant_eq, constant_eq]
  have found (exact : k.exact) : u.constants.findIdx? (·.sameAs κ') = t.constants.findIdx? (·.sameAs κ) := by
    simp [same exact, moved exact, Tables.mapSpans, Array.findIdx?_map, Function.comp_def, sameAs_mapSpans]
  refine matches_ok ⟨fun exact => ?_, fun exact => ?_⟩
  · rw [found exact, same exact]
    cases t.constants.findIdx? (·.sameAs κ) <;> simp [Tables.mapSpans]
  · rw [found exact, same exact, moved exact]
    cases t.constants.findIdx? (·.sameAs κ) <;> simp [Tables.mapSpans, Array.map_push]

theorem follows_nameIndex (name : String) :
    Follows k (fun i j => k.exact → j = i) (nameIndex name) (nameIndex name) := by
  intro t u same
  rw [nameIndex_eq, nameIndex_eq]
  refine matches_ok ⟨fun exact => ?_, fun exact => ?_⟩
  · rw [same exact, Tables.mapSpans]
    cases t.names.findIdx? (· = name) <;> rfl
  · rw [same exact, Tables.mapSpans]
    cases t.names.findIdx? (· = name) <;> rfl

variable {N : NodeId → NodeId → Prop} {c c' : Context} {ρ ρ' : NodeId → NodeId} {span span' : Span}
  {pos pos' : Nat} (here : k.exact → span' = k.move span)

include here in
theorem follows_loadLiteral (l : Literal) : Repeats k (loadLiteral span l) (loadLiteral span' l) :=
  (follows_constant fun _ => rfl).give fun i j same exact => by simp [same exact, here exact]

section

variable (names : c'.locals = c.locals)

include names here

theorem follows_loadName (name : String) : Repeats k (loadName c span name) (loadName c' span' name) := by
  unfold loadName
  rw [names]
  split
  · exact follows_pure fun exact => by simp [here exact]
  · exact (follows_nameIndex name).give fun i j same exact => by simp [same exact, here exact]

theorem follows_storeName (name : String) : Repeats k (storeName c span name) (storeName c' span' name) := by
  unfold storeName
  rw [names]
  split
  · exact follows_pure fun exact => by simp [here exact]
  · exact (follows_nameIndex name).give fun i j same exact => by simp [same exact, here exact]

end

/-! ### Expressions -/

theorem sequence_follows {lower lower' : Nat → NodeId → Lower Segment} {ρ ρ' : γ → NodeId} (ids : List γ)
    (h : ∀ x ∈ ids, ∀ ⦃pos pos'⦄, (k.exact → pos' = pos) → Repeats k (lower pos (ρ x)) (lower' pos' (ρ' x)))
    (start : k.exact → pos' = pos) :
    Repeats k (sequence lower pos (ids.map ρ)) (sequence lower' pos' (ids.map ρ')) := by
  induction ids generalizing pos pos' with
  | nil => exact follows_pure fun _ => rfl
  | cons a as ih =>
    obtain ⟨first, rest⟩ := List.forall_mem_cons.mp h
    exact (first start).bind fun s s' made =>
      (ih rest fun exact => by simp [start exact, made exact]).give fun o o' made' exact => by
        simp [made exact, made' exact]

/-- `e'` lowers a node as `e` does one that `N` relates it to. -/
def ExprFollows (k : Likeness) (N : NodeId → NodeId → Prop) (e e' : Expr) : Prop :=
  ∀ ⦃x x'⦄, N x x' → ∀ span span' ⦃pos pos'⦄, (k.exact → pos' = pos) →
    Repeats k (e span pos x) (e' span' pos' x')

section

variable {e e' : Expr} (h : ExprFollows k N e e')

include h here

theorem boolChain_follows (jump : Nat → Instr) {ids : List NodeId} (all : ∀ x ∈ ids, N (ρ x) (ρ' x))
    (start : k.exact → pos' = pos) :
    Repeats k (boolChain e span jump pos (ids.map ρ)) (boolChain e' span' jump pos' (ids.map ρ')) := by
  induction ids generalizing pos pos' with
  | nil => exact follows_pure fun _ => rfl
  | cons a as ih =>
    obtain ⟨first, rest⟩ := List.forall_mem_cons.mp all
    cases as with
    | nil => exact h first span span' start
    | cons b as =>
      exact (h first span span' start).bind fun s s' made =>
        (ih rest fun exact => by simp [start exact, made exact]).give fun o o' made' exact => by
          simp [start exact, here exact, made exact, made' exact]

theorem links_follows {chain : List (CompareOp × NodeId)} (all : ∀ l ∈ chain, N (ρ l.2) (ρ' l.2))
    (start : k.exact → pos' = pos) :
    Repeats k (links e span pos (chain.map fun l => (l.1, ρ l.2)))
      (links e' span' pos' (chain.map fun l => (l.1, ρ' l.2))) := by
  induction chain generalizing pos pos' with
  | nil => exact follows_pure fun _ => rfl
  | cons l ls ih =>
    obtain ⟨op, right⟩ := l
    obtain ⟨first, rest⟩ := List.forall_mem_cons.mp all
    cases ls with
    | nil =>
      exact (h first span span' start).op here _
    | cons l ls =>
      exact (h first span span' start).bind fun s s' made =>
        (ih rest fun exact => by simp [start exact, made exact]).give fun o o' made' exact => by
          simp [start exact, here exact, made exact, made' exact]

theorem comparison_follows {left : NodeId} {chain : List (CompareOp × NodeId)} (first : N (ρ left) (ρ' left))
    (all : ∀ l ∈ chain, N (ρ l.2) (ρ' l.2)) (start : k.exact → pos' = pos) :
    Repeats k (comparison e span pos (ρ left) (chain.map fun l => (l.1, ρ l.2)))
      (comparison e' span' pos' (ρ' left) (chain.map fun l => (l.1, ρ' l.2))) := by
  refine (h first span span' start).bind fun s s' made => ?_
  refine (links_follows here h all fun exact => by simp [start exact, made exact]).bind fun o o' made' => ?_
  rw [List.length_map, List.length_map]
  split
  · exact follows_pure fun exact => by simp [made exact, made' exact]
  · exact follows_pure fun exact => by simp [start exact, here exact, made exact, made' exact]

theorem operand_follows (names : c'.locals = c.locals) {kind : NodeKind}
    (all : ∀ x ∈ kind.children, N (ρ x) (ρ' x)) (start : k.exact → pos' = pos) :
    Repeats k (operand c e span pos (kind.rename ρ)) (operand c' e' span' pos' (kind.rename ρ')) := by
  have one {x : NodeId} (mem : x ∈ kind.children) ⦃pos pos' : Nat⦄ (start : k.exact → pos' = pos) :=
    h (all x mem) span span' start
  cases kind with
  | literal l => exact follows_loadLiteral here l
  | name name => exact follows_loadName here names name
  | unary op arg =>
    exact (one List.mem_cons_self start).op here _
  | boolean op values =>
    simp only [NodeKind.rename, operand, List.isEmpty_map]
    exact follows_guard here (boolChain_follows here h _ all start)
  | compare left ops comparators =>
    obtain ⟨first, rest⟩ := List.forall_mem_cons.mp all
    simp only [NodeKind.rename, operand, List.length_map]
    refine follows_guard here ?_
    rw [List.zip_map_right, List.zip_map_right]
    exact comparison_follows here h first (fun l mem => rest l.2 (List.of_mem_zip mem).2) start
  | conditional test body orelse =>
    refine (one (by simp [NodeKind.children]) start).bind fun s s' made => ?_
    refine (one (by simp [NodeKind.children]) fun exact => by simp [start exact, made exact]).bind
      fun o o' made' => ?_
    refine (one (by simp [NodeKind.children]) fun exact => ?_).give fun q q' made'' exact => ?_
    · simp [start exact, made exact, made' exact]
    · simp [start exact, here exact, made exact, made' exact, made'' exact]
  | named target value =>
    exact (one List.mem_cons_self start).bind fun s s' made =>
      (follows_storeName here names target).give fun o o' made' exact => by
        simp [here exact, made exact, made' exact]
  | list elts | tuple elts =>
    simp only [NodeKind.rename, operand, List.length_map]
    exact (sequence_follows elts (fun x mem => one mem) start).op here _
  | dict keys values =>
    simp only [NodeKind.rename, operand, List.length_map, pairs_map]
    exact follows_guard here ((sequence_follows _ (fun x mem => one mem) start).op here _)
  | _ => exact follows_fail fun strict => by rw [k.same here strict]; rfl

theorem operation_follows {kind : NodeKind} (all : ∀ x ∈ kind.children, N (ρ x) (ρ' x))
    (start : k.exact → pos' = pos) :
    Repeats k (operation e span pos (kind.rename ρ)) (operation e' span' pos' (kind.rename ρ')) := by
  have one {x : NodeId} (mem : x ∈ kind.children) ⦃pos pos' : Nat⦄ (start : k.exact → pos' = pos) :=
    h (all x mem) span span' start
  cases kind with
  | binary left op right =>
    exact (one (List.mem_cons_of_mem _ List.mem_cons_self) start).op here _
  | call func args =>
    simp only [NodeKind.rename, operation, List.length_map]
    exact (sequence_follows args (fun x mem => one (List.mem_cons_of_mem _ mem)) start).op here _
  | «attribute» value attr =>
    exact (follows_nameIndex attr).give fun i j same exact => by simp [here exact, same exact]
  | subscript value index =>
    exact (one (List.mem_cons_of_mem _ List.mem_cons_self) start).op here _
  | _ => exact follows_fail fun strict => by rw [k.same here strict]; rfl

end

theorem foldlM_follows {e e' : Expr} (h : ExprFollows k N e e') {ns ns' : List Node}
    (all : List.Forall₂ (Node.Alike k.places N) ns ns') (start : k.exact → pos' = pos) {done done' : Segment}
    (same : k.exact → done' = done.mapSpans k.move) :
    Repeats k
      (ns.foldlM (fun done n => return done ++ (← operation e n.span (pos + done.length) n.kind)) done)
      (ns'.foldlM (fun done n => return done ++ (← operation e' n.span (pos' + done.length) n.kind)) done') := by
  induction all generalizing done done' with
  | nil => exact follows_pure same
  | cons first _ ih =>
    obtain ⟨kind, place, place', ρ, ρ', rfl, rfl, here, below⟩ := first
    rw [List.foldlM_cons, List.foldlM_cons, bind_assoc, bind_assoc]
    refine (operation_follows here h below fun exact => by simp [start exact, same exact]).bind
      fun s s' made => ?_
    rw [pure_bind, pure_bind]
    exact ih fun exact => by simp [same exact, made exact]

theorem leftOperand?_rename (kind : NodeKind) :
    leftOperand? (kind.rename ρ) = (leftOperand? kind).map ρ := by
  cases kind <;> rfl

theorem mem_of_leftOperand? {kind : NodeKind} {left : NodeId} (h : leftOperand? kind = some left) :
    left ∈ kind.children := by
  cases kind <;> cases h <;> exact List.mem_cons_self

/-- Nodes of the two trees that are alike, no deeper than the trees have nodes. -/
def Likeness.Like (k : Likeness) (t t' : Tree) (x x' : NodeId) : Prop :=
  ∃ d, d ≤ t.size ∧ d ≤ t'.size ∧ t.Alike k.places t' d x x'

theorem Likeness.like {t t' : Tree} {x x' : NodeId} (alike : t.Alike k.places t' d x x') : k.Like t t' x x' :=
  ⟨_, Nat.min_le_left _ _, Nat.min_le_right _ _, alike.least⟩

theorem node_of_get? {id : NodeId} (found : c.tree.get? id = some n) (span : Span) :
    node c span id = pure n := by
  rw [node, found]

theorem Likeness.Like.node {x x' : NodeId} (alike : k.Like c.tree c'.tree x x') :
    ∃ n n', (∀ span, Lower.node c span x = pure n) ∧ (∀ span, Lower.node c' span x' = pure n') ∧
      Node.Alike k.places (k.Like c.tree c'.tree) n n' := by
  obtain ⟨d, le, le', alike⟩ := alike
  cases d with
  | zero => exact alike.elim
  | succ d =>
    obtain ⟨n, n', found, found', kind, span, span', ρ, ρ', rfl, rfl, here, below⟩ := alike
    exact ⟨_, _, node_of_get? found, node_of_get? found', kind, span, span', ρ, ρ', rfl, rfl, here,
      fun y mem => ⟨d, by omega, by omega, below y mem⟩⟩

/-- Going down the left operands never fails, and leads to nodes alike. -/
theorem spine_follows (span span' : Span) {n n' : Node} {outer outer' : List Node} {d room room' : Nat}
    (alike : Node.Alike k.places (c.tree.Alike k.places c'.tree d) n n')
    (above : List.Forall₂ (Node.Alike k.places (k.Like c.tree c'.tree)) outer outer')
    (le : d ≤ c.tree.size) (le' : d ≤ c'.tree.size) (enough : d ≤ room) (enough' : d ≤ room') :
    ∃ p p', spine c span outer room n = pure p ∧ spine c' span' outer' room' n' = pure p' ∧
      Node.Alike k.places (k.Like c.tree c'.tree) p.1 p'.1 ∧
      List.Forall₂ (Node.Alike k.places (k.Like c.tree c'.tree)) p.2 p'.2 := by
  induction d using Nat.strongRecOn generalizing n n' outer outer' room room' with
  | ind d ih =>
    obtain ⟨kind, place, place', ρ, ρ', rfl, rfl, here, below⟩ := alike
    have head : Node.Alike k.places (k.Like c.tree c'.tree) ⟨kind.rename ρ, place⟩ ⟨kind.rename ρ', place'⟩ :=
      ⟨kind, place, place', ρ, ρ', rfl, rfl, here, fun y mem => ⟨d, le, le', below y mem⟩⟩
    unfold spine
    rw [leftOperand?_rename, leftOperand?_rename]
    cases left : leftOperand? kind with
    | none => exact ⟨_, _, rfl, rfl, head, above⟩
    | some y =>
      have down := below y (mem_of_leftOperand? left)
      cases d with
      | zero => exact down.elim
      | succ d =>
        obtain ⟨room, rfl⟩ : ∃ r, room = r + 1 := ⟨room - 1, by omega⟩
        obtain ⟨room', rfl⟩ : ∃ r, room' = r + 1 := ⟨room' - 1, by omega⟩
        obtain ⟨m, m', found, found', alike⟩ := down
        have walked := ih d (Nat.lt_succ_self d) alike (.cons head above) (Nat.le_of_succ_le le)
          (Nat.le_of_succ_le le') (Nat.le_of_succ_le_succ enough) (Nat.le_of_succ_le_succ enough')
        simpa only [Option.map_some, node_of_get? found, node_of_get? found', pure_bind] using walked

section

variable (names : c'.locals = c.locals) {room room' : Nat} (le : room ≤ room')
  (same : k.strict → room' = room)

include names le same

theorem expression_follows :
    ExprFollows k (k.Like c.tree c'.tree) (expression c room) (expression c' room') := by
  induction room using Nat.strongRecOn generalizing room' with
  | ind room ih =>
    rintro x x' ⟨d, most, most', alike⟩ span span' pos pos' start
    obtain ⟨d, rfl⟩ : ∃ r, d = r + 1 := by
      cases d with
      | zero => exact alike.elim
      | succ d => exact ⟨d, rfl⟩
    obtain ⟨n, n', found, found', alike⟩ := alike
    have most := Nat.le_of_succ_le most
    have most' := Nat.le_of_succ_le most'
    obtain ⟨⟨_, others⟩, ⟨_, others'⟩, walked, walked', head, outer⟩ :=
      spine_follows span span' alike .nil most most' most most'
    obtain ⟨kind, place, place', ρ, ρ', rfl, rfl, here, below⟩ := head
    unfold expression
    rw [node_of_get? found, node_of_get? found', pure_bind, pure_bind, walked, walked', pure_bind, pure_bind]
    cases room with
    | zero => exact follows_fail fun strict => by rw [k.same here strict, same strict]
    | succ room =>
      obtain ⟨room', rfl⟩ : ∃ r, room' = r + 1 := ⟨room' - 1, by omega⟩
      have inner := ih room (Nat.lt_succ_self room) (Nat.le_of_succ_le_succ le) fun strict =>
        Nat.succ.inj (same strict)
      exact (operand_follows here inner names below start).bind fun s s' made =>
        foldlM_follows inner outer start made

/-! ### Targets -/

theorem store_follows : ExprFollows k (k.Like c.tree c'.tree) (store c room) (store c' room') := by
  induction room using Nat.strongRecOn generalizing room' with
  | ind room ih =>
    intro x x' alike span span' pos pos' start
    obtain ⟨_, _, found, found', kind, place, place', ρ, ρ', rfl, rfl, here, below⟩ := alike.node
    unfold store
    rw [found, found', pure_bind, pure_bind]
    cases room with
    | zero => exact follows_fail fun strict => by rw [k.same here strict, same strict]
    | succ room =>
      obtain ⟨room', rfl⟩ : ∃ r, room' = r + 1 := ⟨room' - 1, by omega⟩
      have le := Nat.le_of_succ_le_succ le
      have same (strict : k.strict) := Nat.succ.inj (same strict)
      have expr {y : NodeId} (mem : y ∈ kind.children) :=
        expression_follows names le same (below y mem) place place'
      cases kind with
      | name name => exact follows_storeName here names name
      | subscript value index =>
        exact (sequence_follows [value, index] (fun y mem => expr mem) start).op here _
      | «attribute» value attr =>
        exact (expr List.mem_cons_self start).bind fun s s' made =>
          (follows_nameIndex attr).give fun i j entry exact => by
            simp [here exact, made exact, entry exact]
      | tuple elts | list elts =>
        have inner := ih room (Nat.lt_succ_self room) le same
        refine (sequence_follows elts (fun y mem => inner (below y mem) place place')
          fun exact => by rw [start exact]).give fun s s' made exact => ?_
        simp [here exact, made exact]
      | _ => exact follows_fail fun strict => by rw [k.same here strict]; rfl

theorem storeAll_follows (here : k.exact → span' = k.move span) {ids : List NodeId}
    (all : ∀ x ∈ ids, k.Like c.tree c'.tree (ρ x) (ρ' x)) (start : k.exact → pos' = pos) :
    Repeats k (storeAll c room span pos (ids.map ρ)) (storeAll c' room' span' pos' (ids.map ρ')) := by
  induction ids generalizing pos pos' with
  | nil => exact follows_pure fun _ => rfl
  | cons a as ih =>
    obtain ⟨first, rest⟩ := List.forall_mem_cons.mp all
    have one ⦃pos pos' : Nat⦄ (start : k.exact → pos' = pos) :=
      store_follows names le same first span span' start
    cases as with
    | nil => exact one start
    | cons b as =>
      exact (one fun exact => by rw [start exact]).bind fun s s' made =>
        (ih rest fun exact => by simp [start exact, made exact]).give fun o o' made' exact => by
          simp [here exact, made exact, made' exact]

theorem augmented_follows (here : k.exact → span' = k.move span) {target target' value value' : NodeId}
    (left : k.Like c.tree c'.tree target target') (right : k.Like c.tree c'.tree value value') (start : k.exact → pos' = pos) (op : BinaryOp) :
    Repeats k (augmented c room span pos target op value)
      (augmented c' room' span' pos' target' op value') := by
  have expr {x x' : NodeId} (alike : k.Like c.tree c'.tree x x') :=
    expression_follows names le same alike span span'
  obtain ⟨_, _, found, found', kind, place, place', ρ, ρ', rfl, rfl, there, below⟩ := left.node
  unfold augmented
  rw [found, found', pure_bind, pure_bind]
  cases kind with
  | name name =>
    exact (follows_loadName here names name).bind fun s s' made =>
      (expr right fun exact => by simp [start exact, made exact]).bind fun o o' made' =>
        (follows_storeName here names name).give fun q q' made'' exact => by
          simp [here exact, made exact, made' exact, made'' exact]
  | subscript container index =>
    exact (sequence_follows [container, index] (fun y mem => expr (below y mem)) start).bind
      fun s s' made => (expr right fun exact => by simp [start exact, made exact]).give
        fun o o' made' exact => by simp [here exact, made exact, made' exact]
  | «attribute» object attr =>
    exact (expr (below object List.mem_cons_self) start).bind fun s s' made =>
      (follows_nameIndex attr).bind fun i j entry =>
        (expr right fun exact => by simp [start exact, made exact]).give fun o o' made' exact => by
          simp [here exact, made exact, made' exact, entry exact]
  | _ => exact follows_fail fun strict => by rw [k.same there strict]; rfl

/-! ### Statements -/

/-- The `elif`s never run out, since there are no more of them than nodes. -/
theorem ifChain_follows {body body' : Span → Nat → List NodeId → Lower Segment}
    (block : ∀ (ids : List NodeId) (ρ ρ' : NodeId → NodeId), (∀ x ∈ ids, k.Like c.tree c'.tree (ρ x) (ρ' x)) →
      ∀ span span' ⦃pos pos'⦄, (k.exact → pos' = pos) →
        Repeats k (body span pos (ids.map ρ)) (body' span' pos' (ids.map ρ')))
    {test : NodeId} {taken orelse : List NodeId} {d chain chain' : Nat} (most : d ≤ c.tree.size)
    (most' : d ≤ c'.tree.size) (enough : d ≤ chain) (enough' : d ≤ chain')
    (all : ∀ x ∈ test :: (taken ++ orelse), c.tree.Alike k.places c'.tree d (ρ x) (ρ' x))
    (here : k.exact → span' = k.move span) (start : k.exact → pos' = pos) :
    Repeats k (ifChain c room body chain span pos (ρ test) (taken.map ρ) (orelse.map ρ))
      (ifChain c' room' body' chain' span' pos' (ρ' test) (taken.map ρ') (orelse.map ρ')) := by
  induction d generalizing chain chain' span span' pos pos' test taken orelse ρ ρ' with
  | zero => exact (all test List.mem_cons_self).elim
  | succ d ih =>
    obtain ⟨chain, rfl⟩ : ∃ r, chain = r + 1 := ⟨chain - 1, by omega⟩
    obtain ⟨chain', rfl⟩ : ∃ r, chain' = r + 1 := ⟨chain' - 1, by omega⟩
    have like : ∀ x ∈ test :: (taken ++ orelse), k.Like c.tree c'.tree (ρ x) (ρ' x) := fun x mem =>
      ⟨d + 1, most, most', all x mem⟩
    obtain ⟨decides, others⟩ := List.forall_mem_cons.mp like
    obtain ⟨yes, no⟩ := List.forall_mem_append.mp others
    unfold ifChain
    refine (expression_follows names le same decides span span' start).bind fun s s' made => ?_
    refine (block taken ρ ρ' yes span span' fun exact => by simp [start exact, made exact]).bind
      fun o o' made' => ?_
    rw [List.isEmpty_map, List.isEmpty_map]
    have stop (exact : k.exact) : pos' + s'.length + 1 + o'.length + 1 = pos + s.length + 1 + o.length + 1 := by
      simp [start exact, made exact, made' exact]
    have otherwise := block orelse ρ ρ' no span span' stop
    have whole {q q' : Segment} (made'' : k.exact → q' = q.mapSpans k.move) (exact : k.exact) :
        s' ++ .op (.popJumpIfFalse (pos' + s'.length + 1 + o'.length + 1)) span' :: o' ++
          .op (.jump (pos' + s'.length + 1 + o'.length + 1 + q'.length)) span' :: q' =
        Segment.mapSpans k.move (s ++ .op (.popJumpIfFalse (pos + s.length + 1 + o.length + 1)) span :: o ++
          .op (.jump (pos + s.length + 1 + o.length + 1 + q.length)) span :: q) := by
      simp [start exact, here exact, made exact, made' exact, made'' exact]
    cases orelse with
    | nil => exact follows_pure fun exact => by simp [start exact, here exact, made exact, made' exact]
    | cons a as =>
      cases as with
      | nil =>
        obtain ⟨_, _, found, found', kind, place, place', τ, τ', rfl, rfl, there, below⟩ := all a (by simp)
        simp only [List.isEmpty_cons, Bool.false_eq_true, if_false, List.map_cons, List.map_nil,
          node_of_get? found, node_of_get? found', map_pure, pure_bind]
        cases kind with
        | ifStmt test₁ taken₁ orelse₁ =>
          exact (ih (Nat.le_of_succ_le most) (Nat.le_of_succ_le most') (Nat.le_of_succ_le_succ enough)
            (Nat.le_of_succ_le_succ enough') below there stop).give fun q q' => whole
        | _ => exact otherwise.give fun q q' => whole
      | cons b bs =>
        simp only [List.isEmpty_cons, Bool.false_eq_true, if_false, List.map_cons, pure_bind]
        exact otherwise.give fun q q' => whole

end

/-- Contexts that differ in their trees only. -/
structure Context.Same (c c' : Context) : Prop where
  mode : c'.mode = c.mode
  isFunction : c'.isFunction = c.isFunction
  locals : c'.locals = c.locals

theorem finish_mapSpans {σ : Span → Span} (mode : c'.mode = c.mode) (names : c'.locals = c.locals)
    (name : String) (argCount : Nat) (s : Segment) (t : Tables) :
    finish c' name argCount (s.mapSpans σ) (t.mapSpans σ) = (finish c name argCount s t).mapSpans σ := by
  have instr : Item.instr ∘ Item.mapSpan σ = Item.instr := by funext item; cases item <;> rfl
  have span : Item.span ∘ Item.mapSpan σ = σ ∘ Item.span := by funext item; cases item <;> rfl
  simp only [finish, CodeOf.mapSpans, Segment.mapSpans, Tables.mapSpans, mode, names, List.map_map,
    List.map_toArray, instr, span]

/-- `stmt'` lowers nodes as `stmt` does those that they are alike with. -/
def StmtFollows (k : Likeness) (stmt stmt' : Stmt) : Prop :=
  ∀ ⦃c c'⦄, c.Same c' → ∀ ⦃loop loop'⦄, loop'.isSome = loop.isSome → (k.exact → loop' = loop) →
    ∀ ⦃x x'⦄, k.Like c.tree c'.tree x x' → ∀ span span' ⦃pos pos'⦄, (k.exact → pos' = pos) →
      Repeats k (stmt c loop span pos x) (stmt' c' loop' span' pos' x')

section

variable {stmt stmt' : Stmt} (h : StmtFollows k stmt stmt') (unit : c.Same c') {room room' : Nat}
  (le : room ≤ room') (same : k.strict → room' = room)

include h unit

theorem block_follows (loop loop' : Option Loop) (inside : loop'.isSome = loop.isSome)
    (again : k.exact → loop' = loop) {ρ ρ' : γ → NodeId} {ids : List γ}
    (all : ∀ x ∈ ids, k.Like c.tree c'.tree (ρ x) (ρ' x))
    (span span' : Span) (start : k.exact → pos' = pos) :
    Repeats k (sequence (stmt c loop span) pos (ids.map ρ)) (sequence (stmt' c' loop' span') pos' (ids.map ρ')) :=
  sequence_follows ids (fun x mem => h unit inside again (all x mem) span span') start

include le same here

theorem whileLoop_follows {test : NodeId} {body : List NodeId}
    (all : ∀ x ∈ test :: body, k.Like c.tree c'.tree (ρ x) (ρ' x))
    (start : k.exact → pos' = pos) :
    Repeats k (whileLoop c room stmt span pos (ρ test) (body.map ρ))
      (whileLoop c' room' stmt' span' pos' (ρ' test) (body.map ρ')) := by
  obtain ⟨decides, inside⟩ := List.forall_mem_cons.mp all
  refine (expression_follows unit.locals le same decides span span' start).bind
    fun s s' made => ?_
  refine (block_follows h unit (some ⟨pos, false⟩) (some ⟨pos', false⟩) rfl
    (fun exact => by rw [start exact]) inside span span' fun exact => ?_).give fun o o' made' exact => ?_
  · simp [start exact, made exact]
  · simp [start exact, here exact, made exact, made' exact, close_map]

theorem forLoop_follows {target iter : NodeId} {body : List NodeId}
    (all : ∀ x ∈ target :: iter :: body, k.Like c.tree c'.tree (ρ x) (ρ' x)) (start : k.exact → pos' = pos) :
    Repeats k (forLoop c room stmt span pos (ρ target) (ρ iter) (body.map ρ))
      (forLoop c' room' stmt' span' pos' (ρ' target) (ρ' iter) (body.map ρ')) := by
  obtain ⟨stored, others⟩ := List.forall_mem_cons.mp all
  obtain ⟨iterated, inside⟩ := List.forall_mem_cons.mp others
  refine (expression_follows unit.locals le same iterated span span' start).bind
    fun s s' made => ?_
  refine (store_follows unit.locals le same stored span span' fun exact => ?_).bind
    fun o o' made' => ?_
  · simp [start exact, made exact]
  refine (block_follows h unit (some ⟨pos + s.length + 1, true⟩) (some ⟨pos' + s'.length + 1, true⟩) rfl
    (fun exact => ?_) inside span span' fun exact => ?_).give fun q q' made'' exact => ?_
  · simp [start exact, made exact]
  · simp [start exact, made exact, made' exact]
  · simp [start exact, here exact, made exact, made' exact, made'' exact, close_map]

omit le same

theorem function_follows {body : List NodeId} {d : Nat} (most : d ≤ c.tree.size) (most' : d ≤ c'.tree.size)
    (alike : ∀ x ∈ body, c.tree.Alike k.places c'.tree d (ρ x) (ρ' x)) (name : String) (params : List String) :
    Matches k (fun code code' => k.exact → code' = code.mapSpans k.move)
      (function c stmt span name params (body.map ρ)) (function c' stmt' span' name params (body.map ρ')) := by
  have all : ∀ x ∈ body, k.Like c.tree c'.tree (ρ x) (ρ' x) := fun x mem => ⟨d, most, most', alike x mem⟩
  have inner : Context.Same
      { c with isFunction := true, locals := Scope.locals params (Scope.ofBody c.tree (body.map ρ)) }
      { c' with isFunction := true, locals := Scope.locals params (Scope.ofBody c'.tree (body.map ρ')) } :=
    ⟨unit.mode, rfl, (Scope.locals_alike (forall₂_map alike) params).symm⟩
  unfold function
  dsimp only
  rw [← Scope.global_alike (forall₂_map alike)]
  split
  · exact matches_error fun strict => by rw [k.same here strict]; rfl
  refine Matches.bind (Follows.bind (W := fun s s' => k.exact → s' = Segment.mapSpans k.move s)
    (block_follows h inner none none rfl (fun _ => rfl) all span span' fun _ => rfl)
    (fun s s' made => (follows_loadLiteral here .none).give fun o o' made' exact => ?_) {} {}
    fun _ => Tables.mapSpans_empty.symm) fun r r' ⟨made, tables⟩ => matches_ok fun exact => ?_
  · simp [here exact, made exact, made' exact]
  · rw [made exact, tables exact]
    exact finish_mapSpans inner.mode inner.locals _ _ _ _

end

theorem statement_follows {room room' : Nat} (le : room ≤ room') (same : k.strict → room' = room) :
    StmtFollows k (statement room) (statement room') := by
  induction room using Nat.strongRecOn generalizing room' with
  | ind room ih =>
    rintro c c' unit loop loop' inside again x x' ⟨d, most, most', alike⟩ span span' pos pos' start
    obtain ⟨d, rfl⟩ : ∃ r, d = r + 1 := by
      cases d with
      | zero => exact alike.elim
      | succ d => exact ⟨d, rfl⟩
    obtain ⟨_, _, found, found', kind, place, place', ρ, ρ', rfl, rfl, here, alike⟩ := alike
    have most := Nat.le_of_succ_le most
    have most' := Nat.le_of_succ_le most'
    have below : ∀ y ∈ kind.children, k.Like c.tree c'.tree (ρ y) (ρ' y) := fun y mem =>
      ⟨d, most, most', alike y mem⟩
    unfold statement
    rw [node_of_get? found, node_of_get? found', pure_bind, pure_bind]
    cases room with
    | zero => exact follows_fail fun strict => by rw [k.same here strict, same strict]
    | succ room =>
      obtain ⟨room', rfl⟩ : ∃ r, room' = r + 1 := ⟨room' - 1, by omega⟩
      have le := Nat.le_of_succ_le_succ le
      have same (strict : k.strict) := Nat.succ.inj (same strict)
      have inner := ih room (Nat.lt_succ_self room) le same
      have expr {y : NodeId} (mem : y ∈ kind.children) :=
        expression_follows unit.locals le same (below y mem) place place'
      cases kind with
      | exprStmt value =>
        exact (expr List.mem_cons_self start).op here _
      | assign targets value =>
        obtain ⟨stored, valued⟩ := List.forall_mem_append.mp below
        simp only [NodeKind.rename, List.isEmpty_map]
        exact follows_guard here ((expr (by simp [NodeKind.children]) start).bind fun s s' made =>
          (storeAll_follows unit.locals le same here stored fun exact => by
            simp [start exact, made exact]).give fun o o' made' exact => by simp [made exact, made' exact])
      | augAssign target op value =>
        exact augmented_follows unit.locals le same here
          (below target (by simp [NodeKind.children])) (below value (by simp [NodeKind.children])) start op
      | functionDef name params body =>
        refine (function_follows here inner unit most most' alike name params).lift.bind fun code code' made => ?_
        refine (follows_constant fun exact => ?_).bind fun i j entry =>
          (follows_storeName here unit.locals name).give fun s s' made' exact => ?_
        · rw [made exact, Constant.mapSpans_code]
        · simp [here exact, entry exact, made' exact]
      | returnStmt value =>
        simp only [NodeKind.rename, unit.isFunction]
        refine follows_guard here ?_
        cases value with
        | none =>
          exact (follows_loadLiteral here .none).op here _
        | some value =>
          exact (expr List.mem_cons_self start).op here _
      | ifStmt test body orelse =>
        exact ifChain_follows unit.locals le same (fun ids ρ ρ' all span span' pos pos' start =>
          block_follows inner unit loop loop' inside again all span span' start) most most' most most' alike
          here start
      | whileLoop test body => exact whileLoop_follows here inner unit le same below start
      | forLoop target iter body => exact forLoop_follows here inner unit le same below start
      | globalStmt _ | passStmt => exact follows_pure fun _ => rfl
      | breakStmt | continueStmt =>
        cases loop with
        | none =>
          cases loop' with
          | none => exact follows_fail fun strict => by rw [k.same here strict]; rfl
          | some loop' => cases inside
        | some loop =>
          cases loop' with
          | none => cases inside
          | some loop' =>
            refine follows_pure fun exact => ?_
            cases again exact
            cases loop.isFor <;> simp [here exact]
      | _ => exact follows_fail fun strict => by rw [k.same here strict]; rfl

end

end Lower

end Scratchpad
