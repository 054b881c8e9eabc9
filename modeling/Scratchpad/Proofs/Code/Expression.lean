import Scratchpad.Proofs.Code.Tables
import Scratchpad.Proofs.Tree.WellFormed

/-!
# The code of expressions

`Makes` says which segment an expression becomes, one rule for each form; all that lowering gives
is made by these rules (`expression_makes`), the walk along left operands included.
-/

namespace Scratchpad.Lower

/-- What there is to lower in an expression. -/
inductive Part where
  | value (id : NodeId)
  | values (ids : List NodeId)
  | choice (span : Span) (op : BoolOp) (ids : List NodeId)
  | links (span : Span) (chain : List (CompareOp × NodeId))

def choiceJump : BoolOp → Nat → Instr
  | .and => .jumpIfFalseOrPop
  | .or => .jumpIfTrueOrPop

def linkEnd (span : Span) (stop : Nat) (chain : List (CompareOp × NodeId)) : Segment :=
  if chain.length ≤ 1 then []
  else [.op (.jump (stop + 3)) span, .op .rotTwo span, .op .pop span]

def entries (keys values : List NodeId) : List NodeId :=
  (keys.zip values).flatMap fun (key, value) => [key, value]

inductive Makes (c : Context) : Part → Tables → Nat → Segment → Tables → Prop where
  | literal {id : NodeId} (found : c.tree.get? id = some ⟨.literal v, span⟩)
      (entry : constant (.literal v) t = .ok (i, t')) :
      Makes c (.value id) t pos [.op (.loadConst i) span] t'
  | name {id : NodeId} (found : c.tree.get? id = some ⟨.name name, span⟩)
      (load : loadName c span name t = .ok (s, t')) : Makes c (.value id) t pos s t'
  | unary {id : NodeId} (found : c.tree.get? id = some ⟨.unary op arg, span⟩)
      (arg : Makes c (.value arg) t pos s t') :
      Makes c (.value id) t pos (s ++ [.op (.unary op) span]) t'
  | boolean {id : NodeId} (found : c.tree.get? id = some ⟨.boolean op values, span⟩)
      (nonempty : values ≠ []) (chain : Makes c (.choice span op values) t pos s t') :
      Makes c (.value id) t pos s t'
  | compare {id : NodeId} (found : c.tree.get? id = some ⟨.compare left ops comparators, span⟩)
      (nonempty : ops ≠ []) (even : ops.length = comparators.length)
      (left : Makes c (.value left) t pos s t')
      (chain : Makes c (.links span (ops.zip comparators)) t' (pos + s.length) s' t'') :
      Makes c (.value id) t pos
        (s ++ s' ++ linkEnd span (pos + s.length + s'.length) (ops.zip comparators)) t''
  | conditional {id : NodeId} (found : c.tree.get? id = some ⟨.conditional test body orelse, span⟩)
      (test : Makes c (.value test) t pos s t')
      (body : Makes c (.value body) t' (pos + s.length + 1) s' t'')
      (orelse : Makes c (.value orelse) t'' (pos + s.length + 1 + s'.length + 1) s'' t''') :
      Makes c (.value id) t pos
        (s ++ .op (.popJumpIfFalse (pos + s.length + 1 + s'.length + 1)) span :: s' ++
          .op (.jump (pos + s.length + 1 + s'.length + 1 + s''.length)) span :: s'') t'''
  | named {id : NodeId} (found : c.tree.get? id = some ⟨.named target value, span⟩)
      (value : Makes c (.value value) t pos s t')
      (store : storeName c span target t' = .ok (s', t'')) :
      Makes c (.value id) t pos (s ++ .op .dupTop span :: s') t''
  | list {id : NodeId} (found : c.tree.get? id = some ⟨.list elts, span⟩)
      (items : Makes c (.values elts) t pos s t') :
      Makes c (.value id) t pos (s ++ [.op (.buildList elts.length) span]) t'
  | tuple {id : NodeId} (found : c.tree.get? id = some ⟨.tuple elts, span⟩)
      (items : Makes c (.values elts) t pos s t') :
      Makes c (.value id) t pos (s ++ [.op (.buildTuple elts.length) span]) t'
  | dict {id : NodeId} (found : c.tree.get? id = some ⟨.dict keys values, span⟩)
      (even : keys.length = values.length)
      (items : Makes c (.values (entries keys values)) t pos s t') :
      Makes c (.value id) t pos (s ++ [.op (.buildDict keys.length) span]) t'
  | binary {id : NodeId} (found : c.tree.get? id = some ⟨.binary left op right, span⟩)
      (left : Makes c (.value left) t pos s t')
      (right : Makes c (.value right) t' (pos + s.length) s' t'') :
      Makes c (.value id) t pos (s ++ (s' ++ [.op (.binary op) span])) t''
  | call {id : NodeId} (found : c.tree.get? id = some ⟨.call func args, span⟩)
      (func : Makes c (.value func) t pos s t')
      (args' : Makes c (.values args) t' (pos + s.length) s' t'') :
      Makes c (.value id) t pos (s ++ (s' ++ [.op (.call args.length) span])) t''
  | attribute {id : NodeId} (found : c.tree.get? id = some ⟨.attribute value attr, span⟩)
      (value : Makes c (.value value) t pos s t')
      (entry : nameIndex attr t' = .ok (i, t'')) :
      Makes c (.value id) t pos (s ++ [.op (.loadAttr i) span]) t''
  | subscript {id : NodeId} (found : c.tree.get? id = some ⟨.subscript value index, span⟩)
      (value : Makes c (.value value) t pos s t')
      (index : Makes c (.value index) t' (pos + s.length) s' t'') :
      Makes c (.value id) t pos (s ++ (s' ++ [.op .loadSubscript span])) t''
  | none : Makes c (.values []) t pos [] t
  | cons (first : Makes c (.value a) t pos s t')
      (rest : Makes c (.values as) t' (pos + s.length) s' t'') :
      Makes c (.values (a :: as)) t pos (s ++ s') t''
  | lastChoice (last : Makes c (.value a) t pos s t') : Makes c (.choice span op [a]) t pos s t'
  | choice (first : Makes c (.value a) t pos s t')
      (rest : Makes c (.choice span op (b :: as)) t' (pos + s.length + 1) s' t'') :
      Makes c (.choice span op (a :: b :: as)) t pos
        (s ++ .op (choiceJump op (pos + s.length + 1 + s'.length)) span :: s') t''
  | lastLink (right : Makes c (.value a) t pos s t') :
      Makes c (.links span [(op, a)]) t pos (s ++ [.op (.compare op) span]) t'
  | link (right : Makes c (.value a) t pos s t')
      (rest : Makes c (.links span (l :: ls)) t' (pos + s.length + 4) s' t'')
      (stopAt : stop = pos + s.length + 4 + s'.length + 1) :
      Makes c (.links span ((op, a) :: l :: ls)) t pos
        (s ++ [.op .dupTop span, .op .rotThree span, .op (.compare op) span,
          .op (.jumpIfFalseOrPop stop) span] ++ s') t''

/-- Lowering with `expr` makes what `Makes` says. -/
def Sound (c : Context) (expr : Expr) : Prop :=
  ∀ span pos id t s t', expr span pos id t = .ok (s, t') → Makes c (.value id) t pos s t'

/-- What holds of each segment of a sequence and is kept when one more is put in front holds of
the whole. -/
theorem sequence_ok {lower : Nat → α → Lower Segment}
    {P : α → Tables → Nat → Segment → Tables → Prop}
    {Q : List α → Tables → Nat → Segment → Tables → Prop}
    (one : ∀ {pos a t s t'}, lower pos a t = .ok (s, t') → P a t pos s t')
    (none : ∀ {t pos}, Q [] t pos [] t)
    (cons : ∀ {a as t pos s t' s' t''}, P a t pos s t' → Q as t' (pos + s.length) s' t'' →
      Q (a :: as) t pos (s ++ s') t'')
    {as : List α} (h : sequence lower pos as t = .ok (s, t')) : Q as t pos s t' := by
  induction as generalizing pos t s with
  | nil =>
    obtain ⟨rfl, rfl⟩ := pure_ok h
    exact none
  | cons a as ih =>
    obtain ⟨first, t₁, lowered, h⟩ := bind_ok h
    obtain ⟨others, t₂, rest, h⟩ := bind_ok h
    obtain ⟨rfl, rfl⟩ := pure_ok h
    exact cons (one lowered) (ih rest)

theorem sequence_makes {c : Context} {expr : Expr} (sound : Sound c expr) {ids : List NodeId}
    (h : sequence (expr span) pos ids t = .ok (s, t')) : Makes c (.values ids) t pos s t' :=
  sequence_ok (P := fun id => Makes c (.value id)) (Q := fun ids => Makes c (.values ids))
    (sound _ _ _ _ _ _) .none .cons h

theorem boolChain_makes {c : Context} {expr : Expr} (sound : Sound c expr) {ids : List NodeId}
    (some : ids ≠ []) (h : boolChain expr span (choiceJump op) pos ids t = .ok (s, t')) :
    Makes c (.choice span op ids) t pos s t' := by
  induction ids generalizing pos t s with
  | nil => exact (some rfl).elim
  | cons a as ih =>
    cases as with
    | nil => exact .lastChoice (sound _ _ _ _ _ _ h)
    | cons b as =>
      obtain ⟨first, t₁, lowered, h⟩ := bind_ok h
      obtain ⟨others, t₂, rest, h⟩ := bind_ok h
      obtain ⟨rfl, rfl⟩ := pure_ok h
      exact .choice (sound _ _ _ _ _ _ lowered) (ih (by simp) rest)

theorem links_makes {c : Context} {expr : Expr} (sound : Sound c expr)
    {chain : List (CompareOp × NodeId)} (some : chain ≠ [])
    (h : links expr span pos chain t = .ok (s, t')) : Makes c (.links span chain) t pos s t' := by
  induction chain generalizing pos t s with
  | nil => exact (some rfl).elim
  | cons l ls ih =>
    obtain ⟨op, right⟩ := l
    cases ls with
    | nil =>
      obtain ⟨first, t₁, lowered, h⟩ := bind_ok h
      obtain ⟨rfl, rfl⟩ := pure_ok h
      exact .lastLink (sound _ _ _ _ _ _ lowered)
    | cons l ls =>
      obtain ⟨first, t₁, lowered, h⟩ := bind_ok h
      obtain ⟨others, t₂, rest, h⟩ := bind_ok h
      obtain ⟨rfl, rfl⟩ := pure_ok h
      exact .link (sound _ _ _ _ _ _ lowered) (ih (by simp) rest) rfl

theorem comparison_makes {c : Context} {expr : Expr} (sound : Sound c expr) {id left : NodeId}
    {ops : List CompareOp} {comparators : List NodeId}
    (found : c.tree.get? id = some ⟨.compare left ops comparators, span⟩)
    (nonempty : ops ≠ []) (even : ops.length = comparators.length)
    (h : comparison expr span pos left (ops.zip comparators) t = .ok (s, t')) :
    Makes c (.value id) t pos s t' := by
  obtain ⟨first, t₁, lowered, h⟩ := bind_ok h
  obtain ⟨others, t₂, chain, h⟩ := bind_ok h
  have some : ops.zip comparators ≠ [] := by
    cases ops with
    | nil => exact (nonempty rfl).elim
    | cons op ops =>
      cases comparators with
      | nil => simp at even
      | cons a as => simp
  have made := Makes.compare found nonempty even (sound _ _ _ _ _ _ lowered)
    (links_makes sound some chain)
  unfold linkEnd at made
  split at h
  · rename_i short
    obtain ⟨rfl, rfl⟩ := pure_ok h
    rw [if_pos short, List.append_nil] at made
    exact made
  · rename_i long
    obtain ⟨rfl, rfl⟩ := pure_ok h
    rw [if_neg long] at made
    exact made

theorem operand_makes {c : Context} {expr : Expr} (sound : Sound c expr) {id : NodeId} {n : Node}
    (found : c.tree.get? id = some n)
    (h : operand c expr n.span pos n.kind t = .ok (s, t')) : Makes c (.value id) t pos s t' := by
  obtain ⟨kind, span⟩ := n
  cases kind with
  | literal value =>
    obtain ⟨i, t₁, entry, h⟩ := bind_ok h
    obtain ⟨rfl, rfl⟩ := pure_ok h
    exact .literal found entry
  | name name => exact .name found h
  | unary op arg =>
    obtain ⟨first, t₁, lowered, h⟩ := bind_ok h
    obtain ⟨rfl, rfl⟩ := pure_ok h
    exact .unary found (sound _ _ _ _ _ _ lowered)
  | boolean op values =>
    obtain ⟨some, h⟩ := guard_ok h
    have nonempty : values ≠ [] := by simpa using some
    refine .boolean found nonempty (boolChain_makes sound nonempty ?_)
    cases op <;> exact h
  | compare left ops comparators =>
    obtain ⟨good, h⟩ := guard_ok h
    rw [Bool.or_eq_false_iff] at good
    exact comparison_makes sound found (by simpa using good.1) (by simpa using good.2) h
  | conditional test body orelse =>
    obtain ⟨first, t₁, test, h⟩ := bind_ok h
    obtain ⟨second, t₂, body, h⟩ := bind_ok h
    obtain ⟨third, t₃, orelse, h⟩ := bind_ok h
    obtain ⟨rfl, rfl⟩ := pure_ok h
    exact .conditional found (sound _ _ _ _ _ _ test) (sound _ _ _ _ _ _ body)
      (sound _ _ _ _ _ _ orelse)
  | named target value =>
    obtain ⟨first, t₁, value, h⟩ := bind_ok h
    obtain ⟨store, t₂, stored, h⟩ := bind_ok h
    obtain ⟨rfl, rfl⟩ := pure_ok h
    exact .named found (sound _ _ _ _ _ _ value) stored
  | list elts =>
    obtain ⟨first, t₁, items, h⟩ := bind_ok h
    obtain ⟨rfl, rfl⟩ := pure_ok h
    exact .list found (sequence_makes sound items)
  | tuple elts =>
    obtain ⟨first, t₁, items, h⟩ := bind_ok h
    obtain ⟨rfl, rfl⟩ := pure_ok h
    exact .tuple found (sequence_makes sound items)
  | dict keys values =>
    obtain ⟨even, h⟩ := guard_ok h
    obtain ⟨first, t₁, items, h⟩ := bind_ok h
    obtain ⟨rfl, rfl⟩ := pure_ok h
    exact .dict found (by simpa using even) (sequence_makes sound items)
  | _ => exact (fail_ok h).elim

theorem operation_makes {c : Context} {expr : Expr} (sound : Sound c expr) {id left : NodeId}
    {n : Node} (found : c.tree.get? id = some n) (onLeft : leftOperand? n.kind = some left)
    (inner : Makes c (.value left) t pos s t')
    (h : operation expr n.span (pos + s.length) n.kind t' = .ok (s', t'')) :
    Makes c (.value id) t pos (s ++ s') t'' := by
  obtain ⟨kind, span⟩ := n
  cases kind with
  | binary a op b =>
    cases onLeft
    obtain ⟨first, t₁, right, h⟩ := bind_ok h
    obtain ⟨rfl, rfl⟩ := pure_ok h
    exact .binary found inner (sound _ _ _ _ _ _ right)
  | call func args =>
    cases onLeft
    obtain ⟨first, t₁, right, h⟩ := bind_ok h
    obtain ⟨rfl, rfl⟩ := pure_ok h
    exact .call found inner (sequence_makes sound right)
  | «attribute» value attr =>
    cases onLeft
    obtain ⟨i, t₁, entry, h⟩ := bind_ok h
    obtain ⟨rfl, rfl⟩ := pure_ok h
    exact .attribute found inner entry
  | subscript value index =>
    cases onLeft
    obtain ⟨first, t₁, right, h⟩ := bind_ok h
    obtain ⟨rfl, rfl⟩ := pure_ok h
    exact .subscript found inner (sound _ _ _ _ _ _ right)
  | _ => cases onLeft

/-- Going down the left operands of `id` ends at `head`, past the nodes of `outer`, the innermost
first. -/
inductive Spine (t : Tree) : NodeId → NodeId → Node → List Node → Prop where
  | head {id : NodeId} (found : t.get? id = some n) (stop : leftOperand? n.kind = none) :
      Spine t id id n []
  | operation {id : NodeId} (found : t.get? id = some n) (onLeft : leftOperand? n.kind = some left)
      (inner : Spine t left last head outer) : Spine t id last head (outer ++ [n])

theorem spine_ok {c : Context} {id : NodeId} {n head : Node} {outer all : List Node}
    (found : c.tree.get? id = some n)
    (h : spine c span outer room n t = .ok ((head, all), t')) :
    t' = t ∧ ∃ last inner, all = inner ++ outer ∧ Spine c.tree id last head inner := by
  induction room generalizing id n outer t with
  | zero =>
    unfold spine at h
    cases onLeft : leftOperand? n.kind with
    | none =>
      rw [onLeft] at h
      obtain ⟨same, rfl⟩ := pure_ok h
      cases same
      exact ⟨rfl, id, [], rfl, .head found onLeft⟩
    | some left => rw [onLeft] at h; exact (fail_ok h).elim
  | succ room ih =>
    unfold spine at h
    cases onLeft : leftOperand? n.kind with
    | none =>
      rw [onLeft] at h
      obtain ⟨same, rfl⟩ := pure_ok h
      cases same
      exact ⟨rfl, id, [], rfl, .head found onLeft⟩
    | some left =>
      rw [onLeft] at h
      obtain ⟨m, t₁, resolved, walked⟩ := bind_ok h
      obtain ⟨foundLeft, same⟩ := node_ok resolved
      obtain ⟨stay, last, inner, rfl, below⟩ := ih foundLeft walked
      exact ⟨stay.trans same, last, inner ++ [n], by simp, .operation found onLeft below⟩

theorem spine_makes {c : Context} {expr : Expr} (sound : Sound c expr) {id last : NodeId}
    {head : Node} {outer : List Node} (below : Spine c.tree id last head outer)
    (first : Makes c (.value last) t pos s t')
    (h : outer.foldlM (m := Lower) (fun done n =>
      return done ++ (← operation expr n.span (pos + done.length) n.kind)) s t' = .ok (s', t'')) :
    Makes c (.value id) t pos s' t'' := by
  induction below generalizing s' t'' with
  | head found stop =>
    obtain ⟨rfl, rfl⟩ := pure_ok h
    exact first
  | operation found onLeft inner ih =>
    rw [List.foldlM_append] at h
    obtain ⟨done, t₁, before, h⟩ := bind_ok h
    rw [List.foldlM_cons] at h
    obtain ⟨all, t₂, step, h⟩ := bind_ok h
    obtain ⟨rfl, rfl⟩ := pure_ok h
    obtain ⟨more, t₃, lowered, step⟩ := bind_ok step
    obtain ⟨rfl, rfl⟩ := pure_ok step
    exact operation_makes sound found onLeft (ih first before) lowered

theorem spine_head {t : Tree} {id last : NodeId} (below : Spine t id last head outer) :
    t.get? last = some head := by
  induction below with
  | head found => exact found
  | operation _ _ _ ih => exact ih

theorem expression_makes (c : Context) (room : Nat) : Sound c (expression c room) := by
  induction room with
  | zero =>
    intro span pos id t s t' h
    unfold expression at h
    obtain ⟨n, t₁, resolved, h⟩ := bind_ok h
    obtain ⟨⟨head, outer⟩, t₂, walked, h⟩ := bind_ok h
    exact (fail_ok h).elim
  | succ room ih =>
    intro span pos id t s t' h
    unfold expression at h
    obtain ⟨n, t₁, resolved, h₁⟩ := bind_ok h
    obtain ⟨found, rfl⟩ := node_ok resolved
    obtain ⟨⟨head, outer⟩, t₂, walked, h₂⟩ := bind_ok h₁
    obtain ⟨rfl, last, inner, rfl, below⟩ := spine_ok found walked
    obtain ⟨first, t₃, lowered, operations⟩ := bind_ok h₂
    rw [List.append_nil] at operations
    exact spine_makes ih below (operand_makes ih (spine_head below) lowered) operations

/-! ### What is made -/

def Part.nodes : Part → List NodeId
  | .value id => [id]
  | .values ids => ids
  | .choice _ _ ids => ids
  | .links _ chain => chain.map (·.2)

theorem kind?_of_get? {t : Tree} {id : NodeId} (found : t.get? id = some ⟨kind, span⟩) :
    t.kind? id = some kind := by
  rw [Tree.kind?, found]
  rfl

theorem named_of_get? {t : Tree} {P : String → Prop} {id : NodeId} (h : t.Names P)
    (found : t.get? id = some ⟨kind, span⟩) (mem : name ∈ kind.names) : P name :=
  h id kind (kind?_of_get? found) name mem

theorem Makes.entered {R : Tables → Tables → Prop} (h : Makes c part t pos s t') (keeps : Tables.Entered P R)
    (names : c.tree.Names P) : R t t' := by
  induction h with
  | literal _ entry => exact keeps.literal entry
  | name found load => exact keeps.load (named_of_get? names found List.mem_cons_self) load
  | unary _ _ ih | boolean _ _ _ ih | list _ _ ih | tuple _ _ ih | dict _ _ _ ih
  | lastChoice _ ih | lastLink _ ih => exact ih
  | compare _ _ _ _ _ ih ih' | binary _ _ _ ih ih' | call _ _ _ ih ih' | subscript _ _ _ ih ih'
  | cons _ _ ih ih' | choice _ _ ih ih' | link _ _ _ ih ih' => exact keeps.trans ih ih'
  | conditional _ _ _ _ ih ih' ih'' => exact keeps.trans (keeps.trans ih ih') ih''
  | named found _ store ih =>
    exact keeps.trans ih (keeps.store (named_of_get? names found List.mem_cons_self) store)
  | «attribute» found _ entry ih =>
    exact keeps.trans ih (keeps.global (named_of_get? names found List.mem_cons_self) entry)
  | none => exact keeps.refl _

theorem Makes.le (h : Makes c part t pos s t') : t.Le t' :=
  h.entered Tables.le_entered fun _ _ _ _ _ => trivial

section

variable {t : Tree} {id : NodeId}

theorem shaped_of_get? (found : t.get? id = some ⟨kind, span⟩) (suits : role.admits kind = true)
    (complete : t.Complete kind) (below : ∀ p ∈ role.below kind, Shaped t p.1 p.2) :
    ∀ x ∈ [id], Shaped t role x := by
  intro x mem
  obtain rfl := List.mem_singleton.mp mem
  exact .node (kind?_of_get? found) suits complete below

theorem shaped_map {ids : List NodeId} (h : ∀ x ∈ ids, Shaped t role x) :
    ∀ p ∈ ids.map (role, ·), Shaped t p.1 p.2 := by
  intro p mem
  obtain ⟨x, listed, rfl⟩ := List.mem_map.mp mem
  exact h x listed

theorem shaped_append {ids ids' : List NodeId} (h : ∀ x ∈ ids, Shaped t role x)
    (h' : ∀ x ∈ ids', Shaped t role x) : ∀ x ∈ ids ++ ids', Shaped t role x :=
  fun x mem => (List.mem_append.mp mem).elim (h x) (h' x)

end

theorem Makes.shaped (h : Makes c part tables pos s tables') :
    ∀ id ∈ part.nodes, Shaped c.tree .expression id := by
  induction h with
  | literal found => exact shaped_of_get? found rfl trivial (by simp [Role.below, NodeKind.children])
  | name found => exact shaped_of_get? found rfl trivial (by simp [Role.below, NodeKind.children])
  | unary found _ ih => exact shaped_of_get? found rfl trivial (shaped_map ih)
  | boolean found nonempty _ ih => exact shaped_of_get? found rfl nonempty (shaped_map ih)
  | compare found nonempty even _ _ ih ih' =>
    refine shaped_of_get? found rfl ⟨nonempty, even⟩ (shaped_map (shaped_append ih ?_))
    rwa [Part.nodes, List.map_snd_zip (Nat.le_of_eq even.symm)] at ih'
  | conditional found _ _ _ ih ih' ih'' =>
    exact shaped_of_get? found rfl trivial (shaped_map (shaped_append ih (shaped_append ih' ih'')))
  | named found _ _ ih => exact shaped_of_get? found rfl trivial (shaped_map ih)
  | list found _ ih | tuple found _ ih => exact shaped_of_get? found rfl trivial (shaped_map ih)
  | dict found even _ ih => exact shaped_of_get? found rfl even (shaped_map ih)
  | binary found _ _ ih ih' | call found _ _ ih ih' | subscript found _ _ ih ih' =>
    exact shaped_of_get? found rfl trivial (shaped_map (shaped_append ih ih'))
  | «attribute» found _ _ ih => exact shaped_of_get? found rfl trivial (shaped_map ih)
  | none => simp [Part.nodes]
  | cons _ _ ih ih' | choice _ _ ih ih' | link _ _ _ ih ih' => exact shaped_append ih ih'
  | lastChoice _ ih | lastLink _ ih => exact ih

end Scratchpad.Lower
