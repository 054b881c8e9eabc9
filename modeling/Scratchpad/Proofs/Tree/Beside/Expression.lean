import Scratchpad.Proofs.Tree.Beside

/-!
# Expressions with more tokens behind

An expression ends before its line does, so that what follows the line makes no difference to it
(`EchoesOne`). One lemma for each level of the grammar, loosest last.
-/

namespace Scratchpad.Parse

open Token (isLayout Closed)

/-- In a line both runs read the same node. -/
abbrev EchoesOne (base : List NodeKind) (after : List Token) (x : Parse NodeId) : Prop :=
  Echoes (Inside base after) x x (Gives (Shift base) (Inside base after))

/-- From a place in a line both runs read the same nodes. -/
abbrev EchoesAll (base : List NodeKind) (after : List Token) (x : Parse (List NodeId)) : Prop :=
  Echoes (Inside base after) x x (Gives (ShiftAll base) (Loose base after))

/-- The parsers of the next level read the same. -/
structure Inner.Echoing (base : List NodeKind) (after : List Token) (inner : Inner) : Prop where
  test : EchoesOne base after inner.test
  negated : EchoesOne base after inner.negated
  signed : EchoesOne base after inner.signed
  exponent : EchoesOne base after inner.exponent
  block : EchoesAll base after inner.block

variable {base : List NodeKind} {after : List Token} {inner : Inner} {t : Token}

/-! ### Lists of expressions -/

theorem echoes_eatOnly (inLine : isLayout t = false) :
    Echoes (Inside base after) (eat t) (eat t) (Gives Eq (Inside base after)) := by
  have asked : Echoes (Inside base after) (eat t >>= pure) (eat t >>= pure) _ :=
    echoes_eat inLine (echoes_pure rfl) (echoes_pure (R := Eq) rfl)
  rwa [bind_pure] at asked

theorem echoes_commaThen (ask : Option Token → Bool) :
    Echoes (Inside base after) (do if ← eat (.symbol .comma) then return ask (← peek?) else return false)
      (do if ← eat (.symbol .comma) then return ask (← peek?) else return false)
      (Gives Eq (Inside base after)) := by
  refine echoes_eat rfl ?_ (echoes_pure rfl)
  exact echoes_peek fun t => (echoes_pure rfl).inside

theorem echoes_commaList {item : Parse NodeId} {continues : Parse Bool}
    (asks : Echoes (Inside base after) continues continues (Gives Eq (Inside base after)))
    (each : EchoesOne base after item) :
    EchoesOne base after (do
      let first ← item
      if (← peek?) ≠ some (.symbol .comma) then return first
      let elts ← more continues item [first]
      pushBetween (.tuple elts) first (elts.getLastD first)) := by
  refine each.bind fun first _ same => ?_
  subst same
  refine echoes_peek fun t => Echoes.inside (echoes_ite (fun _ => echoes_pure rfl) fun _ => ?_)
  refine (echoes_more (R := ShiftAll base) asks each ShiftAll.snoc rfl).bind fun elts _ same => ?_
  subst same
  exact echoes_pushBetween (.tuple elts) _ _ _ _

section Expressions

variable (echoing : inner.Echoing base after)

include echoing

theorem echoes_testList : EchoesOne base after (testList inner) :=
  echoes_commaList (echoes_commaThen _) echoing.test

theorem echoes_namedTest : EchoesOne base after (namedTest inner) := by
  refine echoes_peek fun t => ?_
  cases t with
  | name target =>
    refine echoes_peekSecond rfl fun t₂ => ?_
    split
    · rename_i target' here walrus
      cases here
      cases walrus
      refine echoes_advance_ahead.bind fun _ _ _ => (echoes_advance_at rfl).bind fun _ _ _ => ?_
      refine echoing.test.bind fun value _ same => ?_
      subst same
      exact (echoes_spanOf _ _).bind fun _ _ _ => echoes_push (.named target value) _ _
    · exact echoing.test.inside.ahead
  | _ => exact echoes_peekSecond_any fun _ _ => echoing.test.inside

/-! ### Atoms -/

omit echoing in
theorem echoes_leaf (kind : NodeKind) (inLine : isLayout t = false)
    (same : kind.rename (base.length + ·) = kind) :
    Echoes (At t base after) (leaf kind) (leaf kind) (Gives (Shift base) (Inside base after)) := by
  refine (echoes_advance_at inLine).bind fun span span' _ => ?_
  have pushed : Echoes (Inside base after) _ _ _ := echoes_push kind span span'
  rwa [same] at pushed

omit echoing in
theorem echoes_texts {part : String} : Echoes (At (.text part) base after) texts texts
    (Gives (Shift base) (Inside base after)) := by
  refine echoes_peekSpan.bind fun _ _ _ => ?_
  refine Echoes.inside ((echoes_iterate (R := fun a b => b.1 = a.1) ?_ rfl).bind fun a b same => ?_)
  · rintro ⟨chars, span⟩ ⟨_, span'⟩ rfl
    refine echoes_peek fun t => ?_
    cases t with
    | text part => exact (echoes_advance_at rfl).bind fun _ _ _ => echoes_goOn rfl
    | _ => exact echoes_stop.inside
  · obtain ⟨chars, span⟩ := a
    obtain ⟨_, span'⟩ := b
    cases same
    exact echoes_push (.literal (.text chars)) _ _

theorem echoes_parenthesized : EchoesOne base after (parenthesized inner) := by
  refine (echoes_expect rfl).bind fun _ _ _ => echoes_peek fun t => ?_
  refine Echoes.inside (echoes_ite (fun _ => ?_) fun _ => ?_)
  · refine (echoes_expect rfl).bind fun _ _ _ => ?_
    exact echoes_push (.tuple []) _ _
  · refine (echoes_namedTest echoing).bind fun first _ same => ?_
    subst same
    refine echoes_eat rfl ?_ ?_
    · refine (echoes_itemsBefore (R := ShiftAll base) _ (fun items items' h => ?_) rfl).bind
        fun others _ same => ?_
      · exact (echoes_namedTest echoing).mono (fun _ _ => id) fun _ _ _ _ ⟨one, stands⟩ => ⟨h.snoc one, stands⟩
      · subst same
        refine (echoes_expect rfl).bind fun _ _ _ => ?_
        exact echoes_push (.tuple (first :: others)) _ _
    · exact (echoes_expect rfl).bind fun _ _ _ => echoes_pure rfl

theorem echoes_listDisplay : EchoesOne base after (listDisplay inner) := by
  refine (echoes_expect rfl).bind fun _ _ _ => ?_
  refine (echoes_itemsBefore (R := ShiftAll base) _ (fun items items' h => ?_) rfl).bind
    fun elts _ same => ?_
  · exact (echoes_namedTest echoing).mono (fun _ _ => id) fun _ _ _ _ ⟨one, stands⟩ => ⟨h.snoc one, stands⟩
  · subst same
    refine (echoes_expect rfl).bind fun _ _ _ => ?_
    exact echoes_push (.list elts) _ _

theorem echoes_dictPair : Echoes (Inside base after) (dictPair inner) (dictPair inner)
    (Gives (fun a b => b = (base.length + a.1, base.length + a.2)) (Inside base after)) := by
  refine echoing.test.bind fun key _ same => ?_
  subst same
  refine echoes_peek fun t => echoes_ite (fun _ => ?_) fun colon => ?_
  · exact (echoes_spanOf _ _).bind fun _ _ _ => echoes_failThen
  · cases Classical.not_not.mp colon
    refine (echoes_advance_at rfl).bind fun _ _ _ => echoing.test.bind fun value _ same => ?_
    subst same
    exact echoes_pure rfl

theorem echoes_dictDisplay : EchoesOne base after (dictDisplay inner) := by
  refine (echoes_expect rfl).bind fun _ _ _ => ?_
  refine (echoes_itemsBefore
    (R := fun pairs pairs' => pairs' = pairs.map fun p => (base.length + p.1, base.length + p.2)) _
    (fun pairs pairs' h => ?_) rfl).bind fun pairs _ same => ?_
  · refine (echoes_dictPair echoing).mono (fun _ _ => id) fun _ _ _ _ ⟨one, stands⟩ => ⟨?_, stands⟩
    simp only at one ⊢
    rw [h, one, List.map_append, List.map_singleton]
  · subst same
    refine (echoes_expect rfl).bind fun _ _ _ => ?_
    have same : NodeKind.dict ((pairs.map fun p => (base.length + p.1, base.length + p.2)).map (·.1))
        ((pairs.map fun p => (base.length + p.1, base.length + p.2)).map (·.2)) =
          (NodeKind.dict (pairs.map (·.1)) (pairs.map (·.2))).rename (base.length + ·) := by
      simp [NodeKind.rename]
    rw [same]
    exact echoes_push _ _ _

theorem echoes_atom : EchoesOne base after (atom inner) := by
  refine echoes_peek fun t => ?_
  cases t with
  | name id => exact echoes_leaf (.name id) rfl rfl
  | int n => exact echoes_leaf (.literal (.int n)) rfl rfl
  | float f => exact echoes_leaf (.literal (.float f)) rfl rfl
  | text part => exact echoes_texts
  | keyword k =>
    cases k with
    | trueKw => exact echoes_leaf (.literal (.bool true)) rfl rfl
    | falseKw => exact echoes_leaf (.literal (.bool false)) rfl rfl
    | noneKw => exact echoes_leaf (.literal .none) rfl rfl
    | _ => exact echoes_unexpected
  | symbol y =>
    cases y with
    | leftParen => exact (echoes_parenthesized echoing).inside
    | leftBracket => exact (echoes_listDisplay echoing).inside
    | leftBrace => exact (echoes_dictDisplay echoing).inside
    | _ => exact echoes_unexpected
  | newline | indent | dedent => exact echoes_unexpected

/-! ### Operators -/

theorem echoes_argument : EchoesOne base after (argument inner) := by
  refine echoes_peek fun t => ?_
  cases t with
  | name id =>
    refine echoes_peekSecond rfl fun t₂ => ?_
    split
    · exact echoes_peekSpan.bind fun _ _ _ => echoes_fail
    · exact (echoes_namedTest echoing).inside.ahead
  | _ => exact echoes_peekSecond_any fun _ _ => (echoes_namedTest echoing).inside

theorem echoes_trailer {expr expr' : NodeId} (same : Shift base expr expr') :
    Echoes (Inside base after) (trailer inner expr) (trailer inner expr')
      (Turned (Shift base) (Inside base after)) := by
  subst same
  refine echoes_peek fun t => ?_
  cases t with
  | symbol y =>
    cases y with
    | leftParen =>
      refine (echoes_advance_at rfl).bind fun _ _ _ => ?_
      refine (echoes_itemsBefore (R := ShiftAll base) _ (fun items items' h => ?_) rfl).bind
        fun args _ same => ?_
      · exact (echoes_argument echoing).mono (fun _ _ => id)
          fun _ _ _ _ ⟨one, stands⟩ => ⟨h.snoc one, stands⟩
      · subst same
        refine (echoes_expect rfl).bind fun _ _ _ => (echoes_spanOf _ _).bind fun _ _ _ => ?_
        exact (echoes_push (.call expr args) _ _).bind fun _ _ same => echoes_goOn same
    | leftBracket =>
      refine (echoes_advance_at rfl).bind fun _ _ _ => ?_
      refine (echoes_testList echoing).bind fun index _ same => ?_
      subst same
      refine (echoes_expect rfl).bind fun _ _ _ => (echoes_spanOf _ _).bind fun _ _ _ => ?_
      exact (echoes_push (.subscript expr index) _ _).bind fun _ _ same => echoes_goOn same
    | dot =>
      refine (echoes_advance_at rfl).bind fun _ _ _ => echoes_expectName.bind fun named named' same => ?_
      obtain ⟨attr, stop⟩ := named
      obtain ⟨_, stop'⟩ := named'
      cases same
      refine (echoes_spanOf _ _).bind fun _ _ _ => ?_
      exact (echoes_push (.attribute expr attr) _ _).bind fun _ _ same => echoes_goOn same
    | _ => exact echoes_stop.inside
  | _ => exact echoes_stop.inside

theorem echoes_primary : EchoesOne base after (primary inner) := by
  refine (echoes_atom echoing).bind fun first _ same => ?_
  exact echoes_iterate (fun _ _ => echoes_trailer echoing) same

theorem echoes_power : EchoesOne base after (power inner) := by
  refine (echoes_primary echoing).bind fun first _ same => ?_
  subst same
  refine echoes_eat rfl ?_ (echoes_pure rfl)
  refine echoing.exponent.bind fun exponent _ same => ?_
  subst same
  exact echoes_pushBetween (.binary first .pow exponent) _ _ _ _

theorem echoes_factor : EchoesOne base after (factor inner) := by
  refine echoes_peek fun t => ?_
  cases signed : sign? (some t) with
  | some op =>
    have inLine : isLayout t = false := by
      unfold sign? at signed
      split at signed <;> first | (cases ‹some t = _›; rfl) | cases signed
    refine (echoes_advance_at inLine).bind fun _ _ _ => echoing.signed.bind fun operand _ same => ?_
    subst same
    exact (echoes_spanOf _ _).bind fun _ _ _ => echoes_push (.unary op operand) _ _
  | none => exact (echoes_power echoing).inside

omit echoing in
theorem echoes_leftChain {op? : Option Token → Option BinaryOp} {operand : Parse NodeId}
    (ops : ∀ t op, op? (some t) = some op → isLayout t = false) (each : EchoesOne base after operand) :
    EchoesOne base after (leftChain op? operand) := by
  refine each.bind fun first _ same => echoes_iterate (fun left _ same => ?_) same
  subst same
  refine echoes_peek fun t => ?_
  cases found : op? (some t) with
  | some op =>
    refine (echoes_advance_at (ops t op found)).bind fun _ _ _ => each.bind fun right _ same => ?_
    subst same
    exact (echoes_pushBetween (.binary left op right) _ _ _ _).bind fun _ _ same => echoes_goOn same
  | none => exact echoes_stop.inside

theorem echoes_term : EchoesOne base after (term inner) := by
  refine echoes_leftChain (fun t op found => ?_) (echoes_factor echoing)
  unfold termOp? at found
  split at found <;> first | (cases ‹some t = _›; rfl) | cases found

theorem echoes_sum : EchoesOne base after (sum inner) := by
  refine echoes_leftChain (fun t op found => ?_) (echoes_term echoing)
  unfold sumOp? at found
  split at found <;> first | (cases ‹some t = _›; rfl) | cases found

omit echoing in
/-- The tokens of a comparison are in a line. -/
theorem compareOp?_layout {o : Option Token} (h : compareOp? (some t) o = some (op, size)) :
    isLayout t = false ∧ (size = 2 → ∀ t₂, o = some t₂ → isLayout t₂ = false) := by
  unfold compareOp? at h
  split at h <;> cases h <;> cases ‹some t = _› <;> refine ⟨rfl, fun two t₂ second => ?_⟩ <;>
    first | omega | (cases second; rfl)

/-- The same links in the second run. -/
abbrev ShiftLinks (base : List NodeKind) (links links' : List (CompareOp × NodeId)) : Prop :=
  links' = links.map fun p => (p.1, base.length + p.2)

theorem echoes_link {links links' : List (CompareOp × NodeId)} (same : ShiftLinks base links links') :
    Echoes (Inside base after) (link inner links) (link inner links')
      (Turned (ShiftLinks base) (Inside base after)) := by
  subst same
  refine echoes_peek fun t => ?_
  have operand (op : CompareOp) : Echoes (Inside base after)
      (sum inner >>= fun x => pure (some (links ++ [(op, x)])))
      (sum inner >>= fun x => pure (some (links.map (fun p => (p.1, base.length + p.2)) ++ [(op, x)])))
      (Turned (ShiftLinks base) (Inside base after)) := by
    refine (echoes_sum echoing).bind fun right _ same => ?_
    subst same
    exact echoes_goOn (by rw [ShiftLinks, List.map_append, List.map_singleton])
  cases inLine : isLayout t with
  | true =>
    refine echoes_peekSecond_any fun o o' => ?_
    have none (o : Option Token) : compareOp? (some t) o = none := by
      cases found : compareOp? (some t) o with
      | none => rfl
      | some p => rw [(compareOp?_layout found).1] at inLine; cases inLine
    rw [none, none]
    exact echoes_stop.inside
  | false =>
    refine echoes_peekSecond inLine fun t₂ => ?_
    cases found : compareOp? (some t) (some t₂) with
    | none => exact echoes_stop.inside.ahead
    | some p =>
      obtain ⟨op, size⟩ := p
      refine echoes_advance_ahead.bind fun _ _ _ => ?_
      refine echoes_ite (fun two => ?_) fun _ => (operand op).inside
      exact (echoes_advance_at ((compareOp?_layout found).2 two t₂ rfl)).bind fun _ _ _ => operand op

theorem echoes_comparison : EchoesOne base after (comparison inner) := by
  refine (echoes_sum echoing).bind fun left _ same => ?_
  subst same
  refine (echoes_iterate (R := ShiftLinks base) (fun _ _ => echoes_link echoing) rfl).bind
    fun links _ same => ?_
  subst same
  cases links with
  | nil => exact echoes_pure rfl
  | cons first others =>
    have same : NodeKind.compare (base.length + left)
        (((first :: others).map fun p => (p.1, base.length + p.2)).map (·.1))
        (((first :: others).map fun p => (p.1, base.length + p.2)).map (·.2)) =
          (NodeKind.compare left ((first :: others).map (·.1)) ((first :: others).map (·.2))).rename
            (base.length + ·) := by
      simp [NodeKind.rename]
    have pushed (a b a' b' : NodeId) : Echoes (Inside base after) (pushBetween
        (.compare left ((first :: others).map (·.1)) ((first :: others).map (·.2))) a b) _ _ :=
      echoes_pushBetween _ a b a' b'
    rw [← same] at pushed
    exact pushed _ _ _ _

theorem echoes_notTest : EchoesOne base after (notTest inner) := by
  refine echoes_peek fun t => echoes_ite (fun negated => ?_) fun _ => (echoes_comparison echoing).inside
  cases negated
  refine (echoes_advance_at rfl).bind fun _ _ _ => echoing.negated.bind fun operand _ same => ?_
  subst same
  exact (echoes_spanOf _ _).bind fun _ _ _ => echoes_push (.unary .not operand) _ _

omit echoing in
theorem echoes_wordChain {operand : Parse NodeId} (word : Keyword) (op : BoolOp)
    (each : EchoesOne base after operand) : EchoesOne base after (wordChain word op operand) := by
  refine each.bind fun first _ same => ?_
  subst same
  refine echoes_peek fun t => Echoes.inside (echoes_ite (fun _ => echoes_pure rfl) fun _ => ?_)
  refine (echoes_more (R := ShiftAll base) (echoes_eatOnly rfl) each ShiftAll.snoc rfl).bind
    fun values _ same => ?_
  subst same
  exact echoes_pushBetween (.boolean op values) _ _ _ _

theorem echoes_andTest : EchoesOne base after (andTest inner) :=
  echoes_wordChain .andKw .and (echoes_notTest echoing)

theorem echoes_orTest : EchoesOne base after (orTest inner) :=
  echoes_wordChain .orKw .or (echoes_andTest echoing)

theorem echoes_conditional : EchoesOne base after (conditional inner) := by
  refine (echoes_orTest echoing).bind fun body _ same => ?_
  subst same
  refine echoes_peek fun t => echoes_ite (fun _ => Echoes.inside (echoes_pure rfl)) fun chosen => ?_
  cases Classical.not_not.mp chosen
  refine (echoes_advance_at rfl).bind fun _ _ _ => (echoes_orTest echoing).bind fun test _ same => ?_
  subst same
  refine (echoes_expect rfl).bind fun _ _ _ => echoing.test.bind fun orelse _ same => ?_
  subst same
  exact echoes_pushBetween (.conditional test body orelse) _ _ _ _

end Expressions

end Scratchpad.Parse
