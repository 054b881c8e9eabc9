import Scratchpad.Proofs.Code.Expression
import Scratchpad.Proofs.Machine.Moves

/-!
# Expressions keep their meaning

The code of an expression puts on the stack the value that the expression has on the tree, and
fails or goes on for ever where it does (`expression_keeps_meaning`). The induction is over the rules that
make the code; a chain of comparisons has two ways out, which meet behind it.
-/

namespace Scratchpad

open Lower

namespace Site

variable {site : Site} {c : Context} {s : Scene c.slots}

/-! ### Names -/

theorem exec_lift {x : Except Fault Frame} {w : World} :
    (do return Turn.go (← x).next : Eval Turn) w = Eval.lift (x.map fun f => .go f.next) w := by
  cases x <;> rfl

theorem loadFast_eq (unit : site.code.locals = c.locals.toArray)
    (found : c.locals.findIdx? (· = name) = some slot) :
    (site.frame pc stack iters s).loadFast slot =
      (c.lookup s name).map fun v => site.frame pc (v :: stack) iters s := by
  obtain ⟨lt, same, _⟩ := List.findIdx?_eq_some_iff_getElem.mp found
  have named : site.code.locals[slot]? = some name := by
    rw [unit]
    simpa [lt] using same
  have inside : s.locals.toArray[slot]? = s.locals[slot]? := by simp
  unfold Frame.loadFast Context.lookup
  simp only [frame, found, named, inside, Vector.getElem?_eq_getElem lt]
  cases s.locals[slot] with
  | some v => rfl
  | none => rfl

theorem loadName_eq (absent : c.locals.findIdx? (· = name) = none)
    (entry : site.code.names[i]? = some name) :
    (site.frame pc stack iters s).loadName s.world i =
      (c.lookup s name).map fun v => site.frame pc (v :: stack) iters s := by
  unfold Frame.loadName Context.lookup Frame.name
  simp only [frame, absent, entry]
  dsimp only [bind, Except.bind]
  cases s.world.globals.get? name with
  | some v => rfl
  | none =>
    dsimp only
    cases Builtin.ofName? name with
    | some b => rfl
    | none => rfl

theorem moves_load (unit : site.code.locals = c.locals.toArray)
    (load : Named c name .loadFast .loadName span t seg t') (tables : t'.Le site.code.tables)
    (placed : Placed site.code stop pos seg) :
    site.Moves pos (pos + seg.length) [] (fun v => [v]) (c.load name) := by
  intro stack iters s
  have does : ∃ i, site.code.instructions[pos]? = some i ∧
      (site.frame pos stack iters s).exec i s.world =
        Eval.lift (((c.lookup s name).map fun v => site.frame pos (v :: stack) iters s).map
          fun f => .go f.next) s.world := by
    cases load with
    | slot found =>
      refine ⟨_, (placed_cons.mp placed).1, ?_⟩
      rw [← loadFast_eq unit found]
      exact exec_lift
    | global absent _ entry =>
      refine ⟨_, (placed_cons.mp placed).1, ?_⟩
      rw [← loadName_eq absent (tables.names entry)]
      exact exec_lift
  have one : seg.length = 1 := by cases load <;> rfl
  obtain ⟨i, here, does⟩ := does
  rw [one]
  unfold Context.load
  cases found : c.lookup s name with
  | ok v =>
    rw [found] at does
    exact ⟨_, .single (step_go here does), rfl⟩
  | error fault =>
    rw [found] at does
    exact fails_here here does

theorem storeFast_eq {s : Scene slots} (lt : slot < slots) :
    (site.frame pc (v :: stack) iters s).storeFast slot =
      .ok (site.frame pc stack iters { s with locals := s.locals.setIfInBounds slot (some v) }) := by
  change (if slot < s.locals.toArray.size then _ else _ : Except Fault Frame) = _
  rw [if_pos (by simpa using lt)]
  simp [frame]
  rfl

theorem moves_assign (store : Named c name .storeFast .storeName span t seg t')
    (tables : t'.Le site.code.tables) (placed : Placed site.code stop pos seg) :
    site.Moves pos (pos + seg.length) [v] (fun _ => []) (c.assign name v) := by
  intro stack iters s
  cases store with
  | @slot slot found =>
    obtain ⟨lt, _⟩ := List.findIdx?_eq_some_iff_getElem.mp found
    have does : (site.frame pos (v :: stack) iters s).exec (.storeFast slot) s.world = _ := exec_lift
    rw [storeFast_eq lt] at does
    refine ⟨_, .single (step_go (placed_cons.mp placed).1 does), ?_⟩
    unfold Context.bind
    rw [found]
    rfl
  | @global i _ absent _ entry =>
    have named : (site.frame pos (v :: stack) iters s).name i = .ok name := by
      unfold Frame.name
      rw [show (site.frame pos (v :: stack) iters s).code.names[i]? = some name from
        tables.names entry]
    have does : (site.frame pos (v :: stack) iters s).exec (.storeName i) s.world =
        .ok (.go (site.frame (pos + 1) stack iters s),
          { s.world with globals := s.world.globals.insert name v }) := by
      simp only [Frame.exec]
      rw [named]
      rfl
    refine ⟨_, .single (step_go (placed_cons.mp placed).1 does), ?_⟩
    unfold Context.bind
    rw [absent]
    rfl

/-! ### Choices -/

theorem follows_truthy {f : Bool → Meaning slots α} {Q : α → Scene slots → Machine → Prop}
    {s : Scene slots} (here : site.code.instructions[pos]? = some (.popJumpIfFalse target))
    (yes : site.Follows (site.machine (pos + 1) stack iters s) Q (f true s))
    (no : site.Follows (site.machine target stack iters s) Q (f false s)) :
    site.Follows (site.machine pos (v :: stack) iters s) Q ((Meaning.truthy v >>= f) s) := by
  change site.Follows _ _ (f (s.world.store.truthy v) s)
  have does : (site.frame pos (v :: stack) iters s).exec (.popJumpIfFalse target) s.world =
      .ok (.go ((site.frame pos stack iters s).branch (!s.world.store.truthy v) target),
        s.world) := rfl
  refine .of_step (step_go here does) ?_
  cases s.world.store.truthy v with
  | true => exact yes
  | false => exact no

/-- An operand that settles the operation stays on the stack, any other is dropped. -/
theorem moves_choice {others : Meaning slots Value}
    (here : site.code.instructions[pos]? = some (choiceJump op stop))
    (rest : site.Moves (pos + 1) stop [] (fun v => [v]) others) :
    site.Moves pos stop [v] (fun v => [v])
      (do if (← Meaning.truthy v) = Meaning.settling op then return v else others) := by
  intro stack iters s
  change site.Follows _ _ ((if s.world.store.truthy v = Meaning.settling op then pure v
    else others : Meaning slots Value) s)
  have does : (site.frame pos ([v] ++ stack) iters s).exec (choiceJump op stop) s.world =
      .ok (.go (if s.world.store.truthy v = Meaning.settling op then site.frame stop (v :: stack) iters s
        else site.frame (pos + 1) stack iters s), s.world) := by
    cases op <;>
    · change Except.ok (Turn.go (if s.world.store.truthy v then _ else _), s.world) = _
      cases s.world.store.truthy v <;> rfl
  refine .of_step (step_go here does) ?_
  by_cases settled : s.world.store.truthy v = Meaning.settling op
  · rw [if_pos settled, if_pos settled]
    exact .pure rfl
  · rw [if_neg settled, if_neg settled]
    exact rest stack iters s

theorem moves_conditional {test yes no : Meaning slots Value}
    (tested : site.Moves pos mid [] (fun v => [v]) test)
    (branch : site.code.instructions[mid]? = some (.popJumpIfFalse other))
    (taken : site.Moves (mid + 1) bodyEnd [] (fun v => [v]) yes)
    (jump : site.code.instructions[bodyEnd]? = some (.jump stop))
    (orelse : site.Moves other stop [] (fun v => [v]) no) :
    site.Moves pos stop [] (fun v => [v]) (do
      let v ← test
      if ← Meaning.truthy v then yes else no) :=
  tested.bind fun _ stack iters s =>
    follows_truthy branch (taken.jump jump stack iters s) (orelse stack iters s)

/-! ### Expressions -/

/-- What the code of a part does from `pos` on, where values below it are given by `value`. -/
def Means (site : Site) (c : Context) (value : NodeId → Meaning c.slots Value) (pos len : Nat) :
    Part → Prop
  | .value id => site.Moves pos (pos + len) [] (fun v => [v]) (value id)
  | .values ids => site.Moves pos (pos + len) [] List.reverse (ids.mapM value)
  | .choice _ op ids =>
    site.Moves pos (pos + len) [] (fun v => [v]) (Meaning.choice op value ids)
  | .links _ chain => ∀ left exit stop, exit = pos + len →
    -- the way out behind the last link, and the one of a false link, with an operand below
    (∀ v, site.Moves exit stop [v] (fun v => [v]) (pure v : Meaning c.slots Value)) →
    (1 < chain.length →
      ∀ v w, site.Moves (exit + 1) stop [v, w] (fun v => [v]) (pure v : Meaning c.slots Value)) →
    site.Moves pos stop [left] (fun v => [v]) (Meaning.links value left chain)

theorem constant_eq (h : site.code.constants[i]? = some k) (s : Scene slots) :
    (site.frame pc stack iters s).constant i = .ok k := by
  unfold Frame.constant
  rw [show (site.frame pc stack iters s).code.constants[i]? = some k from h]

theorem name_eq (h : site.code.names[i]? = some name) (s : Scene slots) :
    (site.frame pc stack iters s).name i = .ok name := by
  unfold Frame.name
  rw [show (site.frame pc stack iters s).code.names[i]? = some name from h]

theorem moves_literal (here : site.code.instructions[pos]? = some (.loadConst i))
    (entry : site.code.constants[i]? = some (.literal l)) :
    site.Moves pos (pos + 1) [] (fun v => [v]) (pure l.value : Meaning slots Value) := by
  refine .of_next _ here (fun stack iters s => ?_) (moves_pure rfl)
  simp only [Frame.exec, Frame.loadConst]
  rw [constant_eq entry]
  rfl

theorem moves_attribute (here : site.code.instructions[pos]? = some (.loadAttr i))
    (named : site.code.names[i]? = some attr) :
    site.Moves pos (pos + 1) [o] (fun v => [v])
      (Meaning.ofEval (Subscript.loadAttribute o attr) : Meaning slots Value) := by
  refine moves_exec here fun stack iters s => ?_
  simp only [Frame.exec]
  rw [name_eq named]
  rfl

/-- An instruction that takes the topmost values for its items. -/
theorem moves_popN {y : Eval Value} (here : site.code.instructions[pos]? = some i)
    (does : ∀ stack iters (s : Scene slots),
      (site.frame pos (items.reverse ++ stack) iters s).popN items.length =
        .ok (items, site.frame pos stack iters s) →
      (site.frame pos (items.reverse ++ stack) iters s).exec i =
        do return .go (site.frame (pos + 1) ((← y) :: stack) iters s)) :
    site.Moves pos (pos + 1) items.reverse (fun v => [v]) (Meaning.ofEval y : Meaning slots Value) :=
  moves_exec here fun stack iters s => does stack iters s (Frame.popN_reverse rfl)

theorem moves_compare (here : site.code.instructions[pos]? = some (.compare op)) :
    site.Moves pos (pos + 1) [right, left] (fun holds => [.bool holds])
      (Meaning.ofEval (Eval.ask (Operator.compare · op left right)) : Meaning slots Bool) :=
  moves_exec here fun _ _ _ => rfl

/-- Behind a chain of comparisons both ways out meet, with only the result left. -/
theorem moves_linkEnd {chain : List (CompareOp × NodeId)}
    (placed : Placed site.code stop pos (linkEnd span pos chain)) :
    (∀ v, site.Moves pos (pos + (linkEnd span pos chain).length) [v] (fun v => [v])
      (pure v : Meaning slots Value)) ∧
    (1 < chain.length → ∀ v w, site.Moves (pos + 1) (pos + (linkEnd span pos chain).length) [v, w]
      (fun v => [v]) (pure v : Meaning slots Value)) := by
  unfold linkEnd at placed ⊢
  by_cases short : chain.length ≤ 1
  · rw [if_pos short] at placed ⊢
    exact ⟨fun v => moves_pure rfl, fun long => by omega⟩
  · rw [if_neg short] at placed ⊢
    simp only [placed_cons] at placed
    obtain ⟨jump, rotate, drop, _⟩ := placed
    exact ⟨fun v => (moves_pure rfl).jump jump, fun _ v w =>
      .of_next [w, v] rotate (fun _ _ _ => rfl) <|
        .of_next [v] drop (fun _ _ _ => rfl) (moves_pure rfl)⟩

/-- A link that is not the last keeps its right operand for the next, and is left early if it is false. -/
theorem moves_link {value : NodeId → Meaning slots Value}
    (valued : site.Moves pos mid [] (fun v => [v]) (value a))
    (copy : site.code.instructions[mid]? = some .dupTop)
    (rotate : site.code.instructions[mid + 1]? = some .rotThree)
    (compare : site.code.instructions[mid + 2]? = some (.compare op))
    (branch : site.code.instructions[mid + 3]? = some (.jumpIfFalseOrPop exit))
    (early : ∀ v w, site.Moves exit stop [v, w] (fun v => [v]) (pure v : Meaning slots Value))
    (rest : ∀ right, site.Moves (mid + 4) stop [right] (fun v => [v])
      (Meaning.links value right (l :: ls))) :
    site.Moves pos stop [left] (fun v => [v]) (Meaning.links value left ((op, a) :: l :: ls)) := by
  refine (valued.above [left]).bind fun right => ?_
  refine .of_next [right, right, left] copy (fun _ _ _ => rfl) ?_
  refine .of_next [right, left, right] rotate (fun _ _ _ => rfl) ?_
  refine ((moves_compare compare).above [right]).bind fun holds => ?_
  cases holds with
  | true => exact .of_next [right] branch (fun _ _ _ => rfl) (rest right)
  | false => exact .of_step _ [.bool false, right] branch (fun _ _ _ => rfl) (early _ _)

theorem length_of_mapM {value : NodeId → Meaning slots Value} {ids : List NodeId}
    (h : ∃ s s', ids.mapM value s = some (.ok items, s')) : items.length = ids.length := by
  obtain ⟨s, s', h⟩ := h
  induction ids generalizing items s with
  | nil => cases h; rfl
  | cons id ids ih =>
    rw [List.mapM_cons] at h
    obtain ⟨v, s₁, _, h⟩ := Meaning.bind_ok h
    obtain ⟨vs, s₂, rest, h⟩ := Meaning.bind_ok h
    cases h
    rw [List.length_cons, List.length_cons, ih s₁ rest]

theorem fits_cons {t : Tree} {a : NodeId} {as : List NodeId} (h : ∀ x ∈ a :: as, t.Fits d x) :
    (∀ x ∈ [a], t.Fits d x) ∧ ∀ x ∈ as, t.Fits d x :=
  List.forall_mem_append.mp h

theorem length_entries {keys values : List NodeId} (even : keys.length = values.length) :
    (entries keys values).length = 2 * keys.length := by
  unfold entries
  rw [List.length_flatMap]
  simp [even, Nat.mul_comm]

/-- The value of a node is that of its form, the nodes below having less depth. -/
theorem moves_value {id : NodeId} {calls : Nat} (found : c.tree.get? id = some ⟨kind, span⟩)
    (fits : ∀ x ∈ [id], c.tree.Fits depth x)
    (h : ∀ below, (∀ child ∈ kind.children, c.tree.Fits below child) →
      site.Moves pos stop before after
        (Meaning.expression c calls (Meaning.value c calls below) kind)) :
    site.Moves pos stop before after (Meaning.value c calls depth id) := by
  cases depth with
  | zero => exact (fits id List.mem_cons_self).elim
  | succ below =>
    obtain ⟨kind', found', fit⟩ := fits id List.mem_cons_self
    have known := kind?_of_get? found
    rw [known] at found'
    cases found'
    unfold Meaning.value
    rw [known]
    exact h below fit

theorem means_of_makes (unit : site.code.locals = c.locals.toArray)
    (made : Makes c part t pos seg t') (tables : t'.Le site.code.tables)
    (placed : Placed site.code stop pos seg)
    (fits : ∀ id ∈ part.nodes, c.tree.Fits depth id) :
    site.Means c (Meaning.value c (site.limit - site.callers.length) depth) pos seg.length part := by
  induction made generalizing depth with
  | literal found entry =>
    refine moves_value found fits fun below fit => ?_
    exact moves_literal (placed_cons.mp placed).1 (tables.constants (constant_ok entry).2)
  | name found load =>
    refine moves_value found fits fun below fit => ?_
    exact moves_load unit (loadName_ok load) tables placed
  | unary found arg ih =>
    refine moves_value found fits fun below fit => ?_
    simp only [placed_append, placed_cons] at placed
    obtain ⟨first, here, _⟩ := placed
    rw [List.length_append]
    exact (ih tables first fit).bind fun v => moves_exec here fun _ _ _ => rfl
  | boolean found nonempty chain ih =>
    refine moves_value found fits fun below fit => ?_
    exact ih tables placed fit
  | compare found nonempty even left chain ih ih' =>
    refine moves_value found fits fun below fit => ?_
    simp only [List.append_assoc, placed_append] at placed
    obtain ⟨first, second, last⟩ := placed
    obtain ⟨fit, fit'⟩ := fits_cons fit
    rw [← List.map_snd_zip (Nat.le_of_eq even.symm)] at fit'
    refine (ih (chain.le.trans tables) first fit).bind fun v => ?_
    rw [List.length_append, List.length_append, ← Nat.add_assoc, ← Nat.add_assoc]
    exact ih' tables second fit' v _ _ rfl (moves_linkEnd last).1 (moves_linkEnd last).2
  | conditional found test body orelse ih ih' ih'' =>
    refine moves_value found fits fun below fit => ?_
    simp only [List.append_assoc, List.cons_append, placed_append, placed_cons] at placed
    obtain ⟨first, branch, second, jump, third⟩ := placed
    obtain ⟨fit, fit'⟩ := fits_cons fit
    obtain ⟨fit', fit''⟩ := fits_cons fit'
    apply Moves.ends
    · exact moves_conditional (ih ((body.le.trans orelse.le).trans tables) first fit) branch
        (ih' (orelse.le.trans tables) second fit') jump (ih'' tables third fit'')
    · simp; omega
  | named found value store ih =>
    refine moves_value found fits fun below fit => ?_
    simp only [placed_append, placed_cons] at placed
    obtain ⟨first, copy, second⟩ := placed
    have stored := storeName_ok store
    apply Moves.ends
    · exact (ih (stored.le.trans tables) first fit).bind fun v =>
        .of_next [v, v] copy (fun _ _ _ => rfl)
          (((moves_assign stored tables second).above [v]).bind fun _ => moves_pure rfl)
    · simp; omega
  | list found items ih | tuple found items ih =>
    refine moves_value found fits fun below fit => ?_
    simp only [placed_append, placed_cons] at placed
    obtain ⟨first, here, _⟩ := placed
    rw [List.length_append]
    refine (ih tables first fit).bind_of fun items given => ?_
    rw [← length_of_mapM given] at here
    refine moves_popN here fun stack iters s popped => ?_
    simp only [Frame.exec, Item.within]
    rw [popped]
    rfl
  | dict found even items ih =>
    refine moves_value found fits fun below fit => ?_
    simp only [placed_append, placed_cons] at placed
    obtain ⟨first, here, _⟩ := placed
    rw [List.length_append]
    refine (ih tables first fit).bind_of fun items given => ?_
    refine moves_popN here fun stack iters s popped => ?_
    rw [length_of_mapM given, length_entries even] at popped
    simp only [Frame.exec, Item.within]
    rw [popped, bind_assoc]
    rfl
  | binary found _ right ih ih' | subscript found _ right ih ih' =>
    refine moves_value found fits fun below fit => ?_
    simp only [placed_append, placed_cons] at placed
    obtain ⟨first, second, here, _⟩ := placed
    obtain ⟨fit, fit'⟩ := fits_cons fit
    apply Moves.ends
    · exact (ih (right.le.trans tables) first fit).bind fun a =>
        ((ih' tables second fit').above [a]).bind fun b => moves_exec here fun _ _ _ => rfl
    · simp; omega
  | call found func args ih ih' =>
    refine moves_value found fits fun below fit => ?_
    simp only [placed_append, placed_cons] at placed
    obtain ⟨first, second, here, _⟩ := placed
    obtain ⟨fit, fit'⟩ := fits_cons fit
    apply Moves.ends
    · exact (ih (args.le.trans tables) first fit).bind fun f =>
        ((ih' tables second fit').above [f]).bind_of fun args given =>
          moves_call (length_of_mapM given ▸ here)
    · simp; omega
  | «attribute» found value entry ih =>
    refine moves_value found fits fun below fit => ?_
    simp only [placed_append, placed_cons] at placed
    obtain ⟨first, here, _⟩ := placed
    obtain ⟨le, entered⟩ := nameIndex_ok entry
    rw [List.length_append]
    exact (ih (le.trans tables) first fit).bind fun v => moves_attribute here (tables.names entered)
  | none => exact moves_pure rfl
  | cons first rest ih ih' =>
    obtain ⟨placed, placed'⟩ := placed_append.mp placed
    obtain ⟨fit, fit'⟩ := fits_cons fits
    simp only [Means, List.mapM_cons]
    apply Moves.ends
    · exact (ih (rest.le.trans tables) placed fit).bind fun v =>
        ((ih' tables placed' fit').above [v]).bind fun vs => moves_pure (List.reverse_cons ..)
    · simp; omega
  | lastChoice last ih => exact ih tables placed fits
  | choice first rest ih ih' =>
    simp only [placed_append, placed_cons] at placed
    obtain ⟨placed, here, placed'⟩ := placed
    obtain ⟨fit, fit'⟩ := fits_cons fits
    apply Moves.ends
    · exact (ih (rest.le.trans tables) placed fit).bind fun v =>
        moves_choice here (ih' tables placed' fit')
    · simp; omega
  | lastLink right ih =>
    simp only [placed_append, placed_cons] at placed
    obtain ⟨first, here, _⟩ := placed
    intro left exit stop exitAt last _
    rw [List.length_append] at exitAt
    subst exitAt
    exact ((ih tables first fits).above [left]).bind fun right =>
      (moves_compare here).bind fun holds => last (.bool holds)
  | link right rest stopAt ih ih' =>
    simp only [List.append_assoc, List.cons_append, List.nil_append, placed_append,
      placed_cons] at placed
    obtain ⟨first, copy, rotate, compare, branch, placed'⟩ := placed
    obtain ⟨fit, fit'⟩ := fits_cons fits
    intro left exit stop exitAt last early
    simp only [List.length_append, List.length_cons, List.length_nil] at exitAt
    rw [stopAt.trans (by omega : _ = exit + 1)] at branch
    exact moves_link (ih (rest.le.trans tables) first fit) copy rotate compare branch (early (by simp))
      fun right => ih' tables placed' fit' right exit stop (by omega) last fun _ => early (by simp)

end Site

/-- The code of an expression, wherever it stands, does what the expression means on the tree. -/
theorem expression_keeps_meaning {c : Context} {id : NodeId} {t t' : Tables} {seg : Segment}
    (lowered : Lower.expression c room span pos id t = .ok (seg, t')) (site : Site)
    (placed : Placed site.code stop pos seg) (tables : t'.Le site.code.tables)
    (unit : site.code.locals = c.locals.toArray)
    (stack : List Value) (iters : List Iter) (s : Scene c.slots) :
    site.Follows (site.machine pos stack iters s)
      (fun v s' m' => m' = site.machine (pos + seg.length) (v :: stack) iters s')
      (Meaning.value c (site.limit - site.callers.length) c.tree.size id s) := by
  have made := expression_makes c room span pos id t seg t' lowered
  have fits : ∀ x ∈ [id], c.tree.Fits c.tree.size x := fun x mem => (made.shaped x mem).fits
  exact Site.means_of_makes unit made tables placed fits stack iters s

/-- The expression `1 < (x := 2) < 3`. -/
def chainedComparison : Context where
  tree.nodes := #[⟨.literal (.int 1), {}⟩, ⟨.literal (.int 2), {}⟩, ⟨.named "x" 1, {}⟩,
    ⟨.literal (.int 3), {}⟩, ⟨.compare 0 [.lt, .lt] [2, 3], {}⟩]
  tree.root := .expression 4
  mode := .eval

theorem chainedComparison_keeps_meaning :
    ∃ seg t', Lower.expression chainedComparison 3 {} 0 4 {} = .ok (seg, t') ∧
      let site : Site := ⟨finish chainedComparison "" 0 seg t', [], 10⟩
      Machine.Reaches 10 (site.machine 0 [] [] (⟨#v[], {}⟩ : Scene 0))
        (site.machine (0 + seg.length) [.bool true] []
          (⟨#v[], { globals := ⟨[("x", .int 2)]⟩ }⟩ : Scene 0)) := by
  obtain ⟨seg, t', lowered⟩ :
      ∃ seg t', Lower.expression chainedComparison 3 {} 0 4 {} = .ok (seg, t') := ⟨_, _, by cbv⟩
  have means : Meaning.value chainedComparison 10 chainedComparison.tree.size 4 ⟨#v[], {}⟩ =
      some (.ok (.bool true), ⟨#v[], { globals := ⟨[("x", .int 2)]⟩ }⟩) := by cbv
  have follows := expression_keeps_meaning lowered ⟨finish chainedComparison "" 0 seg t', [], 10⟩
    (placed_finish chainedComparison "" 0 seg t') (.refl _) rfl [] [] ⟨#v[], {}⟩
  rw [show _ - _ = 10 from rfl, means] at follows
  obtain ⟨m', path, rfl⟩ := follows
  exact ⟨seg, t', lowered, path⟩

end Scratchpad
