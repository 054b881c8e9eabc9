import Scratchpad.Proofs.Code.Statement
import Scratchpad.Proofs.Meaning.Expression

/-!
# Statements keep their meaning

The code of statements does what they mean on the tree (`statements_keep_meaning`). A statement is
left in one of four ways, and `Lands` says where the machine is then: `break` has dropped the
iterator of its loop, `continue` is about to jump back, and a `return` has its value on the stack.
A loop is followed turn by turn (`follows_loop`), also where it never ends.
-/

namespace Scratchpad

open Lower

namespace Site

variable {site : Site} {c : Context}

/-! ### Targets -/

theorem moves_unpack (here : site.code.instructions[pos]? = some (.unpack n)) :
    site.Moves pos (pos + 1) [v] (fun items => items)
      (Meaning.ofEval (Meaning.unpack n v) : Meaning slots (List Value)) := by
  refine moves_exec here fun stack iters s => funext fun w => ?_
  change Eval.lift (w.store.items v >>= _ : Except Fault Frame) w >>= _ =
    Eval.lift (w.store.items v >>= _ : Except Fault (List Value)) w >>= _
  cases w.store.items v with
  | error fault => rfl
  | ok items =>
    change Eval.lift (if items.size < n then _ else if n < items.size then _ else _ :
      Except Fault Frame) w >>= _ = Eval.lift (if items.size < n then _ else if n < items.size then _
        else _ : Except Fault (List Value)) w >>= _
    by_cases few : items.size < n
    · rw [if_pos few, if_pos few]
      rfl
    · by_cases many : n < items.size
      · rw [if_neg few, if_neg few, if_pos many, if_pos many]
        rfl
      · rw [if_neg few, if_neg few, if_neg many, if_neg many]
        rfl

theorem length_of_unpack (h : ∃ w w', Meaning.unpack n v w = .ok (items, w')) :
    items.length = n := by
  obtain ⟨w, w', h⟩ := h
  unfold Meaning.unpack Eval.ask at h
  dsimp only at h
  cases found : w.store.items v with
  | error fault => rw [found] at h; cases h
  | ok all =>
    rw [found] at h
    change Eval.lift (if all.size < n then _ else if n < all.size then _ else _ :
      Except Fault (List Value)) w = _ at h
    by_cases few : all.size < n
    · rw [if_pos few] at h; cases h
    · by_cases many : n < all.size
      · rw [if_neg few, if_pos many] at h; cases h
      · rw [if_neg few, if_neg many] at h
        cases h
        rw [Array.length_toList]
        omega

/-- A container and its index, evaluated in this order and left on the stack. -/
theorem moves_pair (unit : site.code.locals = c.locals.toArray)
    (made : Makes c (.values [a, b]) t pos seg t') (tables : t'.Le site.code.tables)
    (placed : Placed site.code loopEnd pos seg) (fits : ∀ id ∈ [a, b], c.tree.Fits depth id)
    {f : Value → Value → Meaning c.slots α}
    (rest : ∀ o key, site.Moves (pos + seg.length) stop ([key, o] ++ before) after (f o key)) :
    site.Moves pos stop before after (do
      let o ← Meaning.value c (site.limit - site.callers.length) depth a
      let key ← Meaning.value c (site.limit - site.callers.length) depth b
      f o key) := by
  obtain ⟨fit, fit'⟩ := fits_cons fits
  cases made with
  | cons first others =>
    cases others with
    | cons second none =>
      cases none
      simp only [List.append_nil, placed_append] at placed
      rw [List.append_nil, List.length_append, ← Nat.add_assoc] at rest
      refine ((means_of_makes unit first (second.le.trans tables) placed.1 fit).above before).bind fun o => ?_
      exact ((means_of_makes unit second tables placed.2 fit').above (o :: before)).bind (rest o)

theorem moves_storeAttribute (here : site.code.instructions[pos]? = some (.storeAttr i))
    (named : site.code.names[i]? = some attr) :
    site.Moves pos stop [o, v] after (Meaning.fault (Subscript.storeAttribute o attr) : Meaning slots Unit) := by
  refine moves_fault here fun stack iters s => ?_
  simp only [Frame.exec]
  rw [name_eq named]
  rfl

/-- What the code of a place does from `pos` on with the values it finds on the stack. -/
def Keeps (site : Site) (c : Context) (store : NodeId → Value → Meaning c.slots Unit)
    (pos stop : Nat) : Sink → Prop
  | .target id => ∀ v, site.Moves pos stop [v] (fun _ => []) (store id v)
  | .targets ids => ∀ items : List Value, items.length = ids.length →
    site.Moves pos stop items (fun _ => []) ((ids.zip items).forM fun (id, item) => store id item)
  | .copies _ ids => ∀ v, site.Moves pos stop [v] (fun _ => []) (ids.forM fun id => store id v)

/-- A target does what its form says, the nodes below having less depth. -/
theorem moves_target {id : NodeId} {calls : Nat} (found : c.tree.get? id = some ⟨kind, span⟩)
    (fits : ∀ x ∈ [id], c.tree.Fits depth x)
    (h : ∀ below, (∀ child ∈ kind.children, c.tree.Fits below child) →
      site.Moves pos stop before after
        (Meaning.target c (Meaning.value c calls below) (Meaning.store c calls below) v kind)) :
    site.Moves pos stop before after (Meaning.store c calls depth id v) := by
  cases depth with
  | zero => exact (fits id List.mem_cons_self).elim
  | succ below =>
    obtain ⟨kind', found', fit⟩ := fits id List.mem_cons_self
    have known := kind?_of_get? found
    rw [known] at found'
    cases found'
    unfold Meaning.store
    rw [known]
    exact h below fit

theorem keeps_of_stores (unit : site.code.locals = c.locals.toArray)
    (stores : Stores c place t pos seg t') (tables : t'.Le site.code.tables)
    (placed : Placed site.code loopEnd pos seg)
    (fits : ∀ id ∈ place.nodes, c.tree.Fits depth id) :
    site.Keeps c (Meaning.store c (site.limit - site.callers.length) depth) pos (pos + seg.length)
      place := by
  induction stores generalizing depth with
  | name found store =>
    intro v
    refine moves_target found fits fun below fit => ?_
    exact moves_assign (storeName_ok store) tables placed
  | subscript found made =>
    intro v
    refine moves_target found fits fun below fit => ?_
    simp only [placed_append, placed_cons] at placed
    obtain ⟨first, here, _⟩ := placed
    rw [List.length_append]
    exact moves_pair unit made tables first fit fun o key => moves_exec here fun _ _ _ => rfl
  | «attribute» found object entry =>
    intro v
    refine moves_target found fits fun below fit => ?_
    simp only [placed_append, placed_cons] at placed
    obtain ⟨first, here, _⟩ := placed
    obtain ⟨le, entered⟩ := nameIndex_ok entry
    rw [List.length_append]
    have value := means_of_makes unit object (le.trans tables) first fit
    exact (value.above [v]).bind fun o => moves_storeAttribute here (tables.names entered)
  | unpack found several items ih =>
    intro v
    refine moves_target found fits fun below fit => ?_
    obtain ⟨here, rest⟩ := placed_cons.mp placed
    rcases several with rfl | rfl
    all_goals
      apply Moves.ends
      · exact (moves_unpack here).bind_of fun items given =>
          ih tables rest fit items (length_of_unpack (Meaning.ofEval_ok given))
      · simp; omega
  | none =>
    intro items even
    rw [List.length_eq_zero_iff.mp even]
    exact moves_pure rfl
  | cons first rest ih ih' =>
    intro items even
    obtain ⟨placed, placed'⟩ := placed_append.mp placed
    obtain ⟨fit, fit'⟩ := fits_cons fits
    cases items with
    | nil => cases even
    | cons item items =>
      apply Moves.ends
      · exact ((ih (rest.le.trans tables) placed fit item).above items).bind fun _ =>
          ih' tables placed' fit' items (Nat.succ.inj even)
      · simp; omega
  | lastCopy last ih =>
    intro v
    exact (ih tables placed fits v).bind fun _ => moves_pure rfl
  | copy first rest ih ih' =>
    intro v
    obtain ⟨fit, fit'⟩ := fits_cons fits
    simp only [List.cons_append, placed_append, placed_cons] at placed
    obtain ⟨copy, placed, placed'⟩ := placed
    apply Moves.ends
    · exact .of_next [v, v] copy (fun _ _ _ => rfl) <|
        ((ih (rest.le.trans tables) placed fit v).above [v]).bind fun _ =>
          ih' tables placed' fit' v
    · simp; omega

theorem fits_below {t : Tree} {id : NodeId} (found : t.get? id = some ⟨kind, span⟩)
    (fits : ∀ x ∈ [id], t.Fits d x) : ∀ child ∈ kind.children, t.Fits d child := by
  cases d with
  | zero => exact (fits id List.mem_cons_self).elim
  | succ d =>
    obtain ⟨kind', found', fit⟩ := fits id List.mem_cons_self
    rw [kind?_of_get? found] at found'
    cases found'
    exact fun child mem => (fit child mem).mono (Nat.le_succ d)

theorem moves_makeFunction {code : Code}
    (here : site.code.instructions[pos]? = some (.makeFunction i))
    (known : site.code.constants[i]? = some (.code code)) :
    site.Moves pos (pos + 1) [] (fun v => [v])
      (Meaning.ofEval (Eval.make (·.newFunction ⟨code.name, code⟩)) : Meaning slots Value) := by
  refine moves_exec here fun stack iters s => ?_
  simp only [Frame.exec]
  rw [constant_eq known]
  rfl

theorem moves_binary (here : site.code.instructions[pos]? = some (.binary op)) :
    site.Moves pos (pos + 1) [right, left] (fun v => [v])
      (Meaning.ofEval (Operator.binary op left right) : Meaning slots Value) :=
  moves_exec here fun _ _ _ => rfl

/-- An operand above the old value, and the operation on both; what is below is kept for later. -/
theorem moves_operate {operand : Meaning slots Value} {f : Value → Meaning slots α}
    (valued : site.Moves pos mid [] (fun v => [v]) operand)
    (here : site.code.instructions[mid]? = some (.binary op))
    (rest : ∀ new, site.Moves (mid + 1) stop (new :: below) after (f new)) :
    site.Moves pos stop (old :: below) after (do
      let v ← operand
      let new ← Meaning.ofEval (Operator.binary op old v)
      f new) :=
  (valued.above (old :: below)).bind fun _ => ((moves_binary here).above below).bind rest

/-- An item is read, operated on and written back. -/
theorem moves_augmentedItem {operand : Meaning slots Value}
    (copy : site.code.instructions[pos]? = some .dupTwo)
    (read : site.code.instructions[pos + 1]? = some .loadSubscript)
    (valued : site.Moves (pos + 2) mid [] (fun v => [v]) operand)
    (here : site.code.instructions[mid]? = some (.binary op))
    (rotate : site.code.instructions[mid + 1]? = some .rotThree)
    (write : site.code.instructions[mid + 2]? = some .storeSubscript) :
    site.Moves pos (mid + 3) [key, o] (fun _ => []) (do
      let old ← Meaning.ofEval (Eval.ask (Subscript.load · o key))
      let v ← operand
      let new ← Meaning.ofEval (Operator.binary op old v)
      Meaning.ofEval (Subscript.store o key new)) := by
  refine .of_next [key, o, key, o] copy (fun _ _ _ => rfl) ?_
  refine Moves.bind (moves_exec read fun _ _ _ => rfl) fun old => moves_operate valued here fun new => ?_
  exact .of_next [key, o, new] rotate (fun _ _ _ => rfl) (moves_exec write fun _ _ _ => rfl)

/-- An attribute is read and operated on, but it cannot be written. -/
theorem moves_augmentedAttribute {operand : Meaning slots Value} (named : site.code.names[i]? = some attr)
    (copy : site.code.instructions[pos]? = some .dupTop)
    (read : site.code.instructions[pos + 1]? = some (.loadAttr i))
    (valued : site.Moves (pos + 2) mid [] (fun v => [v]) operand)
    (here : site.code.instructions[mid]? = some (.binary op))
    (rotate : site.code.instructions[mid + 1]? = some .rotTwo)
    (write : site.code.instructions[mid + 2]? = some (.storeAttr i)) :
    site.Moves pos stop [o] (fun _ => []) (do
      let old ← Meaning.ofEval (Subscript.loadAttribute o attr)
      let v ← operand
      let _ ← Meaning.ofEval (Operator.binary op old v)
      Meaning.fault (Subscript.storeAttribute o attr) : Meaning slots Unit) := by
  refine .of_next [o, o] copy (fun _ _ _ => rfl) ?_
  refine ((moves_attribute read named).above [o]).bind fun old => moves_operate valued here fun new => ?_
  exact .of_next [o, new] rotate (fun _ _ _ => rfl) (moves_storeAttribute write named)

/-! ### Loops -/

/-- A turn of a loop is done: the machine is about to start the next one, or the loop is left. -/
def Turned (site : Site) (start : σ → Scene slots → Machine)
    (Q : α → Scene slots → Machine → Prop) : σ ⊕ α → Scene slots → Machine → Prop
  | .inl x, s, m => m.step site.limit = .inr (start x s)
  | .inr a, s, m => Q a s m

theorem follows_turns {turn : σ → Meaning slots (σ ⊕ α)} {Q : α → Scene slots → Machine → Prop}
    (start : σ → Scene slots → Machine)
    (one : ∀ x s, site.Follows (start x s) (site.Turned start Q) (turn x s))
    {x : σ} {s : Scene slots} (ended : Meaning.turns turn n x s = some r) :
    site.Follows (start x s) Q (some r) := by
  induction n generalizing x s with
  | zero => cases ended
  | succ n ih =>
    have first := one x s
    rw [Meaning.turns_succ] at ended
    rcases taken : turn x s with _ | ⟨_ | x' | a, s'⟩
    · rw [taken] at ended; cases ended
    · rw [taken] at first ended; cases ended; exact first
    · rw [taken] at first ended
      obtain ⟨m', path, next⟩ := first
      exact (ih ended).of_reaches (path.tail next)
    · rw [taken] at first ended; cases ended; exact first

theorem follows_loop {turn : σ → Meaning slots (σ ⊕ α)} {Q : α → Scene slots → Machine → Prop}
    (start : σ → Scene slots → Machine)
    (one : ∀ x s, site.Follows (start x s) (site.Turned start Q) (turn x s))
    (x : σ) (s : Scene slots) : site.Follows (start x s) Q (Meaning.loop turn x s) := by
  cases ended : Meaning.loop turn x s with
  | some r =>
    obtain ⟨n, ended⟩ := Meaning.loop_eq_some_iff.mp ended
    exact follows_turns start one ended
  | none =>
    rw [Meaning.loop_eq_none_iff] at ended
    -- The turns go on for ever, and each takes an instruction at least.
    intro fuel
    induction fuel using Nat.strongRecOn generalizing x s with
    | ind fuel ih =>
      have first := one x s
      have some_turn := ended 1
      rw [Meaning.turns_succ] at some_turn
      rcases taken : turn x s with _ | ⟨_ | x' | a, s'⟩
      · rw [taken] at first; exact first fuel
      · rw [taken] at some_turn; cases some_turn
      · rw [taken] at first
        obtain ⟨m', path, next⟩ := first
        have later : ∀ n, Meaning.turns turn n x' s' = none := by
          intro n
          have after := ended (n + 1)
          rwa [Meaning.turns_succ, taken] at after
        cases run : (start x s).run site.limit fuel with
        | none => rfl
        | some e =>
          obtain ⟨left, le, run'⟩ := Machine.run_of_reaches path run
          obtain ⟨left', lt, run''⟩ := Machine.run_of_step next run'
          rw [ih left' (Nat.lt_of_lt_of_le lt le) x' s' later] at run''
          cases run''
      · rw [taken] at some_turn; cases some_turn

/-! ### Statements -/

open Meaning (Flow)

/-- Where the machine is once a statement is left: behind it, about to go back to the start of the
loop around it, behind that loop, or about to return. -/
def Lands (site : Site) (loop : Option Loop) (loopEnd stop : Nat) (iters : List Iter) :
    Flow → Scene slots → Machine → Prop
  | .next, s, m => m = site.machine stop [] iters s
  | .again, s, m => ∃ l, loop = some l ∧ m.step site.limit = .inr (site.machine l.again [] iters s)
  | .leave, s, m => ∃ l, loop = some l ∧
    m = site.machine loopEnd [] (if l.isFor then iters.tail else iters) s
  | .result v, s, m => ∃ pc iters', m = site.machine pc [v] iters' s ∧
    site.code.instructions[pc]? = some .returnValue

/-- In a `for` loop there is an iterator to drop. -/
def Ready (loop : Option Loop) (iters : List Iter) : Prop :=
  ∀ l, loop = some l → l.isFor = true → iters ≠ []

/-- What the code of some work does from `pos` on. -/
def Performs (site : Site) (c : Context) (perform : NodeId → Meaning c.slots Flow)
    (loop : Option Loop) (loopEnd pos stop : Nat) : Work → Prop
  | .statement id => ∀ iters s, Ready loop iters →
    site.Follows (site.machine pos [] iters s) (site.Lands loop loopEnd stop iters) (perform id s)
  | .body ids => ∀ iters s, Ready loop iters →
    site.Follows (site.machine pos [] iters s) (site.Lands loop loopEnd stop iters)
      (Meaning.all perform ids s)

theorem follows_straight {x : Meaning slots α} {s : Scene slots}
    (h : site.Moves pos stop before (fun _ => []) x) :
    site.Follows (site.machine pos before iters s) (site.Lands loop loopEnd stop iters)
      ((do let _ ← x; return Flow.next) s) :=
  h.follows fun _ _ => .pure rfl

theorem Follows.ends (h : site.Follows m (site.Lands loop loopEnd stop iters) r)
    (eq : stop = stop') : site.Follows m (site.Lands loop loopEnd stop' iters) r :=
  eq ▸ h

/-- Only what goes on to the next statement minds where that is. -/
theorem Follows.lands_jump (h : site.Follows m (site.Lands loop loopEnd mid iters) r)
    (here : site.code.instructions[mid]? = some (.jump stop)) :
    site.Follows m (site.Lands loop loopEnd stop iters) r := by
  refine h.andThen ?_
  intro flow s' m' lands
  cases flow with
  | next =>
    rw [lands]
    exact ⟨_, .single (step_go here rfl), rfl⟩
  | again | leave | result => exact ⟨m', .refl, lands⟩

theorem follows_getIter {s : Scene slots} (here : site.code.instructions[pos]? = some .getIter) :
    site.Follows (site.machine pos (v :: stack) iters s)
      (fun it s' m' => m' = site.machine (pos + 1) stack (it :: iters) s')
      (Meaning.ofEval (Eval.ask (·.iterate v)) s) :=
  follows_exec (fun it => site.frame (pos + 1) stack (it :: iters) s) here rfl fun _ _ => rfl

/-- Either there is an item, which goes on the stack, or the iterator is dropped. -/
theorem follows_forIter {s : Scene slots} {Q : α → Scene slots → Machine → Prop}
    (here : site.code.instructions[pos]? = some (.forIter stop))
    (ended : s.world.store.next? it = none → site.Follows (site.machine stop stack iters s) Q r)
    (goes : ∀ item it', s.world.store.next? it = some (item, it') →
      site.Follows (site.machine (pos + 1) (item :: stack) (it' :: iters) s) Q r) :
    site.Follows (site.machine pos stack (it :: iters) s) Q r := by
  have does : ∀ f, (site.frame pos stack (it :: iters) s).forIter s.world.store stop = .ok f →
      (site.frame pos stack (it :: iters) s).exec (.forIter stop) s.world = .ok (.go f, s.world) := by
    intro f done
    change Eval.lift ((site.frame pos stack (it :: iters) s).forIter s.world.store stop) s.world >>= _ = _
    rw [done]
    rfl
  cases found : s.world.store.next? it with
  | none =>
    refine .of_step (step_go here (does _ ?_)) (ended found)
    simp only [Frame.forIter, frame, found]
    rfl
  | some next =>
    obtain ⟨item, it'⟩ := next
    refine .of_step (step_go here (does _ ?_)) (goes item it' found)
    simp only [Frame.forIter, frame, found]
    rfl

/-- The body of a loop, left in whatever way, is followed by what the loop makes of it. -/
theorem Follows.turn {x : Meaning slots Flow} {s : Scene slots}
    (body : site.Follows m (site.Lands (some l) stop bodyEnd iters) (x s))
    (start : σ → Scene slots → Machine) (state : σ)
    (startAt : ∀ s, start state s = site.machine l.again [] iters s)
    (jump : site.code.instructions[bodyEnd]? = some (.jump l.again)) :
    site.Follows m
      (site.Turned start
        (site.Lands loop loopEnd stop (if l.isFor then iters.tail else iters)))
      ((do return (← x).turn state) s) := by
  refine body.bind ?_
  intro flow s' m' _ lands
  refine .pure ?_
  cases flow with
  | next =>
    rw [lands]
    exact (step_go jump rfl).trans (by rw [startAt]; rfl)
  | again =>
    obtain ⟨l', same, step⟩ := lands
    cases same
    exact step.trans (by rw [startAt])
  | leave =>
    obtain ⟨l', same, rfl⟩ := lands
    cases same
    rfl
  | result v => exact lands

section Loops

variable {perform : NodeId → Meaning slots Flow} {s : Scene slots}

/-- A test and a body behind which the machine goes back to it. -/
theorem follows_while {value : NodeId → Meaning slots Value} {test : NodeId}
    (tested : site.Moves pos mid [] (fun v => [v]) (value test))
    (here : site.code.instructions[mid]? = some (.popJumpIfFalse stop))
    (performed : ∀ s, site.Follows (site.machine (mid + 1) [] iters s)
      (site.Lands (some ⟨pos, false⟩) stop bodyEnd iters) (Meaning.all perform body s))
    (jump : site.code.instructions[bodyEnd]? = some (.jump pos)) :
    site.Follows (site.machine pos [] iters s) (site.Lands loop loopEnd stop iters)
      (Meaning.loop (Meaning.whileLoop value perform test body) () s) := by
  refine follows_loop (fun _ s => site.machine pos [] iters s) (fun _ s => ?_) () s
  refine tested.follows fun v s' => follows_truthy here ?_ (.pure rfl)
  exact (performed s').turn (fun _ s => site.machine pos [] iters s) () (fun _ => rfl) jump

/-- A target that takes the next item, and a body behind which the machine goes back for another. -/
theorem follows_for {store : NodeId → Value → Meaning slots Unit} {target : NodeId}
    (next : site.code.instructions[pos]? = some (.forIter stop))
    (stored : ∀ item, site.Moves (pos + 1) mid [item] (fun _ => []) (store target item))
    (performed : ∀ it s, site.Follows (site.machine mid [] (it :: iters) s)
      (site.Lands (some ⟨pos, true⟩) stop bodyEnd (it :: iters)) (Meaning.all perform body s))
    (jump : site.code.instructions[bodyEnd]? = some (.jump pos)) :
    site.Follows (site.machine pos [] (it :: iters) s) (site.Lands loop loopEnd stop iters)
      (Meaning.loop (Meaning.forLoop store perform target body) it s) := by
  refine follows_loop (fun it s => site.machine pos [] (it :: iters) s) (fun it s => ?_) it s
  refine follows_forIter next (fun ended => ?_) fun item it' found => ?_
  · rw [Meaning.forLoop_ended ended]
    exact .pure rfl
  · rw [Meaning.forLoop_next found]
    refine (stored item).follows fun _ s' => ?_
    exact (performed it' s').turn (fun it s => site.machine pos [] (it :: iters) s) it' (fun _ => rfl) jump

end Loops

theorem follows_break {s : Scene slots}
    (placed : Placed site.code loopEnd pos
      ((if l.isFor then [.op .popIter span] else []) ++ [.leave span]))
    (ready : Ready (some l) iters) :
    site.Follows (site.machine pos [] iters s) (site.Lands (some l) loopEnd stop iters)
      ((pure .leave : Meaning slots Flow) s) := by
  refine ⟨site.machine loopEnd [] (if l.isFor then iters.tail else iters) s, ?_, l, rfl, rfl⟩
  cases isFor : l.isFor with
  | true =>
    obtain ⟨it, outer, rfl⟩ := List.exists_cons_of_ne_nil (ready l rfl isFor)
    rw [isFor] at placed
    obtain ⟨drop, rest⟩ := placed_cons.mp placed
    exact .head (step_go drop rfl) (.single (step_go (placed_cons.mp rest).1 rfl))
  | false =>
    rw [isFor] at placed
    exact .single (step_go (placed_cons.mp placed).1 rfl)

/-- A statement does what its form says, the nodes below having less depth. -/
theorem performs_statement {id : NodeId} {calls : Nat} (found : c.tree.get? id = some ⟨kind, span⟩)
    (fits : ∀ x ∈ [id], c.tree.Fits depth x)
    (h : ∀ below, (∀ child ∈ kind.children, c.tree.Fits below child) → ∀ iters s, Ready loop iters →
      site.Follows (site.machine pos [] iters s) (site.Lands loop loopEnd stop iters)
        (Meaning.statement c (Meaning.value c calls below) (Meaning.store c calls below)
          (Meaning.perform c calls below) span kind s)) :
    site.Performs c (Meaning.perform c calls depth) loop loopEnd pos stop (.statement id) := by
  cases depth with
  | zero => exact (fits id List.mem_cons_self).elim
  | succ below =>
    obtain ⟨kind', found', fit⟩ := fits id List.mem_cons_self
    rw [kind?_of_get? found] at found'
    cases found'
    intro iters s ready
    unfold Meaning.perform
    rw [found]
    exact h below fit iters s ready

theorem performs_augmented {id target operand : NodeId} {calls : Nat}
    (found : c.tree.get? id = some ⟨.augAssign target op operand, span⟩)
    (place : c.tree.get? target = some ⟨kind, span'⟩) (fits : ∀ x ∈ [id], c.tree.Fits depth x)
    (h : ∀ below, (∀ x ∈ kind.children, c.tree.Fits below x) → (∀ x ∈ [operand], c.tree.Fits below x) →
      site.Moves pos stop [] (fun _ => []) (Meaning.augmented c (Meaning.value c calls below) op operand kind)) :
    site.Performs c (Meaning.perform c calls depth) loop loopEnd pos stop (.statement id) := by
  refine performs_statement found fits fun below fit iters s ready => ?_
  obtain ⟨fit', fit⟩ := fits_cons fit
  simp only [Meaning.statement, kind?_of_get? place]
  exact follows_straight (h below (fits_below place fit') fit)

theorem performs_of_does (unit : site.code.locals = c.locals.toArray)
    (does : Does c loop work t pos seg t') (tables : t'.Le site.code.tables)
    (placed : Placed site.code loopEnd pos seg)
    (fits : ∀ id ∈ work.nodes, c.tree.Fits depth id) :
    site.Performs c (Meaning.perform c (site.limit - site.callers.length) depth) loop loopEnd pos
      (pos + seg.length) work := by
  induction does generalizing depth loopEnd with
  | exprStmt found value =>
    refine performs_statement found fits fun below fit iters s ready => ?_
    simp only [placed_append, placed_cons] at placed
    obtain ⟨first, here, _⟩ := placed
    rw [List.length_append]
    exact follows_straight
      ((means_of_makes unit value tables first fit).andNext _ here fun _ _ _ _ => rfl)
  | assign found nonempty value stores =>
    refine performs_statement found fits fun below fit iters s ready => ?_
    obtain ⟨first, second⟩ := placed_append.mp placed
    obtain ⟨fit', fit⟩ := List.forall_mem_append.mp fit
    refine (means_of_makes unit value (stores.le.trans tables) first fit).follows fun v s' => ?_
    rw [List.length_append, ← Nat.add_assoc]
    exact follows_straight (keeps_of_stores unit stores tables second fit' v)
  | augName found target load value store =>
    refine performs_augmented found target fits fun below _ fit => ?_
    simp only [List.append_assoc, placed_append, placed_cons] at placed
    obtain ⟨first, second, here, last⟩ := placed
    have loaded := loadName_ok load
    have stored := storeName_ok store
    apply Moves.ends
    · exact (moves_load unit loaded (value.le.trans (stored.le.trans tables)) first).bind fun old =>
        moves_operate (means_of_makes unit value (stored.le.trans tables) second fit) here
          fun new => moves_assign stored tables last
    · simp; omega
  | augSubscript found target place value =>
    refine performs_augmented found target fits fun below fit' fit => ?_
    simp only [List.append_assoc, List.cons_append, List.nil_append, placed_append,
      placed_cons] at placed
    obtain ⟨first, copy, read, second, here, rotate, write, _⟩ := placed
    apply Moves.ends
    · exact moves_pair unit place (value.le.trans tables) first fit' fun o key =>
        moves_augmentedItem copy read (means_of_makes unit value tables second fit) here rotate write
    · simp; omega
  | augAttribute found target object entry value =>
    refine performs_augmented found target fits fun below fit' fit => ?_
    simp only [List.append_assoc, List.cons_append, List.nil_append, placed_append,
      placed_cons] at placed
    obtain ⟨first, copy, read, second, here, rotate, write, _⟩ := placed
    obtain ⟨le, entered⟩ := nameIndex_ok entry
    have named := tables.names (value.le.names entered)
    have reads := means_of_makes unit object (le.trans (value.le.trans tables)) first fit'
    exact reads.bind fun o => moves_augmentedAttribute named copy read
      (means_of_makes unit value tables second fit) here rotate write
  | functionDef found lowered noGlobal inside last made entry store =>
    refine performs_statement found fits fun below fit iters s ready => ?_
    obtain ⟨here, second⟩ := placed_cons.mp placed
    have stored := storeName_ok store
    have known := tables.constants (stored.le.constants (constant_ok entry).2)
    simp only [Meaning.statement, lowered]
    apply Follows.ends
    · exact follows_straight
        ((moves_makeFunction here known).bind fun f => moves_assign stored tables second)
    · simp; omega
  | returnValue found inFunction value =>
    refine performs_statement found fits fun below fit iters s ready => ?_
    simp only [placed_append, placed_cons] at placed
    obtain ⟨first, here, _⟩ := placed
    exact (means_of_makes unit value tables first fit).follows fun v s' =>
      .pure ⟨_, _, rfl, here⟩
  | returnNone found inFunction entry =>
    refine performs_statement found fits fun below fit iters s ready => ?_
    simp only [placed_cons] at placed
    obtain ⟨first, here, _⟩ := placed
    have known := tables.constants (constant_ok entry).2
    exact Moves.follows (f := fun v => pure (Flow.result v)) (moves_literal first known) fun v s' =>
      .pure ⟨_, _, rfl, here⟩
  | ifOnly found test taken ih =>
    refine performs_statement found fits fun below fit iters s ready => ?_
    simp only [placed_append, placed_cons] at placed
    obtain ⟨first, here, second⟩ := placed
    obtain ⟨fit, fit'⟩ := fits_cons fit
    obtain ⟨fit', _⟩ := List.forall_mem_append.mp fit'
    apply Follows.ends
    · exact (means_of_makes unit test (taken.le.trans tables) first fit).follows fun v s' =>
        follows_truthy here (ih unit tables second fit' iters s' ready) (.pure rfl)
    · simp; omega
  | ifElse found nonempty test taken orelse ih ih' =>
    refine performs_statement found fits fun below fit iters s ready => ?_
    simp only [List.append_assoc, List.cons_append, placed_append, placed_cons] at placed
    obtain ⟨first, here, second, jump, third⟩ := placed
    obtain ⟨fit, fit'⟩ := fits_cons fit
    obtain ⟨fit', fit''⟩ := List.forall_mem_append.mp fit'
    have tested := means_of_makes unit test (taken.le.trans (orelse.le.trans tables)) first fit
    apply Follows.ends
    · exact tested.follows fun v s' => follows_truthy here
        ((ih unit (orelse.le.trans tables) second fit' iters s' ready).lands_jump jump)
        (ih' unit tables third fit'' iters s' ready)
    · simp; omega
  | whileLoop found test body stopAt ih =>
    refine performs_statement found fits fun below fit iters s ready => ?_
    simp only [List.append_assoc, List.cons_append, placed_append, placed_cons, placed_close,
      length_close] at placed
    obtain ⟨first, here, second, jump, _⟩ := placed
    obtain ⟨fit, fit'⟩ := fits_cons fit
    have tested := means_of_makes unit test (body.le.trans tables) first fit
    apply Follows.ends
    · exact follows_while tested here (fun s' => ih unit tables second fit' iters s' (by simp [Ready])) jump
    · rw [stopAt]; simp; omega
  | forLoop found iter againAt target body stopAt ih =>
    subst againAt
    refine performs_statement found fits fun below fit iters s ready => ?_
    simp only [List.append_assoc, List.cons_append, List.nil_append, placed_append, placed_cons,
      placed_close, length_close] at placed
    obtain ⟨first, enter, next, second, third, jump, _⟩ := placed
    obtain ⟨fit', fit⟩ := fits_cons fit
    obtain ⟨fit, fit''⟩ := fits_cons fit
    have iterated := means_of_makes unit iter (target.le.trans (body.le.trans tables)) first fit
    apply Follows.ends
    · refine iterated.follows fun v s' => (follows_getIter enter).bind ?_
      rintro it s'' m' _ rfl
      exact follows_for next (keeps_of_stores unit target (body.le.trans tables) second fit')
        (fun it s => ih unit tables third fit'' (it :: iters) s (by simp [Ready])) jump
    · rw [stopAt]; simp; omega
  | globalStmt found | passStmt found =>
    exact performs_statement found fits fun _ _ _ _ _ => .pure rfl
  | breakStmt found =>
    exact performs_statement found fits fun _ _ _ _ ready => follows_break placed ready
  | continueStmt found =>
    refine performs_statement found fits fun below fit iters s ready => ?_
    exact .pure ⟨_, rfl, step_go (placed_cons.mp placed).1 rfl⟩
  | none =>
    intro iters s ready
    exact .pure rfl
  | cons first rest ih ih' =>
    intro iters s ready
    obtain ⟨placed, placed'⟩ := placed_append.mp placed
    obtain ⟨fit, fit'⟩ := fits_cons fits
    rw [List.length_append, ← Nat.add_assoc]
    refine (ih unit (rest.le.trans tables) placed fit iters s ready).bind ?_
    intro flow s' m' _ lands
    cases flow with
    | next =>
      rw [lands]
      exact ih' unit tables placed' fit' iters s' ready
    | again | leave | result => exact .pure lands

end Site

/-- The code of statements, wherever it stands, does what they mean on the tree, and leaves the
stack and the iterators as it found them. -/
theorem statements_keep_meaning {c : Context} {ids : List NodeId} {t t' : Tables} {seg : Segment}
    (enough : room ≤ maxNesting)
    (lowered : sequence (Lower.statement room c loop span) pos ids t = .ok (seg, t'))
    (site : Site) (placed : Placed site.code loopEnd pos seg) (tables : t'.Le site.code.tables)
    (unit : site.code.locals = c.locals.toArray) (iters : List Iter) (s : Scene c.slots)
    (ready : Site.Ready loop iters) :
    site.Follows (site.machine pos [] iters s) (site.Lands loop loopEnd (pos + seg.length) iters)
      (Meaning.all (Meaning.perform c (site.limit - site.callers.length) c.tree.size) ids s) := by
  have does := sequence_does (statement_does enough) lowered
  have fits : ∀ id ∈ ids, c.tree.Fits c.tree.size id := fun id mem => (does.shaped id mem).fits
  exact Site.performs_of_does unit does tables placed fits iters s ready

/-- The loop `for i in (1, 2):` with the body `if 1 < i: break` and then `x = i`. -/
def leavingLoop : Context where
  tree.nodes := #[⟨.name "i", {}⟩, ⟨.literal (.int 1), {}⟩, ⟨.literal (.int 2), {}⟩,
    ⟨.tuple [1, 2], {}⟩, ⟨.compare 1 [.lt] [0], {}⟩, ⟨.breakStmt, {}⟩, ⟨.ifStmt 4 [5] [], {}⟩,
    ⟨.name "x", {}⟩, ⟨.assign [7] 0, {}⟩, ⟨.forLoop 0 3 [6, 8], {}⟩]
  tree.root := .module [9]
  mode := .exec

theorem leavingLoop_keeps_meaning :
    ∃ seg t', sequence (Lower.statement 10 leavingLoop none {}) 0 [9] {} = .ok (seg, t') ∧
      let site : Site := ⟨finish leavingLoop "" 0 seg t', [], 10⟩
      Machine.Reaches 10 (site.machine 0 [] [] (⟨#v[], {}⟩ : Scene 0))
        (site.machine (0 + seg.length) [] [] (⟨#v[],
          { globals := ⟨[("i", .int 2), ("x", .int 1)]⟩
            store.tuples := #[#[.int 1, .int 2]] }⟩ : Scene 0)) := by
  obtain ⟨seg, t', lowered⟩ :
      ∃ seg t', sequence (Lower.statement 10 leavingLoop none {}) 0 [9] {} = .ok (seg, t') :=
    ⟨_, _, by cbv⟩
  have turned : Meaning.turns (Meaning.forLoop (Meaning.store leavingLoop 10 9)
      (Meaning.perform leavingLoop 10 9) 0 [6, 8]) 2 (.items [.int 1, .int 2])
      ⟨#v[], { store.tuples := #[#[.int 1, .int 2]] }⟩ =
        some (.ok .next, ⟨#v[], { globals := ⟨[("i", .int 2), ("x", .int 1)]⟩
                                  store.tuples := #[#[.int 1, .int 2]] }⟩) := by cbv
  have means : Meaning.all (Meaning.perform leavingLoop 10 leavingLoop.tree.size) [9] ⟨#v[], {}⟩ =
      some (.ok .next, ⟨#v[], { globals := ⟨[("i", .int 2), ("x", .int 1)]⟩
                                store.tuples := #[#[.int 1, .int 2]] }⟩) := by
    have looped := Meaning.loop_eq_some_iff.mpr ⟨2, turned⟩
    exact congrArg (Option.bind · _) looped
  have follows := statements_keep_meaning (by decide) lowered
    ⟨finish leavingLoop "" 0 seg t', [], 10⟩ (placed_finish leavingLoop "" 0 seg t') (.refl _) rfl
    [] ⟨#v[], {}⟩ (by rintro l ⟨⟩)
  rw [show _ - _ = 10 from rfl, means] at follows
  obtain ⟨m', path, rfl⟩ := follows
  exact ⟨seg, t', lowered, path⟩

end Scratchpad
