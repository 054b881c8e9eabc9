import Scratchpad.Proofs.Machine.Primitives

/-!
# What instructions do not see

Operators, subscripts, methods and builtins neither read nor write global names, and of functions
they see the names only. So they do the same with other globals and other code (`Blind`). What else they have in
common is said together with it (`Formed`), and shown for each of them once.
-/

namespace Scratchpad

/-- The same objects, but for the functions. -/
def Store.swap (s : Store) (fs : Array Function) : Store := { s with functions := fs }

def World.swap (w : World) (g : Globals) (fs : Array Function) : World :=
  { w with globals := g, store := w.store.swap fs }

def SameNames (fs fs' : Array Function) : Prop := fs.map (·.name) = fs'.map (·.name)

/-! ### Questions -/

namespace Store

variable (s : Store) (fs : Array Function)

-- The two recursions are the same, and no function is read on the way.
theorem equalAt_swap : (s.swap fs).equalAt = s.equalAt := by
  delta equalAt
  rfl

theorem equal_swap : (s.swap fs).equal = s.equal := by
  funext a b
  rw [equal, equal, equalAt_swap]

theorem position?_swap (item : Value) (xs : List Value) :
    (s.swap fs).position? item xs = s.position? item xs := by
  induction xs with
  | nil => rfl
  | cons x xs ih => rw [position?, position?, ih, equal_swap]

theorem keyAt_swap : (s.swap fs).keyAt = s.keyAt := by
  delta keyAt
  rfl

theorem lookup_swap : (s.swap fs).lookup = s.lookup := by
  funext d v
  rw [lookup, lookup, key, key, keyAt_swap]

theorem inserted_swap : (s.swap fs).inserted = s.inserted := by
  funext d v v'
  rw [inserted, inserted, key, key, keyAt_swap]

theorem orderAt_swap : (s.swap fs).orderAt = s.orderAt := by
  delta orderAt orderAt._f
  simp only [equal_swap]
  rfl

theorem order_swap : (s.swap fs).order = s.order := by
  funext symbol a b
  rw [order, order, orderAt_swap]

theorem insertSorted_swap (item : Value) (xs : List Value) :
    (s.swap fs).insertSorted item xs = s.insertSorted item xs := by
  induction xs with
  | nil => rfl
  | cons x xs ih => rw [insertSorted, insertSorted, ih, order_swap]

theorem sort_swap : (s.swap fs).sort = s.sort := by
  funext items
  simp only [sort, insertSorted_swap]

variable {fs} {s}

theorem name?_swap (same : SameNames fs s.functions) (ref : Nat) :
    (s.swap fs).functions[ref]?.map (·.name) = s.functions[ref]?.map (·.name) := by
  rw [← Array.getElem?_map, ← Array.getElem?_map]
  exact congrArg (·[ref]?) same

theorem reprAt_swap (same : SameNames fs s.functions) (room : Nat) :
    (s.swap fs).reprAt room = s.reprAt room := by
  induction room with
  | zero =>
    funext around v
    cases v with
    | function ref => rw [reprAt, reprAt, name?_swap same]
    | _ => rfl
  | succ room ih =>
    funext around v
    cases v with
    | function ref => rw [reprAt, reprAt, name?_swap same]
    | list ref | tuple ref | dict ref => rw [reprAt, reprAt, ih]; rfl
    | _ => rfl

theorem repr_swap (same : SameNames fs s.functions) : (s.swap fs).repr = s.repr := by
  funext v
  rw [repr, repr, reprAt_swap same]

theorem display_swap (same : SameNames fs s.functions) : (s.swap fs).display = s.display := by
  funext v
  cases v with
  | text t => rfl
  | _ => simp only [display, repr_swap same]

end Store

theorem Operator.contains_swap (s : Store) (fs : Array Function) :
    contains (s.swap fs) = contains s := by
  funext container item
  simp only [contains, Store.position?_swap, Store.lookup_swap]
  rfl

theorem Operator.compare_swap (s : Store) (fs : Array Function) :
    compare (s.swap fs) = compare s := by
  funext op left right
  simp only [compare, contains_swap, Store.equal_swap, Store.order_swap]

theorem Subscript.load_swap {s : Store} {fs : Array Function} (same : SameNames fs s.functions) :
    load (s.swap fs) = load s := by
  funext object key
  simp only [load, Store.lookup_swap, Store.repr_swap same]
  rfl

theorem Method.joinParts_swap (s : Store) (fs : Array Function) :
    joinParts (s.swap fs) = joinParts s := by
  funext left
  induction left with
  | zero => rfl
  | succ left ih =>
    funext index it
    rw [joinParts, joinParts, ih]
    rfl

theorem Method.runText_swap (s : Store) (fs : Array Function) : runText (s.swap fs) = runText s := by
  funext t m args
  simp only [runText, joinParts_swap]
  rfl

theorem Method.runList_swap {s : Store} {fs : Array Function} (same : SameNames fs s.functions) :
    runList (s.swap fs) = runList s := by
  funext items m args
  simp only [runList, Store.position?_swap, Store.equal_swap, Store.sort_swap, Store.repr_swap same]
  rfl

namespace Builtin

variable {s : Store} {fs : Array Function}

theorem best_swap (symbol : String) (wanted : Ordering) (first : Value) (items : List Value) :
    best (s.swap fs) symbol wanted first items = best s symbol wanted first items := by
  induction items generalizing first with
  | nil => rfl
  | cons item rest ih => simp only [best, Store.order_swap, ih]

theorem extreme_swap : extreme (s.swap fs) = extreme s := by
  funext b symbol wanted args
  simp only [extreme, best_swap]
  rfl

theorem printed_swap (same : SameNames fs s.functions) : printed (s.swap fs) = printed s := by
  funext args
  rw [printed, printed, Store.display_swap same]

theorem intOf_swap (same : SameNames fs s.functions) : intOf (s.swap fs) = intOf s := by
  funext v
  simp only [intOf, Store.repr_swap same]

theorem floatOf_swap (same : SameNames fs s.functions) : floatOf (s.swap fs) = floatOf s := by
  funext v
  simp only [floatOf, Store.repr_swap same]

end Builtin

theorem Frame.buildDict_swap (s : Store) (fs : Array Function) (items : List Value) (d : Dict) :
    buildDict (s.swap fs) items d = buildDict s items d := by
  fun_induction buildDict s items d with
  | case1 key value rest d ih => simp only [buildDict, Store.inserted_swap, ih]
  | case2 items d short =>
    match items with
    | [] | [_] => rfl
    | key :: value :: rest => exact (short key value rest rfl).elim

/-! ### Computations -/

/-- Changes the value that was given, and the world that was left. -/
def Eval.mapResult (v : α → β) (f : World → World) :
    Except (Fault × World) (α × World) → Except (Fault × World) (β × World)
  | .ok (a, w) => .ok (v a, f w)
  | .error (fault, w) => .error (fault, f w)

/-- Does the same with other globals and other code, and leaves both alone. -/
def Blind (x : Eval α) : Prop :=
  ∀ w g fs, SameNames fs w.store.functions →
    x (w.swap g fs) = Eval.mapResult id (·.swap g fs) (x w)

theorem World.swap_self (w : World) : w.swap w.globals w.store.functions = w := rfl

theorem Blind.kept {x : Eval α} (h : Blind x) (w : World) :
    (x.after w).globals = w.globals ∧ (x.after w).store.functions = w.store.functions := by
  have same := h w w.globals w.store.functions rfl
  rw [w.swap_self] at same
  match done : x w with
  | .ok (a, w') =>
    rw [done] at same
    have same : w' = w'.swap w.globals w.store.functions := congrArg Prod.snd (Except.ok.inj same)
    rw [Eval.after_of_ok done, same]
    exact ⟨rfl, rfl⟩
  | .error (fault, w') =>
    rw [done] at same
    have same : w' = w'.swap w.globals w.store.functions :=
      congrArg Prod.snd (Except.error.inj same)
    rw [Eval.after_of_error done, same]
    exact ⟨rfl, rfl⟩

theorem blind_pure (a : α) : Blind (pure a : Eval α) := fun _ _ _ _ => rfl

theorem blind_fail (fault : Fault) : Blind (Eval.fail fault : Eval α) := fun _ _ _ _ => rfl

theorem Blind.bind {x : Eval α} {f : α → Eval β} (first : Blind x) (rest : ∀ a, Blind (f a)) :
    Blind (x >>= f) := by
  intro w g fs same
  change (x (w.swap g fs)).bind _ = Eval.mapResult _ _ ((x w).bind _)
  rw [first w g fs same]
  match done : x w with
  | .error (fault, w') => rfl
  | .ok (a, w') =>
    have kept := (first.kept w).2
    rw [Eval.after_of_ok done] at kept
    exact rest a w' g fs (kept ▸ same)

theorem blind_lift (x : Except Fault α) : Blind (liftM x : Eval α) := by
  intro w g fs same
  cases x <;> rfl

theorem blind_ask {f : Store → Except Fault α}
    (h : ∀ s fs, SameNames fs s.functions → f (s.swap fs) = f s) : Blind (Eval.ask f) := by
  intro w g fs same
  change Eval.lift (f (w.store.swap fs)) _ = _
  rw [h _ _ same]
  exact blind_lift (f w.store) w g fs same

theorem blind_make {f : Store → α × Store}
    (h : ∀ s fs, f (s.swap fs) = ((f s).1, (f s).2.swap fs)) : Blind (Eval.make f) := by
  intro w g fs _
  have made := h w.store fs
  change Except.ok ((f (w.store.swap fs)).1, World.mk g (f (w.store.swap fs)).2 w.output) = _
  rw [made]
  rfl

theorem blind_print (text : String) : Blind (Eval.print text) := fun _ _ _ _ => rfl

theorem blind_list (items : Array Value) : Blind (Eval.list items) := fun _ _ _ _ => rfl

theorem blind_tuple (items : Array Value) : Blind (Eval.tuple items) := fun _ _ _ _ => rfl

theorem blind_dict (d : Dict) : Blind (Eval.dict d) := fun _ _ _ _ => rfl

/-! ### Operators, items, methods and builtins -/

/-- Makes no functions, has no fault of the machine's own, and takes no notice of global names and code. If
`mild`, it does nothing but add objects. -/
structure Formed (mild : Prop) (x : Eval α) : Prop where
  steady : Steady x
  blind : Blind x
  growing : mild → Growing x

section

variable {mild : Prop}

theorem Formed.mono {x : Eval α} (h : Formed True x) : Formed mild x :=
  ⟨h.steady, h.blind, fun _ => h.growing trivial⟩

theorem Formed.bind {x : Eval α} {f : α → Eval β} (first : Formed mild x) (rest : ∀ a, Formed mild (f a)) :
    Formed mild (x >>= f) where
  steady := first.steady.bind fun a => (rest a).steady
  blind := first.blind.bind fun a => (rest a).blind
  growing holds := (first.growing holds).bind fun a => (rest a).growing holds

theorem Formed.ite {p : Prop} [Decidable p] {x y : Eval α} (yes : Formed mild x) (no : Formed mild y) :
    Formed mild (if p then x else y) := by
  split
  · exact yes
  · exact no

theorem formed_pure (a : α) : Formed mild (pure a : Eval α) :=
  ⟨steady_pure a, blind_pure a, fun _ => growing_pure a⟩

theorem formed_fail {fault : Fault} (h : fault.kind ≠ .systemError) : Formed mild (Eval.fail fault : Eval α) :=
  ⟨steady_fail h, blind_fail fault, fun _ => growing_fail fault⟩

theorem formed_lift {x : Except Fault α} (h : Plain x) : Formed mild (liftM x : Eval α) :=
  ⟨steady_lift h, blind_lift x, fun _ => growing_lift x⟩

theorem formed_ask {f : Store → Except Fault α} (plain : ∀ s, Plain (f s))
    (same : ∀ s fs, SameNames fs s.functions → f (s.swap fs) = f s) : Formed mild (Eval.ask f) :=
  ⟨steady_ask plain, blind_ask same, fun _ => growing_ask f⟩

theorem formed_list (items : Array Value) : Formed mild (Eval.list items) :=
  ⟨steady_list items, blind_list items, fun _ => growing_list items⟩

theorem formed_tuple (items : Array Value) : Formed mild (Eval.tuple items) :=
  ⟨steady_tuple items, blind_tuple items, fun _ => growing_tuple items⟩

theorem formed_set {f : Store → Store} (functions : ∀ s, (f s).functions = s.functions)
    (same : ∀ s fs, f (s.swap fs) = (f s).swap fs) : Formed False (Eval.make fun s => ((), f s)) :=
  ⟨steady_make functions, blind_make fun s fs => congrArg (Prod.mk ()) (same s fs), False.elim⟩

theorem formed_mapM {f : α → Eval β} (h : ∀ a, Formed mild (f a)) (as : List α) : Formed mild (as.mapM f) := by
  induction as with
  | nil => exact formed_pure _
  | cons a as ih =>
    rw [List.mapM_cons]
    exact (h a).bind fun _ => ih.bind fun _ => formed_pure _

end

namespace Operator

theorem formed_repeated (count : Int64) (v : Value) : Formed True (repeated count v) := by
  cases v with
  | text t =>
    exact (formed_lift ((plain_checkRepeat _ _).bind fun _ => plain_ok _)).bind fun _ => formed_pure _
  | list ref =>
    exact .bind (formed_ask (fun _ => plain_repeatItems _ _) fun _ _ _ => rfl) fun items =>
      (formed_list items).bind fun _ => formed_pure _
  | tuple ref =>
    exact .bind (formed_ask (fun _ => plain_repeatItems _ _) fun _ _ _ => rfl) fun items =>
      (formed_tuple items).bind fun _ => formed_pure _
  | _ => exact formed_pure _

theorem formed_sequenceBinary? (op : BinaryOp) (left right : Value) :
    Formed True (sequenceBinary? op left right) := by
  unfold sequenceBinary?
  split
  · exact formed_pure _
  · exact .bind (formed_ask (fun _ => plain_ok _) fun _ _ _ => rfl) fun items =>
      (formed_list items).bind fun _ => formed_pure _
  · exact .bind (formed_ask (fun _ => plain_ok _) fun _ _ _ => rfl) fun items =>
      (formed_tuple items).bind fun _ => formed_pure _
  · split
    · exact formed_repeated _ _
    · exact formed_repeated _ _
    · exact formed_pure _
  · exact formed_pure _

theorem formed_binary (op : BinaryOp) (left right : Value) : Formed True (binary op left right) := by
  unfold binary
  split
  · exact formed_lift (plain_intBinary op _ _)
  · split
    · exact formed_lift (plain_floatBinary op _ _)
    · refine (formed_sequenceBinary? op left right).bind fun result => ?_
      cases result with
      | some v => exact formed_pure v
      | none => exact formed_fail nofun

end Operator

namespace Subscript

theorem formed_store (object key v : Value) : Formed False (store object key v) := by
  cases object with
  | list ref =>
    refine .bind (formed_ask (fun _ => plain_ok _) fun _ _ _ => rfl) fun items => ?_
    split
    · exact formed_set (fun _ => rfl) fun _ _ => rfl
    · exact formed_fail nofun
  | dict ref =>
    refine .bind (formed_ask (fun s => s.plain_inserted _ key v) fun s fs _ => ?_) fun d =>
      formed_set (fun _ => rfl) fun _ _ => rfl
    rw [Store.inserted_swap]
    rfl
  | _ => exact formed_fail nofun

theorem formed_loadAttribute (object : Value) (name : String) : Formed True (loadAttribute object name) := by
  unfold loadAttribute
  split
  · exact ⟨steady_make fun _ => rfl, blind_make fun _ _ => rfl, fun _ => growing_make fun _ => Store.kept_newMethod _⟩
  · exact formed_fail nofun

end Subscript

namespace Method

theorem formed_runDict (d : Dict) (m : DictMethod) (args : List Value) : Formed True (runDict d m args) := by
  unfold runDict
  split
  · exact .bind (formed_ask (fun s => s.plain_lookup d _) fun s fs _ => by rw [Store.lookup_swap]) fun _ =>
      formed_pure _
  · exact formed_pure _
  · exact formed_list _
  · exact formed_list _
  · exact (formed_mapM (fun e => formed_tuple _) _).bind fun _ => formed_list _

theorem formed_value (r : TextResult) : Formed True r.value := by
  cases r with
  | text s => exact formed_pure _
  | parts pieces => exact formed_list _
  | bool b => exact formed_pure _

theorem formed_call (receiver : Value) (m : Method) (args : List Value) :
    Formed False (call receiver m args) := by
  unfold call
  refine .ite (formed_fail nofun) ?_
  split
  · refine .bind (formed_ask (fun s => plain_runList s _ _ args) fun s fs same => by
      rw [runList_swap same]; rfl) fun result => ?_
    obtain ⟨v, after⟩ := result
    cases after with
    | none => exact formed_pure v
    | some items => exact .bind (formed_set (fun _ => rfl) fun _ _ => rfl) fun _ => formed_pure v
  · exact .bind (formed_ask (fun _ => plain_ok _) fun _ _ _ => rfl) fun d => (formed_runDict d _ args).mono
  · exact .bind (formed_ask (fun s => plain_runText s _ _ args) fun s fs _ => by rw [runText_swap]) fun r =>
      (formed_value r).mono
  · exact formed_fail nofun

end Method

namespace Builtin

theorem formed_total (left : Nat) (soFar : Value) (it : Iter) : Formed True (total left soFar it) := by
  induction left generalizing soFar it with
  | zero => exact formed_pure _
  | succ left ih =>
    refine .bind (formed_ask (fun _ => plain_ok _) fun _ _ _ => rfl) fun next => ?_
    cases next with
    | none => exact formed_pure _
    | some pair => exact (Operator.formed_binary _ _ _).bind fun sum => ih sum _

theorem formed_sumOf (v start : Value) : Formed True (sumOf v start) := by
  unfold sumOf
  split
  · exact formed_fail nofun
  · exact .bind (formed_ask (fun s => (s.plain_iterate v).map) fun _ _ _ => rfl) fun _ => formed_total _ _ _

theorem formed_run (b : Builtin) (args : List Value) : Formed (b ≠ .print) (run b args) := by
  unfold run
  split
  · refine .bind (formed_ask (fun _ => plain_ok _) fun s fs same => by rw [printed_swap same]) fun text => ?_
    exact ⟨(steady_print text).bind fun _ => steady_pure _, (blind_print text).bind fun _ => blind_pure _,
      fun silent => (silent rfl).elim⟩
  · exact formed_ask (fun s => plain_length s _) fun _ _ _ => rfl
  · exact formed_lift (plain_rangeOf _)
  · exact formed_lift (plain_magnitude _)
  · exact formed_ask (fun s => plain_extreme s _ _ _ _) fun s fs _ => by rw [extreme_swap]
  · exact formed_ask (fun s => plain_extreme s _ _ _ _) fun s fs _ => by rw [extreme_swap]
  · exact (formed_sumOf _ _).mono
  · exact (formed_sumOf _ _).mono
  · exact formed_pure _
  · exact formed_ask (fun _ => plain_ok _) fun s fs same => by rw [Store.display_swap same]
  · exact formed_ask (fun _ => plain_ok _) fun s fs same => by rw [Store.repr_swap same]
  · exact formed_pure _
  · exact formed_ask (fun s => plain_intOf s _) fun s fs same => by rw [intOf_swap same]
  · exact formed_pure _
  · exact formed_ask (fun s => plain_floatOf s _) fun s fs same => by rw [floatOf_swap same]
  · exact formed_pure _
  · exact formed_ask (fun _ => plain_ok _) fun _ _ _ => rfl
  · exact formed_list _
  · exact .bind (formed_ask (fun s => s.plain_items _) fun _ _ _ => rfl) fun _ => formed_list _
  · exact formed_tuple _
  · exact formed_pure _
  · exact .bind (formed_ask (fun s => s.plain_items _) fun _ _ _ => rfl) fun _ => formed_tuple _
  · exact .bind (formed_ask (fun s => (s.plain_items _).bind s.plain_sort) fun s fs _ => by
      rw [Store.sort_swap]; rfl) fun _ => formed_list _
  · exact formed_pure _

theorem formed_call (b : Builtin) (args : List Value) : Formed False (call b args) :=
  .ite ⟨(formed_run b args).steady, (formed_run b args).blind, False.elim⟩ (formed_fail nofun)

end Builtin

end Scratchpad
