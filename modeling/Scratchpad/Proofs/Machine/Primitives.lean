import Mathlib
import Scratchpad.Machine

/-!
# What instructions are built on

Operators, subscripts, methods and builtins ask questions that never fail for a reason of the machine's own
(`Plain`). A computation may leave the functions of the store alone (`Steady`), and do nothing but add objects
(`Growing`).
-/

namespace Scratchpad

/-- Fails, if at all, for a reason that is not the machine's own. -/
def Plain (x : Except Fault α) : Prop := ∀ fault, x = .error fault → fault.kind ≠ .systemError

theorem plain_ok (a : α) : Plain (.ok a) := nofun

theorem plain_error {fault : Fault} (h : fault.kind ≠ .systemError) :
    Plain (.error fault : Except Fault α) := by
  rintro _ ⟨⟩
  exact h

theorem Plain.bind {x : Except Fault α} {f : α → Except Fault β} (first : Plain x)
    (rest : ∀ a, Plain (f a)) : Plain (x >>= f) := by
  cases x with
  | ok a => exact rest a
  | error fault => exact plain_error (first fault rfl)

theorem Plain.map {x : Except Fault α} {f : α → β} (h : Plain x) : Plain (f <$> x) :=
  h.bind fun _ => plain_ok _

theorem Plain.ite {p : Prop} [Decidable p] {x y : Except Fault α} (yes : Plain x) (no : Plain y) :
    Plain (if p then x else y) := by
  split
  · exact yes
  · exact no

theorem plain_mapM {f : α → Except Fault β} (h : ∀ a, Plain (f a)) (as : List α) :
    Plain (as.mapM f) := by
  induction as with
  | nil => exact plain_ok _
  | cons a as ih =>
    rw [List.mapM_cons]
    exact (h a).bind fun _ => ih.bind fun _ => plain_ok _

theorem plain_foldlM {f : β → α → Except Fault β} (h : ∀ b a, Plain (f b a)) (as : List α) (b : β) :
    Plain (as.foldlM f b) := by
  induction as generalizing b with
  | nil => exact plain_ok _
  | cons a as ih =>
    rw [List.foldlM_cons]
    exact (h b a).bind ih

theorem plain_filterM {f : α → Except Fault Bool} (h : ∀ a, Plain (f a)) (as : List α) :
    Plain (as.filterM f) := by
  have aux : ∀ (as kept : List α), Plain (as.filterAuxM f kept) := by
    intro as
    induction as with
    | nil => exact fun kept => plain_ok _
    | cons a as ih => exact fun kept => (h a).bind fun keep => ih _
  exact (aux as []).bind fun _ => plain_ok _

/-! ### The store -/

namespace Store

variable (s : Store)

theorem plain_allEqual {equal : Value → Value → Except Fault Bool} (h : ∀ a b, Plain (equal a b))
    (xs ys : List Value) : Plain (allEqual equal xs ys) := by
  induction xs generalizing ys with
  | nil => cases ys <;> exact plain_ok _
  | cons x xs ih =>
    cases ys with
    | nil => exact plain_ok _
    | cons y ys => exact (h x y).bind fun same => .ite (ih ys) (plain_ok _)

theorem plain_allFound {equal : Value → Value → Except Fault Bool} (h : ∀ a b, Plain (equal a b))
    (other : Dict) (entries : List Entry) : Plain (allFound equal other entries) := by
  induction entries with
  | nil => exact plain_ok _
  | cons e rest ih =>
    unfold allFound
    split
    · exact (h _ _).bind fun same => .ite ih (plain_ok _)
    · exact plain_ok _

theorem plain_equalAt (room : Nat) (a b : Value) : Plain (s.equalAt room a b) := by
  induction room generalizing a b with
  | zero =>
    unfold equalAt
    split
    any_goals exact .ite (plain_ok _) (plain_error nofun)
    all_goals exact plain_ok _
  | succ room ih =>
    unfold equalAt
    split
    · exact .ite (plain_ok _) (.ite (plain_allEqual ih _ _) (plain_ok _))
    · exact .ite (plain_ok _) (.ite (plain_allEqual ih _ _) (plain_ok _))
    · exact .ite (plain_ok _) (.ite (plain_allFound ih _ _) (plain_ok _))
    all_goals exact plain_ok _

theorem plain_equal (a b : Value) : Plain (s.equal a b) := plain_equalAt s _ a b

theorem plain_position? (item : Value) (xs : List Value) : Plain (s.position? item xs) := by
  induction xs with
  | nil => exact plain_ok _
  | cons x xs ih =>
    exact (plain_equal s x item).bind fun same => .ite (plain_ok _) (ih.bind fun _ => plain_ok _)

theorem plain_keyAt (room : Nat) (v : Value) : Plain (s.keyAt room v) := by
  induction room generalizing v with
  | zero => cases v <;> first | exact plain_ok _ | exact plain_error nofun
  | succ room ih =>
    cases v with
    | tuple ref => exact (plain_mapM ih _).bind fun _ => plain_ok _
    | list ref | dict ref | method ref => exact plain_error nofun
    | _ => exact plain_ok _

theorem plain_lookup (d : Dict) (key : Value) : Plain (s.lookup d key) :=
  (plain_keyAt s _ key).bind fun _ => plain_ok _

theorem plain_inserted (d : Dict) (key v : Value) : Plain (s.inserted d key v) :=
  (plain_keyAt s _ key).bind fun _ => plain_ok _

theorem plain_itemsOrder {equal : Value → Value → Except Fault Bool}
    {order : Value → Value → Except Fault (Option Ordering)} (h : ∀ a b, Plain (equal a b))
    (h' : ∀ a b, Plain (order a b)) (xs ys : List Value) : Plain (itemsOrder equal order xs ys) := by
  induction xs generalizing ys with
  | nil => cases ys <;> exact plain_ok _
  | cons x xs ih =>
    cases ys with
    | nil => exact plain_ok _
    | cons y ys => exact (h x y).bind fun same => .ite (ih ys) (h' x y)

theorem plain_orderAt (symbol : String) (room : Nat) (a b : Value) :
    Plain (s.orderAt symbol room a b) := by
  induction room using Nat.strongRecOn generalizing a b with
  | ind room ih =>
    fun_cases orderAt s symbol room a b with
    | case1 | case6 => exact plain_ok _
    | case2 | case3 | case7 => exact plain_error nofun
    | case4 room a b | case5 room a b =>
      exact plain_itemsOrder (plain_equal s) (ih room (Nat.lt_succ_self room)) _ _

theorem plain_order (symbol : String) (a b : Value) : Plain (s.order symbol a b) :=
  plain_orderAt s symbol _ a b

theorem plain_insertSorted (item : Value) (xs : List Value) : Plain (s.insertSorted item xs) := by
  induction xs with
  | nil => exact plain_ok _
  | cons x xs ih =>
    exact (plain_order s _ item x).bind fun order => .ite (ih.bind fun _ => plain_ok _) (plain_ok _)

theorem plain_sort (items : Array Value) : Plain (s.sort items) :=
  (plain_foldlM (fun sorted item => plain_insertSorted s item sorted) _ _).bind fun _ => plain_ok _

theorem plain_iterate (v : Value) : Plain (s.iterate v) := by
  cases v <;> first | exact plain_ok _ | exact plain_error nofun

theorem plain_items (v : Value) : Plain (s.items v) :=
  (plain_iterate s v).bind fun it => by cases it <;> exact plain_ok _

end Store

/-! ### Computations -/

/-- The world that a computation leaves, whether it fails or not. -/
def Eval.after (x : Eval α) (w : World) : World :=
  match x w with
  | .ok (_, w') => w'
  | .error (_, w') => w'

theorem Eval.after_of_ok {x : Eval α} (h : x w = .ok (a, w')) : x.after w = w' := by
  unfold after
  rw [h]

theorem Eval.after_of_error {x : Eval α} (h : x w = .error (fault, w')) : x.after w = w' := by
  unfold after
  rw [h]

theorem Eval.after_bind_of_ok {x : Eval α} {f : α → Eval β} (h : x w = .ok (a, w')) :
    (x >>= f).after w = (f a).after w' := by
  have same : (x >>= f) w = f a w' := by
    change (x w).bind _ = _
    rw [h]
    rfl
  unfold after
  rw [same]

theorem Eval.after_bind_of_error {x : Eval α} {f : α → Eval β} (h : x w = .error (fault, w')) :
    (x >>= f).after w = w' := by
  have same : (x >>= f) w = .error (fault, w') := by
    change (x w).bind _ = _
    rw [h]
    rfl
  exact after_of_error same

/-- What computations one after another leave is related to what they find, if each keeps to the
relation. -/
theorem Eval.after_bind {R : World → World → Prop}
    (trans : ∀ w w₁ w₂, R w w₁ → R w₁ w₂ → R w w₂) {x : Eval α} {f : α → Eval β}
    (first : ∀ w, R w (x.after w)) (rest : ∀ a w, R w ((f a).after w)) (w : World) :
    R w ((x >>= f).after w) := by
  have start := first w
  match done : x w with
  | .ok (a, w₁) =>
    rw [after_of_ok done] at start
    rw [after_bind_of_ok done]
    exact trans w w₁ _ start (rest a w₁)
  | .error (fault, w₁) =>
    rw [after_of_error done] at start
    rw [after_bind_of_error done]
    exact start

theorem Eval.after_lift (x : Except Fault α) (w : World) : (liftM x : Eval α).after w = w := by
  cases x <;> rfl

theorem Eval.after_ask (f : Store → Except Fault α) (w : World) : (ask f).after w = w :=
  after_lift (f w.store) w

/-- In this world fails, if at all, for a reason that is not the machine's own. -/
def PlainIn (w : World) (x : Eval α) : Prop :=
  ∀ fault w', x w = .error (fault, w') → fault.kind ≠ .systemError

/-- Makes no functions, and fails, if at all, for a reason that is not the machine's own. -/
structure Steady (x : Eval α) : Prop where
  functions : ∀ w, (x.after w).store.functions = w.store.functions
  plain : ∀ w, PlainIn w x

theorem steady_pure (a : α) : Steady (pure a : Eval α) where
  functions _ := rfl
  plain _ := nofun

theorem Steady.bind {x : Eval α} {f : α → Eval β} (first : Steady x) (rest : ∀ a, Steady (f a)) :
    Steady (x >>= f) where
  functions := Eval.after_bind (R := fun w w' => w'.store.functions = w.store.functions)
    (fun _ _ _ before after => after.trans before) first.functions fun a =>
    (rest a).functions
  plain := by
    intro w fault w' h
    change (x w).bind _ = _ at h
    match done : x w with
    | .ok (a, w₁) =>
      rw [done] at h
      exact (rest a).plain w₁ fault w' h
    | .error (fault, w₁) =>
      rw [done] at h
      cases h
      exact first.plain w _ _ done

theorem steady_fail {fault : Fault} (h : fault.kind ≠ .systemError) :
    Steady (Eval.fail fault : Eval α) where
  functions _ := rfl
  plain := by rintro w _ _ ⟨⟩; exact h

theorem steady_lift {x : Except Fault α} (h : Plain x) : Steady (liftM x : Eval α) where
  functions w := by rw [Eval.after_lift]
  plain := by
    intro w fault w' failed
    cases x with
    | ok b => cases failed
    | error fault => cases failed; exact h fault rfl

theorem steady_ask {f : Store → Except Fault α} (h : ∀ s, Plain (f s)) : Steady (Eval.ask f) where
  functions w := by rw [Eval.after_ask]
  plain w := (steady_lift (h w.store)).plain w

theorem steady_make {f : Store → α × Store} (h : ∀ s, (f s).2.functions = s.functions) :
    Steady (Eval.make f) where
  functions w := h w.store
  plain _ := nofun

theorem steady_list (items : Array Value) : Steady (Eval.list items) := steady_make fun _ => rfl

theorem steady_tuple (items : Array Value) : Steady (Eval.tuple items) := steady_make fun _ => rfl

theorem steady_dict (d : Dict) : Steady (Eval.dict d) := steady_make fun _ => rfl

theorem steady_print (text : String) : Steady (Eval.print text) where
  functions _ := rfl
  plain _ := nofun

/-! ### Objects that stay -/

/-- Every object of the first store is as it was in the second, unless it may have changed. -/
structure Store.Kept (Changed : Value → Prop) (s s' : Store) : Prop where
  lists : ∀ (ref : Nat) items, ¬ Changed (.list ref) → s.lists[ref]? = some items → s'.lists[ref]? = some items
  dicts : ∀ (ref : Nat) d, ¬ Changed (.dict ref) → s.dicts[ref]? = some d → s'.dicts[ref]? = some d
  tuples : ∀ (ref : Nat) items, s.tuples[ref]? = some items → s'.tuples[ref]? = some items
  functions : ∀ (ref : Nat) f, s.functions[ref]? = some f → s'.functions[ref]? = some f
  methods : ∀ (ref : Nat) m, s.methods[ref]? = some m → s'.methods[ref]? = some m

namespace Store

variable {Changed : Value → Prop} {s s' s'' : Store}

theorem kept_refl : s.Kept Changed s where
  lists _ _ _ := id
  dicts _ _ _ := id
  tuples _ _ := id
  functions _ _ := id
  methods _ _ := id

theorem Kept.trans (h : s.Kept Changed s') (h' : s'.Kept Changed s'') : s.Kept Changed s'' where
  lists ref items kept found := h'.lists ref items kept (h.lists ref items kept found)
  dicts ref d kept found := h'.dicts ref d kept (h.dicts ref d kept found)
  tuples ref items found := h'.tuples ref items (h.tuples ref items found)
  functions ref f found := h'.functions ref f (h.functions ref f found)
  methods ref m found := h'.methods ref m (h.methods ref m found)

theorem Kept.mono {Changed' : Value → Prop} (le : ∀ v, Changed v → Changed' v) (h : s.Kept Changed s') :
    s.Kept Changed' s' where
  lists ref items kept := h.lists ref items fun changed => kept (le _ changed)
  dicts ref d kept := h.dicts ref d fun changed => kept (le _ changed)
  tuples := h.tuples
  functions := h.functions
  methods := h.methods

theorem getElem?_push_of_some {xs : Array α} {i : Nat} {y : α} (x : α) (h : xs[i]? = some y) :
    (xs.push x)[i]? = some y := by
  obtain ⟨lt, rfl⟩ := Array.getElem?_eq_some_iff.mp h
  exact Array.getElem?_push_lt lt

theorem kept_newList (items : Array Value) : s.Kept Changed (s.newList items).2 :=
  { kept_refl with lists := fun _ _ _ => getElem?_push_of_some items }

theorem kept_newTuple (items : Array Value) : s.Kept Changed (s.newTuple items).2 :=
  { kept_refl with tuples := fun _ _ => getElem?_push_of_some items }

theorem kept_newDict (d : Dict) : s.Kept Changed (s.newDict d).2 :=
  { kept_refl with dicts := fun _ _ _ => getElem?_push_of_some d }

theorem kept_newFunction (f : Function) : s.Kept Changed (s.newFunction f).2 :=
  { kept_refl with functions := fun _ _ => getElem?_push_of_some f }

theorem kept_newMethod (m : BoundMethod) : s.Kept Changed (s.newMethod m).2 :=
  { kept_refl with methods := fun _ _ => getElem?_push_of_some m }

theorem kept_setList {ref : Nat} (changed : Changed (.list ref)) (items : Array Value) :
    s.Kept Changed (s.setList ref items) :=
  { kept_refl with
    lists := by
      intro other old kept found
      have apart : ref ≠ other := by
        rintro rfl
        exact kept changed
      exact (Array.getElem?_setIfInBounds_ne apart).trans found }

theorem kept_setDict {ref : Nat} (changed : Changed (.dict ref)) (d : Dict) :
    s.Kept Changed (s.setDict ref d) :=
  { kept_refl with
    dicts := by
      intro other old kept found
      have apart : ref ≠ other := by
        rintro rfl
        exact kept changed
      exact (Array.getElem?_setIfInBounds_ne apart).trans found }

end Store

/-- The later world has the same globals, the same output and the same objects, and perhaps new
objects. -/
structure World.Grows (w w' : World) : Prop where
  globals : w'.globals = w.globals
  output : w'.output = w.output
  store : w.store.Kept (fun _ => False) w'.store

namespace World

variable {w w' w'' : World}

theorem grows_refl : w.Grows w := ⟨rfl, rfl, Store.kept_refl⟩

theorem Grows.trans (h : w.Grows w') (h' : w'.Grows w'') : w.Grows w'' :=
  ⟨h'.globals.trans h.globals, h'.output.trans h.output, h.store.trans h'.store⟩

end World

/-! ### Computations that only add objects -/

/-- Does nothing but add objects. -/
def Growing (x : Eval α) : Prop := ∀ w : World, w.Grows (x.after w)

theorem growing_pure (a : α) : Growing (pure a : Eval α) := fun _ => World.grows_refl

theorem growing_fail (fault : Fault) : Growing (Eval.fail fault : Eval α) := fun _ => World.grows_refl

theorem growing_get : Growing (get : Eval World) := fun _ => World.grows_refl

theorem growing_lift (x : Except Fault α) : Growing (liftM x : Eval α) := by
  intro w
  rw [Eval.after_lift]
  exact World.grows_refl

theorem growing_ask (f : Store → Except Fault α) : Growing (Eval.ask f) := by
  intro w
  rw [Eval.after_ask]
  exact World.grows_refl

theorem growing_make {f : Store → α × Store} (h : ∀ s : Store, s.Kept (fun _ => False) (f s).2) :
    Growing (Eval.make f) :=
  fun w => ⟨rfl, rfl, h w.store⟩

theorem Growing.bind {x : Eval α} {f : α → Eval β} (first : Growing x) (rest : ∀ a, Growing (f a)) :
    Growing (x >>= f) :=
  Eval.after_bind (R := World.Grows) (fun _ _ _ => World.Grows.trans) first rest

theorem growing_list (items : Array Value) : Growing (Eval.list items) :=
  growing_make fun _ => Store.kept_newList items

theorem growing_tuple (items : Array Value) : Growing (Eval.tuple items) :=
  growing_make fun _ => Store.kept_newTuple items

theorem growing_dict (d : Dict) : Growing (Eval.dict d) := growing_make fun _ => Store.kept_newDict d

/-! ### Operators -/

namespace Operator

theorem plain_held (n : Option Int64) : Plain (held n) := by
  cases n with
  | some n => exact plain_ok _
  | none => exact plain_error nofun

theorem plain_exact (n : Int) : Plain (exact n) := plain_held _

theorem plain_floatBinary (op : BinaryOp) (a b : Double) : Plain (floatBinary op a b) := by
  cases op with
  | add | sub | mul => exact plain_ok _
  | div | floorDiv | mod | pow => exact .ite (plain_error nofun) (plain_ok _)

theorem plain_intPower (a b : Int64) : Plain (intPower a b) := by
  unfold intPower
  exact .ite (.ite (plain_held _) (plain_error nofun)) (.ite (plain_error nofun) (plain_ok _))

theorem plain_intBinary (op : BinaryOp) (a b : Int64) : Plain (intBinary op a b) := by
  cases op with
  | add | sub | mul => exact plain_exact _
  | div => exact plain_floatBinary .div (.ofInt a) (.ofInt b)
  | floorDiv | mod => exact .ite (plain_error nofun) (plain_held _)
  | pow => exact plain_intPower a b

theorem plain_checkRepeat (size count : Nat) : Plain (checkRepeat size count) :=
  .ite (plain_ok _) (plain_error nofun)

theorem plain_repeatItems (items : Array Value) (count : Nat) : Plain (repeatItems items count) :=
  (plain_checkRepeat _ _).bind fun _ => plain_ok _

theorem plain_unary (s : Store) (op : UnaryOp) (v : Value) : Plain (unary s op v) := by
  unfold unary
  split
  · exact plain_ok _
  · exact plain_ok _
  · exact plain_ok _
  · split
    · exact plain_exact _
    · exact plain_error nofun
  · split
    · exact plain_ok _
    · exact plain_error nofun

theorem plain_contains (s : Store) (container item : Value) : Plain (contains s container item) := by
  unfold contains
  split
  · split
    · exact plain_ok _
    · exact plain_error nofun
  · exact (s.plain_position? _ _).bind fun _ => plain_ok _
  · exact (s.plain_position? _ _).bind fun _ => plain_ok _
  · exact (s.plain_lookup _ _).bind fun _ => plain_ok _
  · split <;> exact plain_ok _
  · exact plain_error nofun

theorem plain_compare (s : Store) (op : CompareOp) (left right : Value) :
    Plain (compare s op left right) := by
  cases op with
  | eq => exact s.plain_equal _ _
  | notEq => exact (s.plain_equal _ _).bind fun _ => plain_ok _
  | same | notSame => exact plain_ok _
  | isIn => exact plain_contains s _ _
  | notIn => exact (plain_contains s _ _).bind fun _ => plain_ok _
  | lt | ltE | gt | gtE => exact (s.plain_order _ _ _).bind fun _ => plain_ok _

end Operator

/-! ### Items and attributes -/

namespace Subscript

theorem plain_index (sequence : String) (v : Value) : Plain (index sequence v) := by
  unfold index
  split
  · exact plain_ok _
  · exact plain_error nofun

theorem plain_place (sequence : String) (v : Value) (size : Int) :
    Plain (place sequence v size) := by
  refine (plain_index sequence v).bind fun i => ?_
  split
  · exact plain_ok _
  · exact plain_error nofun

theorem plain_load (s : Store) (object key : Value) : Plain (load s object key) := by
  cases object with
  | list ref | tuple ref | text t | range r => exact (plain_place _ _ _).bind fun _ => plain_ok _
  | dict ref =>
    refine (s.plain_lookup _ key).bind fun found => ?_
    cases found with
    | some v => exact plain_ok v
    | none => exact plain_error nofun
  | _ => exact plain_error nofun

theorem storeAttribute_kind (object : Value) (name : String) :
    (storeAttribute object name).kind ≠ .systemError := by
  unfold storeAttribute
  split <;> exact nofun

end Subscript

/-! ### Methods and builtins -/

namespace Method

theorem plain_popPlace (items : Array Value) (args : List Value) : Plain (popPlace items args) := by
  cases args with
  | nil => exact plain_ok _
  | cons key _ =>
    refine (Subscript.plain_index _ key).bind fun i => ?_
    split
    · exact plain_ok _
    · exact plain_error nofun

theorem plain_runList (s : Store) (items : Array Value) (m : ListMethod) (args : List Value) :
    Plain (runList s items m args) := by
  unfold runList
  split
  · exact plain_ok _
  · exact .ite (plain_error nofun) ((plain_popPlace items _).bind fun _ => plain_ok _)
  · exact (s.plain_items _).bind fun _ => plain_ok _
  · exact (Subscript.plain_index _ _).bind fun _ => plain_ok _
  · refine (s.plain_position? _ _).bind fun place => ?_
    cases place with
    | some i => exact plain_ok _
    | none => exact plain_error nofun
  · exact (plain_filterM (fun item => s.plain_equal item _) _).bind fun _ => plain_ok _
  · exact plain_ok _
  · exact (s.plain_sort items).bind fun _ => plain_ok _
  · exact plain_ok _

theorem plain_textArg (m : TextMethod) (v : Value) : Plain (textArg m v) := by
  cases v with
  | text t => exact plain_ok _
  | _ => exact plain_error nofun

theorem plain_joinParts (s : Store) (left index : Nat) (it : Iter) :
    Plain (joinParts s left index it) := by
  induction left generalizing index it with
  | zero => exact plain_ok _
  | succ left ih =>
    unfold joinParts
    split
    · exact plain_ok _
    · exact (ih _ _).bind fun _ => plain_ok _
    · exact plain_error nofun

theorem plain_runText (s : Store) (t : List Char) (m : TextMethod) (args : List Value) :
    Plain (runText s t m args) := by
  unfold runText
  split
  · exact plain_ok _
  · exact plain_ok _
  · exact plain_ok _
  · exact plain_ok _
  · exact (plain_textArg _ _).bind fun _ => plain_ok _
  · exact plain_ok _
  · exact plain_ok _
  · exact (plain_textArg _ _).bind fun _ => .ite (plain_error nofun) (plain_ok _)
  · exact (s.plain_iterate _).bind fun it => (plain_joinParts s _ _ it).bind fun _ => plain_ok _
  · exact (plain_textArg _ _).bind fun _ => (plain_textArg _ _).bind fun _ => plain_ok _
  · exact (plain_textArg _ _).bind fun _ => plain_ok _
  · exact (plain_textArg _ _).bind fun _ => plain_ok _
  · exact plain_ok _

end Method

namespace Builtin

theorem plain_length (s : Store) (v : Value) : Plain (length s v) := by
  cases v <;> first | exact plain_ok _ | exact plain_error nofun

theorem plain_indexArg (v : Value) : Plain (indexArg v) := by
  unfold indexArg
  split
  · exact plain_ok _
  · exact plain_error nofun

theorem plain_rangeOf (args : List Value) : Plain (rangeOf args) := by
  refine (plain_mapM plain_indexArg args).bind fun bounds => ?_
  split
  · exact plain_ok _
  · exact plain_ok _
  · exact .ite (plain_error nofun) (plain_ok _)
  · exact plain_ok _

theorem plain_magnitude (v : Value) : Plain (magnitude v) := by
  unfold magnitude
  split
  · exact plain_ok _
  · split
    · exact Operator.plain_exact _
    · exact plain_error nofun

theorem plain_best (s : Store) (symbol : String) (wanted : Ordering) (first : Value)
    (items : List Value) : Plain (best s symbol wanted first items) := by
  induction items generalizing first with
  | nil => exact plain_ok _
  | cons item rest ih => exact (s.plain_order _ _ _).bind fun _ => .ite (ih _) (ih _)

theorem plain_extreme (s : Store) (b : Builtin) (symbol : String) (wanted : Ordering)
    (args : List Value) : Plain (extreme s b symbol wanted args) := by
  unfold extreme
  split
  on_goal 1 => refine (s.plain_items _).map.bind fun items => ?_
  on_goal 2 => refine (plain_ok _).bind fun items => ?_
  all_goals
    cases items with
    | nil => exact plain_error nofun
    | cons first rest => exact plain_best s symbol wanted first rest

theorem plain_intOf (s : Store) (v : Value) : Plain (intOf s v) := by
  unfold intOf
  split
  · exact .ite (plain_error nofun) (.ite (plain_error nofun) (plain_ok _))
  · split
    · exact plain_ok _
    · exact plain_error nofun
  · split
    · exact plain_ok _
    · exact plain_error nofun

theorem plain_floatOf (s : Store) (v : Value) : Plain (floatOf s v) := by
  unfold floatOf
  split
  · split
    · exact plain_ok _
    · exact plain_error nofun
  · split
    · exact plain_ok _
    · exact plain_error nofun

end Builtin

theorem Frame.plain_buildDict (s : Store) (items : List Value) (d : Dict) :
    Plain (Frame.buildDict s items d) := by
  fun_induction Frame.buildDict s items d with
  | case1 key value rest d ih => exact (s.plain_inserted d key value).bind ih
  | case2 => exact plain_ok _

end Scratchpad
