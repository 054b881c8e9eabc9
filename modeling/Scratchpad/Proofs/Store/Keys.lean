import Scratchpad.Proofs.Store.Datum

/-!
# Keys and equality

A dict knows its keys by `key` alone. Among values without floats, equal ones have one key
(`equal_values_share_key`). Values with one key are equal too, unless one of them is disguised: a builtin
has the key of the text that names it, and a range that of a tuple. With one key, two values are unequal
exactly if somewhere the one has a disguised value and the other what it is taken for
(`shared_key_decides_equality`).
-/

namespace Scratchpad.Store

/-! ### Values in values -/

/-- The values directly inside of a value. -/
def parts (s : Store) : Value → List Value
  | .list ref => (s.list ref).toList
  | .tuple ref => (s.tuple ref).toList
  | .dict ref => (s.dict ref).keys ++ (s.dict ref).values
  | .method ref => (s.methods[ref]?.map (·.receiver)).toList
  | _ => []

/-- The second value is the first, or somewhere inside of it. -/
inductive Contains (s : Store) : Value → Value → Prop where
  | self (v : Value) : Contains s v v
  | part (mem : w ∈ s.parts v) (inside : Contains s w x) : Contains s v x

def FloatFree (s : Store) (v : Value) : Prop := ∀ d, ¬ s.Contains v (.float d)

/-! ### Keys -/

/-- The text that names a builtin. -/
def builtinLabel (b : Builtin) : String := "<builtin " ++ b.name ++ ">"

/-- Which values have a key, and which key. -/
inductive Keyed (s : Store) : Nat → Value → Key → Prop where
  | none : Keyed s room .none .none
  | number (as : v.int? = some n) : Keyed s room v (.int n)
  | float (d : Double) : Keyed s room (.float d) (floatKey d)
  | text (t : String) : Keyed s room (.text t) (.text t)
  | builtin (b : Builtin) : Keyed s room (.builtin b) (.text (builtinLabel b))
  | range (r : Range) :
      Keyed s room (.range r) (.tuple [.text "range", .int r.start, .int r.stop, .int r.step])
  | function (ref : Nat) : Keyed s room (.function ref) (.function ref)
  | tuple (each : List.Forall₂ (fun v k => s.keyAt room v = .ok k) (s.tuple ref).toList ks) :
      Keyed s (room + 1) (.tuple ref) (.tuple ks)

/-- The first value has the key of the second, which is another value. -/
inductive Disguised (s : Store) : Value → Value → Prop where
  | builtin (b : Builtin) : Disguised s (.builtin b) (.text (builtinLabel b))
  | range (r : Range) (items : (s.tuple ref).toList = [.text "range", x, y, z])
      (start : x.int? = some r.start) (stop : y.int? = some r.stop) (step : z.int? = some r.step) :
      Disguised s (.range r) (.tuple ref)

/-- One of the values is disguised as the other. -/
def Confused (s : Store) (a b : Value) : Prop := s.Disguised a b ∨ s.Disguised b a

/-- At one place, which only tuples lead to, the first value has the third and the second the fourth. -/
inductive Meet (s : Store) : Value → Value → Value → Value → Prop where
  | here (a b : Value) : Meet s a b a b
  | item (i : Nat) (left : (s.tuple ref).toList[i]? = some v) (right : (s.tuple ref').toList[i]? = some w)
      (inside : Meet s v w x y) : Meet s (.tuple ref) (.tuple ref') x y

/-- Somewhere the one has a disguised value and the other what it is taken for. -/
def Mistaken (s : Store) (a b : Value) : Prop := ∃ x y, s.Meet a b x y ∧ s.Confused x y

variable {s : Store} {a b v : Value} {k k' : Key} {room : Nat}

theorem FloatFree.part (free : s.FloatFree v) (mem : w ∈ s.parts v) : s.FloatFree w :=
  fun d inside => free d (.part mem inside)

theorem FloatFree.ne_float (free : s.FloatFree v) (d : Double) : v ≠ .float d := by
  rintro rfl
  exact free d (.self _)

/-- Nothing in the value is a float, and nothing lies so deep inside of it. -/
def lacksFloat (s : Store) : Nat → Value → Bool
  | 0, _ => false
  | _, .float _ => false
  | depth + 1, v => (s.parts v).all (s.lacksFloat depth)

theorem floatFree_of_lacksFloat (depth : Nat) (h : s.lacksFloat depth v = true) : s.FloatFree v := by
  intro d inside
  generalize reached : Value.float d = x at inside
  induction inside generalizing depth with
  | self v =>
    subst reached
    cases depth <;> cases h
  | @part v w x mem inside ih =>
    cases depth with
    | zero => cases h
    | succ depth =>
      cases v with
      | float => cases h
      | _ => exact ih depth (List.all_eq_true.mp h w mem) reached

theorem forall₂_of_mapM_ok {f : α → Except ε β} {xs : List α} {ys : List β} (h : xs.mapM f = .ok ys) :
    List.Forall₂ (fun x y => f x = .ok y) xs ys := by
  induction xs generalizing ys with
  | nil =>
    cases h
    exact .nil
  | cons x xs ih =>
    rw [List.mapM_cons] at h
    match first : f x, h with
    | .ok y, h =>
      match rest : xs.mapM f, h with
      | .ok _, rfl => exact .cons first (ih rest)

theorem keyed_of_keyAt (h : s.keyAt room v = .ok k) : s.Keyed room v k := by
  cases v with
  | tuple ref =>
    cases room with
    | zero => simp [keyAt] at h
    | succ room =>
      rw [keyAt] at h
      cases items : (s.tuple ref).toList.mapM (s.keyAt room) with
      | error fault =>
        rw [items] at h
        cases h
      | ok ks =>
        rw [items] at h
        cases h
        exact .tuple (forall₂_of_mapM_ok items)
  | list | dict | method => simp [keyAt] at h
  | _ =>
    rw [keyAt] at h
    cases h
    first
    | exact .none
    | exact .number rfl
    | exact .float _
    | exact .text _
    | exact .range _
    | exact .builtin _
    | exact .function _

theorem keyAt_number (as : v.int? = some n) : s.keyAt room v = .ok (.int n) := by
  cases v with
  | bool | int =>
    cases as
    simp [keyAt]
  | _ => cases as

/-! ### Equal values -/

theorem scalarsEqual_iff (whole : ∀ d, a ≠ .float d) (whole' : ∀ d, b ≠ .float d) :
    scalarsEqual a b = true ↔ a = b ∨ ∃ n, a.int? = some n ∧ b.int? = some n := by
  have compared : scalarsEqual a b =
      if a.int?.isSome && b.int?.isSome then decide (a.int?.getD 0 = b.int?.getD 0) else decide (a = b) := by
    cases a with
    | float d => exact absurd rfl (whole d)
    | _ =>
      cases b with
      | float d => exact absurd rfl (whole' d)
      | _ => rfl
  have one : a = b → a.int? = b.int? := congrArg _
  rw [compared]
  cases left : a.int? <;> cases right : b.int? <;> rw [left, right] at one
  · simp
  · simp
  · simp
  · simpa [eq_comm] using one

theorem forall₂_of_allEqual {equal : Value → Value → Except Fault Bool} {xs ys : List Value}
    (h : allEqual equal xs ys = .ok true) : List.Forall₂ (fun x y => equal x y = .ok true) xs ys := by
  induction xs generalizing ys with
  | nil =>
    cases ys with
    | nil => exact .nil
    | cons => cases h
  | cons x xs ih =>
    cases ys with
    | nil => cases h
    | cons y ys =>
      rw [allEqual] at h
      cases first : equal x y with
      | error fault =>
        rw [first] at h
        cases h
      | ok same =>
        rw [first] at h
        cases same with
        | false => cases h
        | true => exact .cons first (ih h)

theorem keys_eq_of_forall₂ {xs ys : List Value} {ks ks' : List Key}
    (ih : ∀ x ∈ xs, ∀ y ∈ ys, ∀ {k k'}, s.keyAt room x = .ok k → s.keyAt room y = .ok k' →
      s.equalAt room x y = .ok true → k = k')
    (left : List.Forall₂ (fun x k => s.keyAt room x = .ok k) xs ks)
    (right : List.Forall₂ (fun y k => s.keyAt room y = .ok k) ys ks')
    (same : List.Forall₂ (fun x y => s.equalAt room x y = .ok true) xs ys) : ks = ks' := by
  induction same generalizing ks ks' with
  | nil =>
    cases left
    cases right
    rfl
  | @cons x y xs ys first _ rest =>
    cases left with
    | cons key keys =>
      cases right with
      | cons key' keys' =>
        have head := ih x List.mem_cons_self y List.mem_cons_self key key' first
        have tail := rest (fun x mem y mem' => ih x (.tail _ mem) y (.tail _ mem')) keys keys'
        rw [head, tail]

/-- The depth allowed is the same for both, so both go down the tuples in step. -/
theorem keyAt_eq_of_equalAt (free : s.FloatFree a) (free' : s.FloatFree b) (h : s.keyAt room a = .ok k)
    (h' : s.keyAt room b = .ok k') (same : s.equalAt room a b = .ok true) : k = k' := by
  induction room using Nat.strongRecOn generalizing a b k k' with
  | ind room ih =>
  rw [equalAt.eq_def] at same
  split at same
  · simp [keyAt] at h
  · rename_i ref ref'
    cases keyed_of_keyAt h with
    | number as => cases as
    | @tuple room _ ks each =>
      cases keyed_of_keyAt h' with
      | number as => cases as
      | tuple each' =>
        split at same
        · rename_i one
          subst one
          exact Except.ok.inj (h.symm.trans h')
        · dsimp only at same
          rw [sequencesEqual] at same
          split at same
          · refine congrArg Key.tuple (keys_eq_of_forall₂ ?_ each each' (forall₂_of_allEqual same))
            intro x mem y mem' k k'
            exact ih room (Nat.lt_succ_self _) (free.part mem) (free'.part mem')
          · cases same
  · simp [keyAt] at h
  · simp [keyAt] at h
  · have equal := (scalarsEqual_iff free.ne_float free'.ne_float).mp (Except.ok.inj same)
    rcases equal with rfl | ⟨n, left, right⟩
    · exact Except.ok.inj (h.symm.trans h')
    · rw [keyAt_number left] at h
      rw [keyAt_number right] at h'
      exact Except.ok.inj (h.symm.trans h')

/-! ### Dicts -/

theorem find?_put (hash : Key) (key value : Value) (entries : List Entry) :
    ((Dict.put hash key value entries).find? (·.hash = hash)).map (·.value) = some value := by
  induction entries with
  | nil => simp [Dict.put]
  | cons e entries ih =>
    rw [Dict.put]
    split
    · simp [*]
    · rename_i other
      rw [List.find?_cons_of_neg (by simpa using other)]
      exact ih

/-- Values without floats that are equal have one key. So a dict holds the same under both of them, and
what is stored under the one is found under the other. -/
theorem equal_values_share_key (s : Store) (a b : Value) (k k' : Key) (free : s.FloatFree a)
    (free' : s.FloatFree b) (h : s.key a = .ok k) (h' : s.key b = .ok k') (same : s.equal a b = .ok true) :
    k = k' ∧ (∀ d : Dict, s.lookup d a = s.lookup d b) ∧
      ∀ (d : Dict) (v : Value), ∃ d', s.inserted d a v = .ok d' ∧ s.lookup d' b = .ok (some v) := by
  obtain rfl := keyAt_eq_of_equalAt free free' h h' same
  refine ⟨rfl, fun d => ?_, fun d v => ⟨d.insert k a v, ?_, ?_⟩⟩
  · rw [lookup, lookup, h, h']
  · rw [inserted, h]
    rfl
  · rw [lookup, h']
    exact congrArg Except.ok (find?_put k a v d.entries)

/-- `(True, ('a', range(3)))` and `(1, ('a', range(3)))`, with no tuple in common. -/
def twoTuples : Store where
  tuples := #[#[.text "a", .range ⟨0, 3, 1⟩], #[.bool true, .tuple 0], #[.text "a", .range ⟨0, 3, 1⟩],
    #[.int 1, .tuple 2]]

theorem equal_values_share_key_nested :
    twoTuples.equal (.tuple 1) (.tuple 3) = .ok true ∧
      twoTuples.lookup ⟨[⟨.tuple [.int 1, .tuple [.text "a", .tuple [.text "range", .int 0, .int 3, .int 1]]],
        .tuple 1, .text "found"⟩]⟩ (.tuple 3) = .ok (some (.text "found")) := by
  have left : twoTuples.FloatFree (.tuple 1) := floatFree_of_lacksFloat 3 rfl
  have right : twoTuples.FloatFree (.tuple 3) := floatFree_of_lacksFloat 3 rfl
  have same : twoTuples.equal (.tuple 1) (.tuple 3) = .ok true := by decide +kernel
  have shared := equal_values_share_key twoTuples (.tuple 1) (.tuple 3) _ _ left right rfl rfl same
  exact ⟨same, (shared.2.1 _).symm.trans (by decide +kernel)⟩

/-! ### Values with one key -/

theorem mem_builtins (b : Builtin) : b ∈ Builtin.all := by
  cases b <;> decide

theorem builtinLabel_inj {b b' : Builtin} (h : builtinLabel b = builtinLabel b') : b = b' := by
  have all : ∀ b ∈ Builtin.all, ∀ b' ∈ Builtin.all, builtinLabel b = builtinLabel b' → b = b' := by
    decide +kernel
  exact all b (mem_builtins b) b' (mem_builtins b') h

theorem builtinLabel_ne_range (b : Builtin) : builtinLabel b ≠ "range" := by
  have all : ∀ b ∈ Builtin.all, builtinLabel b ≠ "range" := by decide +kernel
  exact all b (mem_builtins b)

theorem not_confused_self : ¬ s.Confused a a := by
  rintro (self | self) <;> cases self

theorem eq_of_meet_self (h : s.Meet a b x y) (same : a = b) : x = y := by
  induction h with
  | here => exact same
  | item i left right _ ih =>
    cases same
    exact ih (Option.some.inj (left.symm.trans right))

theorem not_mistaken_self : ¬ s.Mistaken a a := by
  rintro ⟨x, y, meet, confused⟩
  obtain rfl := eq_of_meet_self meet rfl
  exact not_confused_self confused

theorem mistaken_leaf (leaf : (∀ ref, a ≠ .tuple ref) ∨ ∀ ref, b ≠ .tuple ref) :
    s.Mistaken a b ↔ s.Confused a b := by
  constructor
  · rintro ⟨x, y, meet, confused⟩
    cases meet with
    | here => exact confused
    | item => simp at leaf
  · exact fun confused => ⟨a, b, .here a b, confused⟩

theorem mistaken_tuples {ref ref' : Nat} : s.Mistaken (.tuple ref) (.tuple ref') ↔
    ∃ (i : Nat) (v w : Value), (s.tuple ref).toList[i]? = some v ∧ (s.tuple ref').toList[i]? = some w ∧
      s.Mistaken v w := by
  constructor
  · rintro ⟨x, y, meet, confused⟩
    cases meet with
    | here => rcases confused with wrong | wrong <;> cases wrong
    | item i left right inside => exact ⟨i, _, _, left, right, x, y, inside, confused⟩
  · rintro ⟨i, v, w, left, right, x, y, inside, confused⟩
    exact ⟨x, y, .item i left right inside, confused⟩

/-- Items of which it is known when they differ tell when the lists differ. -/
theorem allEqual_decided {equal : Value → Value → Except Fault Bool} {P : Value → Value → Prop}
    {xs ys : List Value}
    (h : List.Forall₂ (fun x y => ∃ e, equal x y = .ok e ∧ (e = false ↔ P x y)) xs ys) :
    ∃ e, allEqual equal xs ys = .ok e ∧
      (e = false ↔ ∃ (i : Nat) (x y : Value), xs[i]? = some x ∧ ys[i]? = some y ∧ P x y) := by
  induction h with
  | nil => exact ⟨true, rfl, by simp⟩
  | @cons x y xs ys first _ ih =>
    obtain ⟨e, compared, decides⟩ := first
    cases e with
    | false =>
      refine ⟨false, by rw [allEqual, compared]; rfl, iff_of_true rfl ?_⟩
      exact ⟨0, x, y, rfl, rfl, decides.mp rfl⟩
    | true =>
      obtain ⟨e, rest, decides'⟩ := ih
      refine ⟨e, by rw [allEqual, compared]; exact rest, decides'.trans ⟨?_, ?_⟩⟩
      · rintro ⟨i, found⟩
        exact ⟨i + 1, found⟩
      · rintro ⟨i, x', y', left, right, differ⟩
        cases i with
        | zero =>
          cases left
          cases right
          cases decides.mpr differ
        | succ i => exact ⟨i, x', y', left, right, differ⟩

/-- Only tuples are followed into. -/
theorem equalAt_leaf (h : s.keyAt room a = .ok k) (leaf : (∀ ref, a ≠ .tuple ref) ∨ ∀ ref, b ≠ .tuple ref) :
    s.equalAt room a b = .ok (scalarsEqual a b) := by
  rw [equalAt.eq_def]
  split
  · simp [keyAt] at h
  · simp at leaf
  · simp [keyAt] at h
  · simp [keyAt] at h
  · rfl

theorem decided_equal (free : s.FloatFree a) (free' : s.FloatFree b) (h : s.keyAt room a = .ok k)
    (leaf : (∀ ref, a ≠ .tuple ref) ∨ ∀ ref, b ≠ .tuple ref)
    (same : a = b ∨ ∃ n, a.int? = some n ∧ b.int? = some n) :
    ∃ e, s.equalAt room a b = .ok e ∧ (e = false ↔ s.Mistaken a b) := by
  refine ⟨true, ?_, iff_of_false Bool.noConfusion ?_⟩
  · rw [equalAt_leaf h leaf, (scalarsEqual_iff free.ne_float free'.ne_float).mpr same]
  · rw [mistaken_leaf leaf]
    rcases same with rfl | ⟨n, left, right⟩
    · exact not_confused_self
    · rintro (wrong | wrong) <;> cases wrong
      · cases left
      · cases left
      · cases right
      · cases right

theorem decided_confused (free : s.FloatFree a) (free' : s.FloatFree b) (h : s.keyAt room a = .ok k)
    (confused : s.Confused a b) : ∃ e, s.equalAt room a b = .ok e ∧ (e = false ↔ s.Mistaken a b) := by
  have leaf : (∀ ref, a ≠ .tuple ref) ∨ ∀ ref, b ≠ .tuple ref := by
    rcases confused with wrong | wrong <;> cases wrong <;> simp
  refine ⟨false, ?_, iff_of_true rfl ((mistaken_leaf leaf).mpr confused)⟩
  rw [equalAt_leaf h leaf, Except.ok.injEq, Bool.eq_false_iff, Ne,
    scalarsEqual_iff free.ne_float free'.ne_float]
  rintro (rfl | ⟨n, left, right⟩)
  · exact not_confused_self confused
  · rcases confused with wrong | wrong <;> cases wrong
    · cases left
    · cases left
    · cases right
    · cases right

/-- A tuple with the key of a range. -/
theorem disguised_range {r : Range} (free : s.FloatFree (.tuple ref))
    (each : List.Forall₂ (fun v k => s.keyAt room v = .ok k) (s.tuple ref).toList
      [.text "range", .int r.start, .int r.stop, .int r.step]) : s.Disguised (.range r) (.tuple ref) := by
  have number {v : Value} {n : Int64} (mem : v ∈ (s.tuple ref).toList) (h : s.keyAt room v = .ok (.int n)) :
      v.int? = some n := by
    generalize made : Key.int n = k at h
    cases keyed_of_keyAt h with
    | number as => cases made; exact as
    | float d => exact absurd rfl ((free.part mem).ne_float d)
    | _ => cases made
  have word {v : Value} (h : s.keyAt room v = .ok (.text "range")) : v = .text "range" := by
    generalize made : Key.text "range" = k at h
    cases keyed_of_keyAt h with
    | text t => cases made; rfl
    | builtin b => exact absurd (Key.text.inj made).symm (builtinLabel_ne_range b)
    | float d =>
      rw [floatKey] at made
      split at made <;> cases made
    | _ => cases made
  generalize items : (s.tuple ref).toList = vs at each number
  obtain _ | ⟨first, _ | ⟨start, _ | ⟨stop, _ | ⟨step, ⟨⟩⟩⟩⟩⟩ := each
  rw [word first] at items
  exact .range r items (number (by simp) start) (number (by simp) stop) (number (by simp) step)

/-- Values with one key compare equal, unless they are mistaken for each other. -/
theorem equalAt_of_keyAt (free : s.FloatFree a) (free' : s.FloatFree b) (h : s.keyAt room a = .ok k)
    (h' : s.keyAt room b = .ok k') (one : k = k') :
    ∃ e, s.equalAt room a b = .ok e ∧ (e = false ↔ s.Mistaken a b) := by
  induction room using Nat.strongRecOn generalizing a b k k' with
  | ind room ih =>
  have equal := decided_equal free free' h (b := b)
  have confused := decided_confused free free' h
  cases keyed_of_keyAt h with
  | none =>
    cases keyed_of_keyAt h' with
    | none => exact equal (by simp) (.inl rfl)
    | float d => exact absurd rfl (free'.ne_float d)
    | _ => cases one
  | number as =>
    cases keyed_of_keyAt h' with
    | number as' =>
      cases one
      exact equal (.inl (by rintro ref rfl; cases as)) (.inr ⟨_, as, as'⟩)
    | float d => exact absurd rfl (free'.ne_float d)
    | _ => cases one
  | float d => exact absurd rfl (free.ne_float d)
  | text t =>
    cases keyed_of_keyAt h' with
    | text t' =>
      cases one
      exact equal (by simp) (.inl rfl)
    | builtin b =>
      cases one
      exact confused (.inr (.builtin b))
    | float d => exact absurd rfl (free'.ne_float d)
    | _ => cases one
  | builtin b =>
    cases keyed_of_keyAt h' with
    | text t' =>
      cases one
      exact confused (.inl (.builtin b))
    | builtin b' =>
      obtain rfl := builtinLabel_inj (Key.text.inj one)
      exact equal (by simp) (.inl rfl)
    | float d => exact absurd rfl (free'.ne_float d)
    | _ => cases one
  | range r =>
    cases keyed_of_keyAt h' with
    | range r' =>
      obtain ⟨start, stop, step⟩ := r
      obtain ⟨start', stop', step'⟩ := r'
      cases one
      exact equal (by simp) (.inl rfl)
    | tuple each =>
      cases one
      exact confused (.inl (disguised_range free' each))
    | float d => exact absurd rfl (free'.ne_float d)
    | _ => cases one
  | function ref =>
    cases keyed_of_keyAt h' with
    | function ref' =>
      cases one
      exact equal (by simp) (.inl rfl)
    | float d => exact absurd rfl (free'.ne_float d)
    | _ => cases one
  | @tuple room ref ks each =>
    cases keyed_of_keyAt h' with
    | range r =>
      cases one
      exact confused (.inr (disguised_range free each))
    | @tuple _ ref' ks' each' =>
      cases one
      by_cases same : ref = ref'
      · subst same
        exact ⟨true, by rw [equalAt, if_pos rfl], iff_of_false Bool.noConfusion not_mistaken_self⟩
      · have size : (s.tuple ref).size = (s.tuple ref').size := by
          simpa using each.length_eq.trans each'.length_eq.symm
        have decided (x y : Value) (both : (x ∈ (s.tuple ref).toList ∧ y ∈ (s.tuple ref').toList) ∧
            ∃ k ∈ ks, s.keyAt room x = .ok k ∧ s.keyAt room y = .ok k) :
            ∃ e, s.equalAt room x y = .ok e ∧ (e = false ↔ s.Mistaken x y) := by
          obtain ⟨⟨mem, mem'⟩, k, -, key, key'⟩ := both
          exact ih room (Nat.lt_succ_self _) (free.part mem) (free'.part mem') key key' rfl
        have items := (forall₂_mem (forall₂_meet each each')).imp decided
        rw [equalAt, if_neg same, mistaken_tuples]
        rw [sequencesEqual, if_pos size]
        exact allEqual_decided items
    | float d => exact absurd rfl (free'.ne_float d)
    | _ => cases one

/-- Values without floats that have one key are compared without fail, and they are equal unless they are
mistaken for each other. -/
theorem shared_key_decides_equality (s : Store) (a b : Value) (k : Key) (free : s.FloatFree a)
    (free' : s.FloatFree b) (h : s.key a = .ok k) (h' : s.key b = .ok k) :
    (s.equal a b = .ok true ∧ ¬ s.Mistaken a b) ∨ (s.equal a b = .ok false ∧ s.Mistaken a b) := by
  obtain ⟨e, compared, decides⟩ := equalAt_of_keyAt free free' h h' rfl
  cases e with
  | true => exact .inl ⟨compared, fun mistaken => Bool.noConfusion (decides.mpr mistaken)⟩
  | false => exact .inr ⟨compared, decides.mp rfl⟩

/-- The tuples `(len, 1)` and `('<builtin len>', True)`. -/
def labelled : Store where
  tuples := #[#[.builtin .len, .int 1], #[.text "<builtin len>", .bool true]]

theorem shared_key_decides_equality_labelled :
    labelled.key (.tuple 0) = labelled.key (.tuple 1) ∧ labelled.equal (.tuple 0) (.tuple 1) = .ok false ∧
      labelled.Mistaken (.tuple 0) (.tuple 1) := by
  have unequal : labelled.equal (.tuple 0) (.tuple 1) = .ok false := by decide +kernel
  have decided := shared_key_decides_equality labelled (.tuple 0) (.tuple 1) _
    (floatFree_of_lacksFloat 2 rfl) (floatFree_of_lacksFloat 2 rfl) rfl rfl
  refine ⟨rfl, decided.resolve_left ?_⟩
  rintro ⟨equal, -⟩
  rw [unequal] at equal
  cases equal

/-- The tuple `('range', 1, 2, 3)`. -/
def rangeLike : Store where
  tuples := #[#[.text "range", .int 1, .int 2, .int 3]]

/-- Values with one key need not be equal: a builtin is found under its name, and a range under a tuple. -/
theorem disguised_values_collide :
    (¬ ∀ (s : Store) (a b : Value) (k : Key), s.FloatFree a → s.FloatFree b → s.key a = .ok k →
      s.key b = .ok k → s.equal a b = .ok true) ∧
    (do rangeLike.lookup (← rangeLike.inserted {} (.builtin .len) .none) (.text "<builtin len>")) =
      .ok (some .none) ∧
    (do rangeLike.lookup (← rangeLike.inserted {} (.range ⟨1, 2, 3⟩) .none) (.tuple 0)) = .ok (some .none) := by
  refine ⟨fun all => ?_, by decide +kernel, by decide +kernel⟩
  have equal := all rangeLike (.builtin .len) (.text "<builtin len>") _ (floatFree_of_lacksFloat 1 rfl)
    (floatFree_of_lacksFloat 1 rfl) rfl rfl
  exact absurd equal (by decide +kernel)

end Scratchpad.Store
