import Scratchpad.Operator
import Scratchpad.Proofs.Store.Insertion
import Scratchpad.Proofs.Store.Keys

/-!
# Equality is an equivalence

Among values without floats, whatever the depth that comparing may go to, being found equal is symmetric
and transitive (`Alike.symm`, `Alike.trans`); and a greater depth never changes an answer (`equalAt_mono`).
Comparing always comes to an answer where values nest no deeper than it may go (`equalAt_total`). So
`equal` is an equivalence on them (`equality_is_equivalence`), but for the bound methods of a range
(`method_of_range_unequal`). Identity is finer (`identity_refines_equality`), and it leaves out the ranges.

Dicts are compared from one side only: each key of the one is looked up in the other. As both have
equally many hashes, none of them twice, all those of the other are found in the one too.
-/

namespace Scratchpad

/-! ### Dicts that agree -/

namespace Dict

/-- The dicts are equally large, and what the second has under a hash of the first is the same. -/
structure Agrees (same : Value → Value → Prop) (d d' : Dict) : Prop where
  size : d.size = d'.size
  found : ∀ e ∈ d.entries, ∃ v, d'.find? e.hash = some v ∧ same v e.value

variable {same : Value → Value → Prop} {d d' d'' : Dict}

/-- Equally many hashes, none of them twice: if the second dict has all those of the first, the first has
all those of the second. -/
theorem Agrees.hashes_subset (h : d.Agrees same d') (apart : (d.entries.map (·.hash)).Nodup) :
    d'.entries.map (·.hash) ⊆ d.entries.map (·.hash) := by
  have subset : d.entries.map (·.hash) ⊆ d'.entries.map (·.hash) := by
    intro hash mem
    obtain ⟨e, listed, rfl⟩ := List.mem_map.mp mem
    obtain ⟨v, found, -⟩ := h.found e listed
    obtain ⟨e', listed', hashes, -⟩ := mem_of_find? found
    exact List.mem_map.mpr ⟨e', listed', hashes⟩
  have size : (d'.entries.map (·.hash)).length ≤ (d.entries.map (·.hash)).length := by
    rw [List.length_map, List.length_map]
    exact Nat.le_of_eq h.size.symm
  exact ((apart.subperm subset).perm_of_length_le size).symm.subset

theorem Agrees.symm (h : d.Agrees same d') (apart : (d.entries.map (·.hash)).Nodup)
    (apart' : (d'.entries.map (·.hash)).Nodup) (symm : ∀ v w, same v w → same w v) : d'.Agrees same d where
  size := h.size.symm
  found e' mem' := by
    obtain ⟨e, mem, hashes⟩ := List.mem_map.mp (h.hashes_subset apart (List.mem_map_of_mem mem'))
    obtain ⟨v, found, related⟩ := h.found e mem
    rw [hashes, find?_of_mem apart' mem', Option.some.injEq] at found
    subst found
    rw [← hashes, find?_of_mem apart mem]
    exact ⟨e.value, rfl, symm _ _ related⟩

theorem Agrees.trans (h : d.Agrees same d') (h' : d'.Agrees same d'')
    (trans : ∀ u v w, same u v → same v w → same u w) : d.Agrees same d'' where
  size := h.size.trans h'.size
  found e mem := by
    obtain ⟨v, found, related⟩ := h.found e mem
    obtain ⟨e', mem', hashes, rfl⟩ := mem_of_find? found
    obtain ⟨w, found', related'⟩ := h'.found e' mem'
    rw [hashes] at found'
    exact ⟨w, found', trans _ _ _ related' related⟩

end Dict

/-- The two are one, and not a range. -/
theorem Value.isSame_iff {a b : Value} : a.isSame b = true ↔ a = b ∧ ∀ r, a ≠ .range r := by
  cases a <;> simp [isSame]

namespace Store

/-! ### Values without floats -/

/-- Has a dict no two entries with one hash? -/
def isKeyed (s : Store) : Value → Bool
  | .dict ref => ((s.dict ref).entries.map (·.hash)).Nodup
  | _ => true

/-- Is a bound method as programs make it? It has a receiver, and that is not a range, which has no methods. -/
def isMade (s : Store) : Value → Bool
  | .method ref =>
    match s.methods[ref]? with
    | some ⟨.range _, _⟩ | none => false
    | some _ => true
  | _ => true

/-- Nothing in the value is a float, and its dicts have each key once. -/
structure Exact (s : Store) (v : Value) : Prop where
  free : s.FloatFree v
  keyed : ∀ w, s.Contains v w → s.isKeyed w = true

/-- Both values are exact, and they are found equal. -/
structure Alike (s : Store) (room : Nat) (a b : Value) : Prop where
  left : s.Exact a
  right : s.Exact b
  equal : s.equalAt room a b = .ok true

/-- How two values can be equal that are not one. -/
inductive Agree (s : Store) : Nat → Value → Value → Prop where
  | number (left : a.int? = some n) (right : b.int? = some n) : Agree s room a b
  | method (left : s.methods[ref]? = some m) (right : s.methods[ref']? = some m)
      (made : m.receiver.isSame m.receiver = true) : Agree s room (.method ref) (.method ref')
  | list (each : List.Forall₂ (s.Alike room) (s.list ref).toList (s.list ref').toList) :
      Agree s (room + 1) (.list ref) (.list ref')
  | tuple (each : List.Forall₂ (s.Alike room) (s.tuple ref).toList (s.tuple ref').toList) :
      Agree s (room + 1) (.tuple ref) (.tuple ref')
  | dict (agrees : (s.dict ref).Agrees (s.Alike room) (s.dict ref')) :
      Agree s (room + 1) (.dict ref) (.dict ref')

variable {s : Store} {a b c v w : Value} {room room' : Nat}

theorem Exact.part (h : s.Exact v) (mem : w ∈ s.parts v) : s.Exact w where
  free := h.free.part mem
  keyed x inside := h.keyed x (.part mem inside)

theorem Exact.apart (h : s.Exact (.dict ref)) : ((s.dict ref).entries.map (·.hash)).Nodup :=
  of_decide_eq_true (h.keyed _ (.self _))

theorem Exact.value (h : s.Exact (.dict ref)) (mem : e ∈ (s.dict ref).entries) : s.Exact e.value :=
  h.part (List.mem_append_right _ (List.mem_map_of_mem mem))

/-! ### Ways to be equal -/

theorem allFound_true_iff {equal : Value → Value → Except Fault Bool} {other : Dict} {es : List Entry} :
    allFound equal other es = .ok true ↔
      ∀ e ∈ es, ∃ v, other.find? e.hash = some v ∧ equal v e.value = .ok true := by
  induction es with
  | nil => simp [allFound]
  | cons e es ih =>
    rw [allFound, List.forall_mem_cons, ← ih]
    cases found : other.find? e.hash with
    | none => simp
    | some v =>
      cases compared : equal v e.value with
      | error fault => simp [compared, bind, Except.bind]
      | ok same => cases same <;> simp [compared, bind, Except.bind, pure, Except.pure]

theorem sequences_alike {xs ys : Array Value} (left : ∀ x ∈ xs.toList, s.Exact x)
    (right : ∀ y ∈ ys.toList, s.Exact y) (h : sequencesEqual (s.equalAt room) xs ys = .ok true) :
    List.Forall₂ (s.Alike room) xs.toList ys.toList := by
  rw [sequencesEqual] at h
  split at h
  · apply (forall₂_mem (forall₂_of_allEqual h)).imp
    rintro x y ⟨⟨mem, mem'⟩, equal⟩
    exact ⟨left x mem, right y mem', equal⟩
  · cases h

theorem dicts_alike {d d' : Dict} (left : ∀ e ∈ d.entries, s.Exact e.value)
    (right : ∀ e ∈ d'.entries, s.Exact e.value) (h : dictsEqual (s.equalAt room) d d' = .ok true) :
    d.Agrees (s.Alike room) d' := by
  rw [dictsEqual] at h
  split at h
  · rename_i size
    refine ⟨size, fun e mem => ?_⟩
    obtain ⟨v, found, equal⟩ := allFound_true_iff.mp h e mem
    obtain ⟨e', mem', -, rfl⟩ := Dict.mem_of_find? found
    exact ⟨e'.value, found, right e' mem', left e mem, equal⟩
  · cases h

theorem equalAt_number (left : a.int? = some n) (right : b.int? = some n) :
    s.equalAt room a b = .ok true := by
  cases a with
  | bool | int =>
    cases b with
    | bool | int =>
      rw [equalAt.eq_def]
      exact congrArg Except.ok (decide_eq_true (Option.some.inj (left.trans right.symm)))
    | _ => cases right
  | _ => cases left

theorem Alike.ways (h : s.Alike room a b) : a = b ∨ s.Agree room a b := by
  obtain ⟨left, right, h⟩ := h
  rw [equalAt.eq_def] at h
  split at h
  · split at h
    · rename_i same
      exact .inl (congrArg _ same)
    · split at h
      · cases h
      · exact .inr <| .list (sequences_alike (fun x => left.part) (fun y => right.part) h)
  · split at h
    · rename_i same
      exact .inl (congrArg _ same)
    · split at h
      · cases h
      · exact .inr <| .tuple (sequences_alike (fun x => left.part) (fun y => right.part) h)
  · split at h
    · rename_i same
      exact .inl (congrArg _ same)
    · split at h
      · cases h
      · exact .inr <| .dict (dicts_alike (fun e => left.value) (fun e => right.value) h)
  · rename_i ref ref'
    have equal := Except.ok.inj h
    rw [methodsEqual] at equal
    split at equal
    · rename_i m m' found found'
      rw [Bool.and_eq_true, decide_eq_true_eq] at equal
      obtain ⟨method, receiver⟩ := equal
      obtain rfl : m = m' := by
        cases m
        cases m'
        exact congr (congrArg BoundMethod.mk ((Value.isSame_iff.mp receiver).1)) method
      exact .inr (.method found found' receiver)
    · cases equal
  · have equal := (scalarsEqual_iff left.free.ne_float right.free.ne_float).mp (Except.ok.inj h)
    rcases equal with same | ⟨n, as, as'⟩
    · exact .inl same
    · exact .inr (.number as as')

/-- A container is equal to itself whatever is in it. -/
theorem equalAt_self (free : ∀ d, v ≠ .float d) : s.equalAt room v v = .ok (s.isMade v) := by
  cases v with
  | float d => exact absurd rfl (free d)
  | list | tuple | dict => simp [equalAt.eq_def, isMade]
  | method ref =>
    rw [equalAt, methodsEqual, isMade]
    cases s.methods[ref]? with
    | none => rfl
    | some m =>
      obtain ⟨receiver, method⟩ := m
      cases receiver <;> simp [Value.isSame]
  | _ =>
    rw [equalAt.eq_def]
    exact congrArg Except.ok ((scalarsEqual_iff free free).mpr (.inl rfl))

theorem equalAt_of_agree (h : s.Agree room a b) : s.equalAt room a b = .ok true := by
  cases h with
  | number as as' => exact equalAt_number as as'
  | method found found' made =>
    rw [equalAt, methodsEqual, found, found']
    simp [made]
  | list each =>
    rw [equalAt]
    split
    · rfl
    · exact sequencesEqual_of_forall₂ (each.imp fun x y => Alike.equal)
  | tuple each =>
    rw [equalAt]
    split
    · rfl
    · exact sequencesEqual_of_forall₂ (each.imp fun x y => Alike.equal)
  | dict agrees =>
    rw [equalAt]
    split
    · rfl
    · rw [dictsEqual, if_pos agrees.size, allFound_true_iff]
      intro e mem
      obtain ⟨v, found, alike⟩ := agrees.found e mem
      exact ⟨v, found, alike.equal⟩

theorem Alike.symm (h : s.Alike room a b) : s.Alike room b a := by
  induction room using Nat.strongRecOn generalizing a b with
  | ind room ih =>
  rcases h.ways with rfl | ways
  · exact h
  refine ⟨h.right, h.left, equalAt_of_agree ?_⟩
  cases ways with
  | number as as' => exact .number as' as
  | method found found' made => exact .method found' found made
  | list each => exact .list (each.flip.imp fun x y => ih _ (Nat.lt_succ_self _))
  | tuple each => exact .tuple (each.flip.imp fun x y => ih _ (Nat.lt_succ_self _))
  | dict agrees =>
    exact .dict (agrees.symm h.left.apart h.right.apart fun v w => ih _ (Nat.lt_succ_self _))

theorem forall₂_trans {R : α → α → Prop} (trans : ∀ x y z, R x y → R y z → R x z)
    (h : List.Forall₂ R xs ys) (h' : List.Forall₂ R ys zs) : List.Forall₂ R xs zs := by
  apply (forall₂_meet h h'.flip).imp
  rintro x z ⟨y, -, first, second⟩
  exact trans x y z first second

theorem Alike.trans (h : s.Alike room a b) (h' : s.Alike room b c) : s.Alike room a c := by
  induction room using Nat.strongRecOn generalizing a b c with
  | ind room ih =>
  rcases h.ways with rfl | ways
  · exact h'
  rcases h'.ways with rfl | ways'
  · exact h
  refine ⟨h.left, h'.right, equalAt_of_agree ?_⟩
  cases ways with
  | number as as' =>
    cases ways' with
    | number as₁ as₁' => exact .number as (as₁'.trans (as₁.symm.trans as'))
    | _ => cases as'
  | method found found' made =>
    cases ways' with
    | number as => cases as
    | method found₁ found₁' =>
      cases found'.symm.trans found₁
      exact .method found found₁' made
  | list each =>
    cases ways' with
    | number as => cases as
    | list each' => exact .list (forall₂_trans (fun x y z => ih _ (Nat.lt_succ_self _)) each each')
  | tuple each =>
    cases ways' with
    | number as => cases as
    | tuple each' => exact .tuple (forall₂_trans (fun x y z => ih _ (Nat.lt_succ_self _)) each each')
  | dict agrees =>
    cases ways' with
    | number as => cases as
    | dict agrees' => exact .dict (agrees.trans agrees' fun u v w => ih _ (Nat.lt_succ_self _))

/-! ### More room -/

theorem allEqual_mono {equal equal' : Value → Value → Except Fault Bool}
    (more : ∀ x y e, equal x y = .ok e → equal' x y = .ok e) {xs ys : List Value}
    (h : allEqual equal xs ys = .ok e) : allEqual equal' xs ys = .ok e := by
  induction xs generalizing ys with
  | nil => cases ys <;> exact h
  | cons x xs ih =>
    cases ys with
    | nil => exact h
    | cons y ys =>
      rw [allEqual] at h ⊢
      cases first : equal x y with
      | error fault =>
        rw [first] at h
        cases h
      | ok same =>
        rw [first] at h
        rw [more x y same first]
        cases same with
        | false => exact h
        | true => exact ih h

theorem allFound_mono {equal equal' : Value → Value → Except Fault Bool}
    (more : ∀ x y e, equal x y = .ok e → equal' x y = .ok e) {other : Dict} {es : List Entry}
    (h : allFound equal other es = .ok r) : allFound equal' other es = .ok r := by
  induction es with
  | nil => exact h
  | cons e es ih =>
    rw [allFound] at h ⊢
    cases found : other.find? e.hash with
    | none =>
      rw [found] at h
      exact h
    | some v =>
      rw [found] at h
      dsimp only at h ⊢
      cases first : equal v e.value with
      | error fault =>
        rw [first] at h
        cases h
      | ok same =>
        rw [first] at h
        rw [more v e.value same first]
        cases same with
        | false => exact h
        | true => exact ih h

/-- How containers are compared: by their references, else by their items, if there is room. -/
theorem container_mono {p : Prop} [Decidable p] {fault : Fault} {items : Nat → Except Fault Bool}
    (more : ∀ n < room, ∀ n' ≥ n, items n = .ok e → items n' = .ok e) (le : room ≤ room')
    (h : (if p then Except.ok true else match room with
      | 0 => Except.error fault
      | n + 1 => items n) = .ok e) :
    (if p then Except.ok true else match room' with
      | 0 => Except.error fault
      | n + 1 => items n) = .ok e := by
  split at h
  · rename_i same
    rw [if_pos same]
    exact h
  · rename_i differ
    rw [if_neg differ]
    cases room with
    | zero => cases h
    | succ n =>
      obtain ⟨n', rfl⟩ : ∃ n', room' = n' + 1 := ⟨room' - 1, by omega⟩
      exact more n (Nat.lt_succ_self n) n' (by omega) h

/-- With more room there is the same answer. -/
theorem equalAt_mono (le : room ≤ room') (h : s.equalAt room a b = .ok e) : s.equalAt room' a b = .ok e := by
  induction room using Nat.strongRecOn generalizing room' a b e with
  | ind room ih =>
  have sequences {xs ys : Array Value} (n : Nat) (lt : n < room) (n' : Nat) (le : n' ≥ n)
      (h : sequencesEqual (s.equalAt n) xs ys = .ok e) : sequencesEqual (s.equalAt n') xs ys = .ok e := by
    rw [sequencesEqual] at h ⊢
    split at h
    · rename_i size
      rw [if_pos size]
      exact allEqual_mono (fun x y e => ih n lt le) h
    · rename_i size
      rw [if_neg size]
      exact h
  have dicts {d d' : Dict} (n : Nat) (lt : n < room) (n' : Nat) (le : n' ≥ n)
      (h : dictsEqual (s.equalAt n) d d' = .ok e) : dictsEqual (s.equalAt n') d d' = .ok e := by
    rw [dictsEqual] at h ⊢
    split at h
    · rename_i size
      rw [if_pos size]
      exact allFound_mono (fun x y e => ih n lt le) h
    · rename_i size
      rw [if_neg size]
      exact h
  rw [equalAt.eq_def] at h ⊢
  split at h
  · exact container_mono sequences le h
  · exact container_mono sequences le h
  · exact container_mono dicts le h
  · exact h
  · exact h

/-- Two answers agree, whatever the room for them. -/
theorem equalAt_unique (h : s.equalAt room a b = .ok e) (h' : s.equalAt room' a b = .ok e') : e = e' := by
  rcases Nat.le_total room room' with le | le
  · exact Except.ok.inj ((equalAt_mono le h).symm.trans h')
  · exact Except.ok.inj (h.symm.trans (equalAt_mono le h'))

/-! ### Values that fit the room -/

/-- The values that comparing goes into. -/
def inner (s : Store) : Value → List Value
  | .method _ => []
  | v => s.parts v

/-- Are no more than so many containers in each other? A value inside itself has no such bound. -/
def nestsWithin (s : Store) : Nat → Value → Bool
  | 0, .list _ | 0, .tuple _ | 0, .dict _ => false
  | 0, _ => true
  | depth + 1, v => (s.inner v).all (s.nestsWithin depth)

theorem allEqual_total {equal : Value → Value → Except Fault Bool} {xs ys : List Value}
    (h : ∀ x ∈ xs, ∀ y ∈ ys, ∃ e, equal x y = .ok e) : ∃ e, allEqual equal xs ys = .ok e := by
  induction xs generalizing ys with
  | nil => cases ys <;> exact ⟨_, rfl⟩
  | cons x xs ih =>
    cases ys with
    | nil => exact ⟨_, rfl⟩
    | cons y ys =>
      obtain ⟨same, first⟩ := h x List.mem_cons_self y List.mem_cons_self
      rw [allEqual, first]
      cases same with
      | false => exact ⟨_, rfl⟩
      | true => exact ih fun x mem y mem' => h x (.tail _ mem) y (.tail _ mem')

theorem allFound_total {equal : Value → Value → Except Fault Bool} {other : Dict} {es : List Entry}
    (h : ∀ e ∈ es, ∀ e' ∈ other.entries, ∃ r, equal e'.value e.value = .ok r) :
    ∃ r, allFound equal other es = .ok r := by
  induction es with
  | nil => exact ⟨_, rfl⟩
  | cons e es ih =>
    rw [allFound]
    cases found : other.find? e.hash with
    | none => exact ⟨_, rfl⟩
    | some v =>
      obtain ⟨e', mem, -, rfl⟩ := Dict.mem_of_find? found
      obtain ⟨same, first⟩ := h e List.mem_cons_self e' mem
      dsimp only
      rw [first]
      cases same with
      | false => exact ⟨_, rfl⟩
      | true => exact ih fun e mem => h e (.tail _ mem)

theorem equalAt_total (left : s.nestsWithin room a = true) (right : s.nestsWithin room b = true) :
    ∃ e, s.equalAt room a b = .ok e := by
  induction room generalizing a b with
  | zero =>
    rw [equalAt.eq_def]
    split
    · cases left
    · cases left
    · cases left
    · exact ⟨_, rfl⟩
    · exact ⟨_, rfl⟩
  | succ room ih =>
    have fits : ∀ x ∈ s.inner a, s.nestsWithin room x = true := List.all_eq_true.mp left
    have fits' : ∀ y ∈ s.inner b, s.nestsWithin room y = true := List.all_eq_true.mp right
    have sequences {xs ys : Array Value} (left : xs.toList = s.inner a) (right : ys.toList = s.inner b) :
        ∃ e, sequencesEqual (s.equalAt room) xs ys = .ok e := by
      rw [sequencesEqual]
      split
      · rw [left, right]
        exact allEqual_total fun x mem y mem' => ih (fits x mem) (fits' y mem')
      · exact ⟨_, rfl⟩
    have dicts {d d' : Dict} (left : d.keys ++ d.values = s.inner a)
        (right : d'.keys ++ d'.values = s.inner b) : ∃ e, dictsEqual (s.equalAt room) d d' = .ok e := by
      rw [dictsEqual]
      split
      · apply allFound_total
        intro e mem e' mem'
        have value : e.value ∈ s.inner a := left ▸ List.mem_append_right _ (List.mem_map_of_mem mem)
        have value' : e'.value ∈ s.inner b := right ▸ List.mem_append_right _ (List.mem_map_of_mem mem')
        exact ih (fits' _ value') (fits _ value)
      · exact ⟨_, rfl⟩
    rw [equalAt.eq_def]
    split
    · split
      · exact ⟨_, rfl⟩
      · exact sequences rfl rfl
    · split
      · exact ⟨_, rfl⟩
      · exact sequences rfl rfl
    · split
      · exact ⟨_, rfl⟩
      · exact dicts rfl rfl
    · exact ⟨_, rfl⟩
    · exact ⟨_, rfl⟩

/-- An exact value with no more containers in each other than comparing goes into. -/
structure Regular (s : Store) (v : Value) : Prop extends s.Exact v where
  shallow : s.nestsWithin maxDepth v = true

theorem Regular.equal_total (left : s.Regular a) (right : s.Regular b) : ∃ e, s.equal a b = .ok e :=
  equalAt_total left.shallow right.shallow

theorem Regular.equal_comm (left : s.Regular a) (right : s.Regular b) : s.equal a b = s.equal b a := by
  obtain ⟨e, forth⟩ := left.equal_total right
  obtain ⟨e', back⟩ := right.equal_total left
  have same : e = true ↔ e' = true := by
    constructor
    · rintro rfl
      have turned := (Alike.symm ⟨left.toExact, right.toExact, forth⟩).equal
      exact Except.ok.inj (back.symm.trans turned)
    · rintro rfl
      have turned := (Alike.symm ⟨right.toExact, left.toExact, back⟩).equal
      exact Except.ok.inj (forth.symm.trans turned)
  rw [forth, back, Bool.eq_iff_iff.mpr same]

/-- On values without floats that nest no deeper than comparing goes, `equal` never fails, it is symmetric and
transitive, and a value is equal to itself unless it is a bound method of a range, whichever objects they
share. -/
theorem equality_is_equivalence (s : Store) (a b c : Value) (ha : s.Regular a) (hb : s.Regular b)
    (hc : s.Regular c) :
    (∃ e, s.equal a b = .ok e) ∧ s.equal a a = .ok (s.isMade a) ∧ s.equal a b = s.equal b a ∧
      (s.equal a b = .ok true → s.equal b c = .ok true → s.equal a c = .ok true) := by
  refine ⟨ha.equal_total hb, equalAt_self ha.free.ne_float, ha.equal_comm hb, ?_⟩
  intro first second
  have left : s.Alike maxDepth a b := ⟨ha.toExact, hb.toExact, first⟩
  have right : s.Alike maxDepth b c := ⟨hb.toExact, hc.toExact, second⟩
  exact (left.trans right).equal

/-- Does it hold of the value and of all in it, and does nothing lie so deep inside? -/
def everywhere (s : Store) (p : Value → Bool) : Nat → Value → Bool
  | 0, _ => false
  | depth + 1, v => p v && (s.parts v).all (s.everywhere p depth)

theorem of_everywhere {p : Value → Bool} (depth : Nat) (h : s.everywhere p depth v = true)
    (inside : s.Contains v w) : p w = true := by
  induction inside generalizing depth with
  | self v =>
    cases depth with
    | zero => cases h
    | succ depth => exact (Bool.and_eq_true_iff.mp h).1
  | @part v w x mem inside ih =>
    cases depth with
    | zero => cases h
    | succ depth => exact ih depth (List.all_eq_true.mp (Bool.and_eq_true_iff.mp h).2 w mem)

theorem exact_of_checks (depth : Nat) (free : s.lacksFloat depth v = true)
    (keyed : s.everywhere s.isKeyed depth v = true) : s.Exact v where
  free := floatFree_of_lacksFloat depth free
  keyed _ := of_everywhere depth keyed

theorem regular_of_checks (depth : Nat) (free : s.lacksFloat depth v = true)
    (keyed : s.everywhere s.isKeyed depth v = true) (shallow : s.nestsWithin maxDepth v = true) :
    s.Regular v where
  toExact := exact_of_checks depth free keyed
  shallow := shallow

/-- With `x = [1, 'a']`, the dicts `{1: x, 'k': (x.append, True)}`, `{'k': (x.append, 1), True: x}` and
`{'k': (x.append, 1), 1: [True, 'a']}`; each has bound methods and tuples of its own. -/
def threeDicts : Store where
  lists := #[#[.int 1, .text "a"], #[.bool true, .text "a"]]
  tuples := #[#[.method 0, .bool true], #[.method 1, .int 1], #[.method 2, .int 1]]
  dicts := #[⟨[⟨.int 1, .int 1, .list 0⟩, ⟨.text "k", .text "k", .tuple 0⟩]⟩,
    ⟨[⟨.text "k", .text "k", .tuple 1⟩, ⟨.int 1, .bool true, .list 0⟩]⟩,
    ⟨[⟨.text "k", .text "k", .tuple 2⟩, ⟨.int 1, .int 1, .list 1⟩]⟩]
  methods := .replicate 3 ⟨.list 0, .list .append⟩

theorem equality_is_equivalence_sharing :
    threeDicts.equal (.dict 0) (.dict 1) = .ok true ∧ threeDicts.equal (.dict 1) (.dict 2) = .ok true ∧
      threeDicts.equal (.dict 0) (.dict 2) = .ok true := by
  have regular (i : Fin 3) : threeDicts.Regular (.dict i) := by
    have checks : ∀ i : Fin 3, threeDicts.lacksFloat 5 (.dict i) = true ∧
        threeDicts.everywhere threeDicts.isKeyed 5 (.dict i) = true ∧
        threeDicts.nestsWithin maxDepth (.dict i) = true := by
      decide +kernel
    exact regular_of_checks 5 (checks i).1 (checks i).2.1 (checks i).2.2
  have first : threeDicts.equal (.dict 0) (.dict 1) = .ok true := by decide +kernel
  have second : threeDicts.equal (.dict 1) (.dict 2) = .ok true := by decide +kernel
  have equivalence := equality_is_equivalence threeDicts (.dict 0) (.dict 1) (.dict 2) (regular 0)
    (regular 1) (regular 2)
  exact ⟨first, second, equivalence.2.2.2 first second⟩

/-- A bound method of a range is not equal to itself. -/
theorem method_of_range_unequal :
    let s : Store := { methods := #[⟨.range ⟨0, 3, 1⟩, .list .append⟩] }
    s.Regular (.method 0) ∧ s.equal (.method 0) (.method 0) = .ok false :=
  ⟨regular_of_checks 3 rfl rfl rfl, rfl⟩

/-! ### Identity -/

/-- `is` is symmetric and transitive, and every value but a range is itself. What is the same is equal,
unless it is a float, of which some are not numbers and equal to nothing. -/
theorem identity_refines_equality (s : Store) (a b c : Value) :
    (Operator.compare s .same a a = .ok true ↔ ∀ r, a ≠ .range r) ∧ a.isSame b = b.isSame a ∧
      (a.isSame b = true → b.isSame c = true → a.isSame c = true) ∧
      ((∀ d, a ≠ .float d) → (∀ ref, a = .method ref → s.isMade a = true) → a.isSame b = true →
        s.equal a b = .ok true) := by
  refine ⟨?_, ?_, ?_, fun free made same => ?_⟩
  · change Except.ok (a.isSame a) = _ ↔ _
    rw [Except.ok.injEq, Value.isSame_iff, and_iff_right rfl]
  · rw [Bool.eq_iff_iff, Value.isSame_iff, Value.isSame_iff]
    constructor <;> rintro ⟨rfl, apart⟩ <;> exact ⟨rfl, apart⟩
  · simp only [Value.isSame_iff]
    rintro ⟨rfl, -⟩
    exact id
  · obtain ⟨rfl, -⟩ := Value.isSame_iff.mp same
    refine (equalAt_self free).trans (congrArg Except.ok ?_)
    cases a with
    | method ref => exact made ref rfl
    | _ => rfl

/-- With `x = [x, x.append]`, `x` and its first item are one, and so are its second item and that again. -/
theorem identity_refines_equality_cyclic :
    let s : Store := { lists := #[#[.list 0, .method 0]], methods := #[⟨.list 0, .list .append⟩] }
    Operator.compare s .same (.list 0) (.list 0) = .ok true ∧
      s.equal (.list 0) (.list 0) = .ok true ∧ s.equal (.method 0) (.method 0) = .ok true := by
  intro s
  obtain ⟨itself, -, -, equal⟩ := identity_refines_equality s (.list 0) (.list 0) (.list 0)
  obtain ⟨-, -, -, equal'⟩ := identity_refines_equality s (.method 0) (.method 0) (.method 0)
  exact ⟨itself.mpr nofun, equal nofun nofun rfl, equal' nofun (fun _ _ => rfl) rfl⟩

/-- A range is not itself, though it is equal to itself. -/
theorem range_is_not_itself :
    Operator.compare {} .same (.range ⟨0, 3, 1⟩) (.range ⟨0, 3, 1⟩) = .ok false ∧
      Operator.compare {} .eq (.range ⟨0, 3, 1⟩) (.range ⟨0, 3, 1⟩) = .ok true := ⟨rfl, rfl⟩

end Store

end Scratchpad
