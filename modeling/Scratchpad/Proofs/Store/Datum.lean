import Scratchpad.Proofs.Token.Spelled
import Scratchpad.Store.Repr

/-!
# Finite data

A `Datum` is a value as a finite tree, without references. `Stands s v d` says that in the store `s`
the value `v` is the tree `d`; so `v` is not inside itself. Texts, keys and equality of such values
are those of their data, whichever references hold them (`repr_of_stands`, `equal_of_stands`).
-/

namespace Scratchpad

/-- Nothing, a boolean, an integer that has a negative, a text that can be written, and lists, tuples
and dicts of such. -/
inductive Datum where
  | none
  | bool (b : Bool)
  | int (n : Int64) (negatable : n ≠ .minValue)
  | text (s : String) (writable : ∀ c ∈ s.toList, Token.Writable c)
  | list (items : List Datum)
  | tuple (items : List Datum)
  | dict (pairs : List (Datum × Datum))

namespace Datum

def parts : Datum → List Datum
  | .list items | .tuple items => items
  | .dict pairs => pairs.map (·.1) ++ pairs.map (·.2)
  | _ => []

theorem sizeOf_part {d x : Datum} (h : x ∈ d.parts) : sizeOf x < sizeOf d := by
  cases d with
  | list items | tuple items =>
    have less := List.sizeOf_lt_of_mem (show x ∈ items from h)
    simp only [list.sizeOf_spec, tuple.sizeOf_spec]
    omega
  | dict pairs =>
    rcases List.mem_append.mp h with mem | mem
    all_goals
      obtain ⟨⟨key, value⟩, listed, rfl⟩ := List.mem_map.mp mem
      have less := List.sizeOf_lt_of_mem listed
      simp only [Prod.mk.sizeOf_spec, dict.sizeOf_spec] at less ⊢
      omega
  | _ => cases h

/-- What holds of a datum if it holds of its parts, holds of all. -/
theorem induction {P : Datum → Prop} (step : ∀ d, (∀ x ∈ d.parts, P x) → P d) (d : Datum) : P d := by
  induction size : sizeOf d using Nat.strongRecOn generalizing d with
  | ind n ih => exact step d fun x mem => ih _ (size ▸ sizeOf_part mem) x rfl

mutual

/-- How many containers stand in each other. -/
def depth : Datum → Nat
  | .list items | .tuple items => depthAll items + 1
  | .dict pairs => depthPairs pairs + 1
  | _ => 0

def depthAll : List Datum → Nat
  | [] => 0
  | d :: ds => max d.depth (depthAll ds)

def depthPairs : List (Datum × Datum) → Nat
  | [] => 0
  | (key, value) :: pairs => max (max key.depth value.depth) (depthPairs pairs)

end

theorem depth_le_depthAll {ds : List Datum} (h : d ∈ ds) : d.depth ≤ depthAll ds := by
  induction ds with
  | nil => cases h
  | cons x ds ih =>
    rw [depthAll]
    rcases List.mem_cons.mp h with rfl | mem
    · exact Nat.le_max_left _ _
    · exact (ih mem).trans (Nat.le_max_right _ _)

theorem depth_le_depthPairs {pairs : List (Datum × Datum)} (h : p ∈ pairs) :
    p.1.depth ≤ depthPairs pairs ∧ p.2.depth ≤ depthPairs pairs := by
  induction pairs with
  | nil => cases h
  | cons x pairs ih =>
    rw [depthPairs]
    rcases List.mem_cons.mp h with rfl | mem
    · omega
    · have := ih mem
      omega

theorem depth_part {d x : Datum} (h : x ∈ d.parts) : x.depth < d.depth := by
  cases d with
  | list items | tuple items =>
    rw [depth]
    exact Nat.lt_succ_of_le (depth_le_depthAll h)
  | dict pairs =>
    rw [depth]
    rcases List.mem_append.mp h with mem | mem
    all_goals
      obtain ⟨p, listed, rfl⟩ := List.mem_map.mp mem
      have := depth_le_depthPairs listed
      omega
  | _ => cases h

mutual

/-- The datum as it is written. -/
def chars : Datum → List Char
  | .none => "None".toList
  | .bool b => (if b then "True" else "False").toList
  | .int n _ => (Store.intText n).toList
  | .text s _ => Text.literal s.toList
  | .list items => '[' :: [',', ' '].intercalate (itemChars items) ++ [']']
  | .tuple items =>
    '(' :: ([',', ' '].intercalate (itemChars items) ++ if items.length = 1 then [','] else []) ++
      [')']
  | .dict pairs => '\x7b' :: [',', ' '].intercalate (pairChars pairs) ++ ['\x7d']

def itemChars : List Datum → List (List Char)
  | [] => []
  | d :: ds => d.chars :: itemChars ds

def pairChars : List (Datum × Datum) → List (List Char)
  | [] => []
  | (key, value) :: pairs => (key.chars ++ ':' :: ' ' :: value.chars) :: pairChars pairs

end

theorem itemChars_eq (ds : List Datum) : itemChars ds = ds.map chars := by
  induction ds with
  | nil => rfl
  | cons d ds ih => rw [itemChars, ih, List.map_cons]

theorem pairChars_eq (pairs : List (Datum × Datum)) :
    pairChars pairs = pairs.map fun p => p.1.chars ++ ':' :: ' ' :: p.2.chars := by
  induction pairs with
  | nil => rfl
  | cons p pairs ih => rw [pairChars, ih, List.map_cons]

end Datum

/-! ### Lists that agree one by one -/

section

variable {R : α → γ → Prop} {S : β → γ → Prop}

theorem forall₂_mem (h : List.Forall₂ R xs zs) :
    List.Forall₂ (fun x z => (x ∈ xs ∧ z ∈ zs) ∧ R x z) xs zs := by
  induction h with
  | nil => exact .nil
  | cons first _ ih =>
    exact .cons ⟨⟨List.mem_cons_self, List.mem_cons_self⟩, first⟩
      (ih.imp fun _ _ h => ⟨⟨.tail _ h.1.1, .tail _ h.1.2⟩, h.2⟩)

theorem exists_of_forall₂ (h : List.Forall₂ R xs zs) (mem : x ∈ xs) : ∃ z ∈ zs, R x z := by
  induction h with
  | nil => cases mem
  | cons first _ ih =>
    rcases List.mem_cons.mp mem with rfl | mem
    · exact ⟨_, List.mem_cons_self, first⟩
    · obtain ⟨z, listed, related⟩ := ih mem
      exact ⟨z, .tail _ listed, related⟩

/-- Two lists that agree with a third agree with each other. -/
theorem forall₂_meet (h : List.Forall₂ R xs zs) (h' : List.Forall₂ S ys zs) :
    List.Forall₂ (fun x y => ∃ z ∈ zs, R x z ∧ S y z) xs ys := by
  induction h generalizing ys with
  | nil => cases h'; exact .nil
  | cons first _ ih =>
    cases h' with
    | cons first' rest' =>
      refine .cons ⟨_, List.mem_cons_self, first, first'⟩ ((ih rest').imp ?_)
      rintro x y ⟨z, mem, both⟩
      exact ⟨z, .tail _ mem, both⟩

theorem map_eq_of_forall₂ {f : α → δ} {g : γ → δ} (h : List.Forall₂ R xs zs)
    (same : ∀ x, ∀ z ∈ zs, R x z → f x = g z) : xs.map f = zs.map g := by
  rw [← List.forall₂_eq_eq_eq, List.forall₂_map_left_iff, List.forall₂_map_right_iff]
  exact (forall₂_mem h).imp fun x z h => same x z h.1.2 h.2

theorem mapM_congr_of_forall₂ [Monad m] [LawfulMonad m] {f : α → m δ} {g : β → m δ}
    (h : List.Forall₂ (fun x y => f x = g y) xs ys) : xs.mapM f = ys.mapM g := by
  induction h with
  | nil => rfl
  | cons first _ ih => simp [first, ih]

end

/-- In the store, the value is the datum. Each entry of a dict stands under the key of its own, and
no two of them under one. -/
inductive Store.Stands (s : Store) : Value → Datum → Prop where
  | none : Stands s .none .none
  | bool (b : Bool) : Stands s (.bool b) (.bool b)
  | int (n : Int64) (negatable : n ≠ .minValue) : Stands s (.int n) (.int n negatable)
  | text (t : String) (writable : ∀ c ∈ t.toList, Token.Writable c) :
      Stands s (.text t) (.text t writable)
  | list {items : Array Value} (found : s.lists[ref]? = some items)
      (each : List.Forall₂ (Stands s) items.toList ds) : Stands s (.list ref) (.list ds)
  | tuple {items : Array Value} (found : s.tuples[ref]? = some items)
      (each : List.Forall₂ (Stands s) items.toList ds) : Stands s (.tuple ref) (.tuple ds)
  | dict {pairs : List (Datum × Datum)} (found : s.dicts[ref]? = some d)
      (hashed : ∀ e ∈ d.entries, s.key e.key = .ok e.hash)
      (apart : (d.entries.map (·.hash)).Nodup)
      (keys : List.Forall₂ (Stands s) d.keys (pairs.map (·.1)))
      (values : List.Forall₂ (Stands s) d.values (pairs.map (·.2))) :
      Stands s (.dict ref) (.dict pairs)

namespace Store

variable {s s' : Store} {v v' : Value} {d : Datum}

/-- The entry stands for the pair, under the key of its own. -/
structure Holds (s : Store) (e : Entry) (p : Datum × Datum) : Prop where
  key : s.Stands e.key p.1
  value : s.Stands e.value p.2
  hash : s.key e.key = .ok e.hash

theorem forall₂_holds {pairs : List (Datum × Datum)}
    (hashed : ∀ e ∈ es, s.key (Entry.key e) = .ok e.hash)
    (keys : List.Forall₂ s.Stands (es.map (·.key)) (pairs.map (·.1)))
    (values : List.Forall₂ s.Stands (es.map (·.value)) (pairs.map (·.2))) :
    List.Forall₂ s.Holds es pairs := by
  rw [List.forall₂_map_left_iff, List.forall₂_map_right_iff] at keys values
  induction keys with
  | nil => exact .nil
  | cons key _ ih =>
    cases values with
    | cons value values =>
      exact .cons ⟨key, value, hashed _ List.mem_cons_self⟩
        (ih (fun e mem => hashed e (.tail _ mem)) values)

theorem Stands.part (h : s.Stands v d) (mem : x ∈ d.parts) : ∃ w, s.Stands w x := by
  have item {vs : List Value} {ds : List Datum} (each : List.Forall₂ s.Stands vs ds)
      (mem : x ∈ ds) : ∃ w, s.Stands w x := by
    obtain ⟨w, _, stands⟩ := exists_of_forall₂ each.flip mem
    exact ⟨w, stands⟩
  cases h with
  | none | bool | int | text => cases mem
  | list found each | tuple found each => exact item each mem
  | dict found hashed apart keys values =>
    rcases List.mem_append.mp mem with mem | mem
    · exact item keys mem
    · exact item values mem

theorem forall₂_unique {ds ds' : List Datum} (h : List.Forall₂ s.Stands vs ds)
    (h' : List.Forall₂ s.Stands vs ds')
    (one : ∀ d ∈ ds, ∀ {v d'}, s.Stands v d → s.Stands v d' → d = d') : ds = ds' := by
  induction h generalizing ds' with
  | nil => cases h'; rfl
  | cons first _ ih =>
    cases h' with
    | cons first' rest' =>
      rw [one _ List.mem_cons_self first first', ih rest' fun d mem => one d (.tail _ mem)]

/-- In one store, a value is one datum. -/
theorem Stands.unique (h : s.Stands v d) (h' : s.Stands v d') : d = d' := by
  induction d using Datum.induction generalizing v d' with
  | step d ih =>
  cases h with
  | none | bool | int | text => cases h'; rfl
  | list found each =>
    cases h' with
    | list found' each' =>
      cases found.symm.trans found'
      rw [forall₂_unique each each' ih]
  | tuple found each =>
    cases h' with
    | tuple found' each' =>
      cases found.symm.trans found'
      rw [forall₂_unique each each' ih]
  | dict found hashed apart keys values =>
    cases h' with
    | dict found' hashed' apart' keys' values' =>
      cases found.symm.trans found'
      have firsts := forall₂_unique keys keys' fun d mem => ih d (List.mem_append_left _ mem)
      have seconds := forall₂_unique values values' fun d mem => ih d (List.mem_append_right _ mem)
      rw [List.zip_of_prod firsts seconds, ← List.zip_of_prod rfl rfl]

/-! ### Keys -/

/-- The key of a value is that of its datum, wherever the value is kept. -/
theorem keyAt_of_stands (h : s.Stands v d) (h' : s'.Stands v' d) (room : Nat) :
    s.keyAt room v = s'.keyAt room v' := by
  induction d using Datum.induction generalizing v v' room with
  | step d ih =>
  cases h with
  | none | bool | int | text | list | dict => cases h'; cases room <;> rfl
  | tuple found each =>
    cases h' with
    | tuple found' each' =>
      cases room with
      | zero => rfl
      | succ room =>
        have items := (forall₂_meet each each').imp fun v v' ⟨d, mem, h, h'⟩ => ih d mem h h' room
        rw [keyAt, keyAt, Store.tuple, Store.tuple, found, found']
        exact congrArg (· >>= fun ks => pure (Key.tuple ks)) (mapM_congr_of_forall₂ items)

theorem key_of_stands (h : s.Stands v d) (h' : s'.Stands v' d) : s.key v = s'.key v' :=
  keyAt_of_stands h h' maxDepth

/-- The other store has all objects of this one, as they are here. -/
structure Extends (s s' : Store) : Prop where
  lists : ∀ (ref : Nat) items, s.lists[ref]? = some items → s'.lists[ref]? = some items
  tuples : ∀ (ref : Nat) items, s.tuples[ref]? = some items → s'.tuples[ref]? = some items
  dicts : ∀ (ref : Nat) d, s.dicts[ref]? = some d → s'.dicts[ref]? = some d

theorem Extends.refl (s : Store) : s.Extends s := ⟨fun _ _ => id, fun _ _ => id, fun _ _ => id⟩

theorem Extends.trans (h : Extends s₁ s₂) (h' : Extends s₂ s₃) : Extends s₁ s₃ where
  lists ref items found := h'.lists ref items (h.lists ref items found)
  tuples ref items found := h'.tuples ref items (h.tuples ref items found)
  dicts ref d found := h'.dicts ref d (h.dicts ref d found)

theorem forall₂_mono {ds : List Datum} (h : List.Forall₂ s.Stands vs ds)
    (mono : ∀ d ∈ ds, ∀ {v}, s.Stands v d → s'.Stands v d) : List.Forall₂ s'.Stands vs ds :=
  (forall₂_mem h).imp fun _ d h => mono d h.1.2 h.2

theorem Stands.mono (h : s.Stands v d) (more : s.Extends s') : s'.Stands v d := by
  induction d using Datum.induction generalizing v with
  | step d ih =>
  cases h with
  | none => exact .none
  | bool b => exact .bool b
  | int n negatable => exact .int n negatable
  | text t writable => exact .text t writable
  | list found each => exact .list (more.lists _ _ found) (forall₂_mono each ih)
  | tuple found each => exact .tuple (more.tuples _ _ found) (forall₂_mono each ih)
  | dict found hashed apart keys values =>
    have keys' := forall₂_mono keys fun d mem => ih d (List.mem_append_left _ mem)
    have values' := forall₂_mono values fun d mem => ih d (List.mem_append_right _ mem)
    refine .dict (more.dicts _ _ found) (fun e mem => ?_) apart keys' values'
    obtain ⟨x, listed, stands⟩ := exists_of_forall₂ keys (List.mem_map_of_mem mem)
    exact (key_of_stands (ih x (List.mem_append_left _ listed) stands) stands).trans (hashed e mem)

theorem Holds.mono (h : s.Holds e p) (more : s.Extends s') : s'.Holds e p where
  key := h.key.mono more
  value := h.value.mono more
  hash := (key_of_stands (h.key.mono more) h.key).trans h.hash

theorem stands_of_holds {pairs : List (Datum × Datum)} (found : s.dicts[ref]? = some own)
    (apart : (own.entries.map (·.hash)).Nodup) (each : List.Forall₂ s.Holds own.entries pairs) :
    s.Stands (.dict ref) (.dict pairs) := by
  refine .dict found (fun e mem => ?_) apart ?_ ?_
  · obtain ⟨p, _, holds⟩ := exists_of_forall₂ each mem
    exact holds.hash
  · rw [Dict.keys, List.forall₂_map_left_iff, List.forall₂_map_right_iff]
    exact each.imp fun _ _ => Holds.key
  · rw [Dict.values, List.forall₂_map_left_iff, List.forall₂_map_right_iff]
    exact each.imp fun _ _ => Holds.value

/-! ### New objects -/

theorem push_keeps {xs : Array α} {ref : Nat} (h : xs[ref]? = some a) : (xs.push x)[ref]? = some a := by
  obtain ⟨lt, rfl⟩ := Array.getElem?_eq_some_iff.mp h
  exact Array.getElem?_push_lt lt

theorem newList_stands (items : Array Value) (each : List.Forall₂ s.Stands items.toList ds) :
    s.Extends (s.newList items).2 ∧ (s.newList items).2.Stands (s.newList items).1 (.list ds) := by
  have more : s.Extends (s.newList items).2 := ⟨fun _ _ => push_keeps, fun _ _ => id, fun _ _ => id⟩
  exact ⟨more, .list Array.getElem?_push_size (each.imp fun _ _ h => h.mono more)⟩

theorem newTuple_stands (items : Array Value) (each : List.Forall₂ s.Stands items.toList ds) :
    s.Extends (s.newTuple items).2 ∧ (s.newTuple items).2.Stands (s.newTuple items).1 (.tuple ds) := by
  have more : s.Extends (s.newTuple items).2 := ⟨fun _ _ => id, fun _ _ => push_keeps, fun _ _ => id⟩
  exact ⟨more, .tuple Array.getElem?_push_size (each.imp fun _ _ h => h.mono more)⟩

theorem newDict_stands {pairs : List (Datum × Datum)} (apart : (own.entries.map (·.hash)).Nodup)
    (each : List.Forall₂ s.Holds own.entries pairs) :
    s.Extends (s.newDict own).2 ∧ (s.newDict own).2.Stands (s.newDict own).1 (.dict pairs) := by
  have more : s.Extends (s.newDict own).2 := ⟨fun _ _ => id, fun _ _ => id, fun _ _ => push_keeps⟩
  exact ⟨more, stands_of_holds Array.getElem?_push_size apart (each.imp fun _ _ h => h.mono more)⟩

/-! ### Equality -/

theorem allEqual_of_forall₂ {equal : Value → Value → Except Fault Bool}
    (h : List.Forall₂ (fun x y => equal x y = .ok true) xs ys) : allEqual equal xs ys = .ok true := by
  induction h with
  | nil => rfl
  | cons first _ ih => rw [allEqual, first]; exact ih

theorem sequencesEqual_of_forall₂ {equal : Value → Value → Except Fault Bool} {xs ys : Array Value}
    (h : List.Forall₂ (fun x y => equal x y = .ok true) xs.toList ys.toList) :
    sequencesEqual equal xs ys = .ok true := by
  rw [sequencesEqual, if_pos (by simpa using h.length_eq), allEqual_of_forall₂ h]

/-- An entry finds the one in its own place, if no two there have one hash. -/
theorem allFound_of_forall₂ {equal : Value → Value → Except Fault Bool} (before : List Entry)
    (h : List.Forall₂ (fun e e' => e.hash = e'.hash ∧ equal e'.value e.value = .ok true) es rest)
    (apart : ((before ++ rest).map (·.hash)).Nodup) :
    allFound equal ⟨before ++ rest⟩ es = .ok true := by
  induction h generalizing before with
  | nil => rfl
  | @cons e e' es rest first _ ih =>
    have absent : before.find? (·.hash = e.hash) = Option.none := by
      rw [List.find?_eq_none]
      intro x mem same
      rw [List.map_append, List.map_cons] at apart
      have differ := (List.nodup_append.mp apart).2.2 x.hash (List.mem_map_of_mem mem) e'.hash
        List.mem_cons_self
      exact differ ((of_decide_eq_true same).trans first.1)
    have found : (⟨before ++ e' :: rest⟩ : Dict).find? e.hash = some e'.value := by
      rw [Dict.find?, List.find?_append, absent, List.find?_cons, decide_eq_true first.1.symm]
      rfl
    rw [allFound, found]
    simp only [first.2]
    rw [List.append_cons] at apart ⊢
    exact ih _ apart

/-- Two values that are one datum are equal. -/
theorem equalAt_of_stands (h : s.Stands v d) (h' : s.Stands v' d) (fits : d.depth ≤ room) :
    s.equalAt room v v' = .ok true := by
  induction d using Datum.induction generalizing v v' room with
  | step d ih =>
  have part {v v' : Value} {x : Datum} {room : Nat} (mem : x ∈ d.parts) (h : s.Stands v x)
      (h' : s.Stands v' x) (fits : d.depth ≤ room + 1) : s.equalAt room v v' = .ok true :=
    ih x mem h h' (Nat.le_of_lt_succ ((Datum.depth_part mem).trans_le fits))
  cases h with
  | none => cases h'; rw [equalAt.eq_def]; rfl
  | bool | int | text => cases h'; rw [equalAt.eq_def]; exact congrArg Except.ok (decide_eq_true rfl)
  | list found each =>
    cases h' with
    | list found' each' =>
      unfold equalAt
      split
      · rfl
      cases room with
      | zero => rw [Datum.depth] at fits; omega
      | succ room =>
        rw [Store.list, Store.list, found, found']
        refine sequencesEqual_of_forall₂ ((forall₂_meet each each').imp ?_)
        rintro v v' ⟨x, mem, h, h'⟩
        exact part mem h h' fits
  | tuple found each =>
    cases h' with
    | tuple found' each' =>
      unfold equalAt
      split
      · rfl
      cases room with
      | zero => rw [Datum.depth] at fits; omega
      | succ room =>
        rw [Store.tuple, Store.tuple, found, found']
        refine sequencesEqual_of_forall₂ ((forall₂_meet each each').imp ?_)
        rintro v v' ⟨x, mem, h, h'⟩
        exact part mem h h' fits
  | @dict ref own pairs found hashed apart keys values =>
    cases h' with
    | @dict ref' other _ found' hashed' apart' keys' values' =>
      unfold equalAt
      split
      · rfl
      cases room with
      | zero => rw [Datum.depth] at fits; omega
      | succ room =>
        have entries := forall₂_meet (forall₂_holds hashed keys values)
          (forall₂_holds hashed' keys' values')
        have size : own.size = other.size := entries.length_eq
        rw [Store.dict, Store.dict, found, found']
        simp only [Option.getD_some]
        rw [dictsEqual, if_pos size]
        refine allFound_of_forall₂ [] (entries.imp ?_) apart'
        rintro e e' ⟨p, mem, h, h'⟩
        have hashes := h.hash.symm.trans ((key_of_stands h.key h'.key).trans h'.hash)
        have second : p.2 ∈ (Datum.dict pairs).parts :=
          List.mem_append_right _ (List.mem_map_of_mem mem)
        exact ⟨Except.ok.inj hashes, part second h'.value h.value fits⟩

theorem equal_of_stands (h : s.Stands v d) (h' : s.Stands v' d) (fits : d.depth ≤ maxDepth) :
    s.equal v v' = .ok true :=
  equalAt_of_stands h h' fits

/-! ### Texts -/

theorem toList_commas (parts : List String) :
    (commas parts).toList = [',', ' '].intercalate (parts.map (·.toList)) :=
  String.toList_intercalate

/-- The text of a value is that of its datum, if nothing it stands in is so small a datum. -/
theorem reprAt_of_stands (h : s.Stands v d) (fits : d.depth ≤ room)
    (inside : ∀ w ∈ around, ∀ {d'}, s.Stands w d' → d.depth < d'.depth) :
    (s.reprAt room around v).toList = d.chars := by
  induction d using Datum.induction generalizing v room around with
  | step d ih =>
  have outside : v ∉ around := fun mem => absurd (inside v mem h) (Nat.lt_irrefl _)
  have part {w : Value} {x : Datum} {room : Nat} (mem : x ∈ d.parts) (h' : s.Stands w x)
      (fits : d.depth ≤ room + 1) : (s.reprAt room (v :: around) w).toList = x.chars := by
    have less := Datum.depth_part mem
    refine ih x mem h' (by omega) fun w' mem' d' h'' => ?_
    rcases List.mem_cons.mp mem' with rfl | mem'
    · exact h.unique h'' ▸ less
    · exact less.trans (inside w' mem' h'')
  cases h with
  | none | int | text => simp [reprAt, textLiteral, Datum.chars]
  | bool b => cases b <;> simp [reprAt, Datum.chars]
  | @list ref ds items found each =>
    cases room with
    | zero => rw [Datum.depth] at fits; omega
    | succ room =>
      have texts : (items.toList.map (s.reprAt room (.list ref :: around))).map (·.toList) =
          ds.map Datum.chars := by
        rw [List.map_map]
        exact map_eq_of_forall₂ each fun w x mem h => part mem h fits
      rw [reprAt, if_neg outside, Store.list, found, Option.getD_some, Datum.chars,
        Datum.itemChars_eq, ← texts, ← toList_commas]
      simp
  | @tuple ref ds items found each =>
    cases room with
    | zero => rw [Datum.depth] at fits; omega
    | succ room =>
      have texts : (items.toList.map (s.reprAt room (.tuple ref :: around))).map (·.toList) =
          ds.map Datum.chars := by
        rw [List.map_map]
        exact map_eq_of_forall₂ each fun w x mem h => part mem h fits
      have count := each.length_eq
      rw [reprAt, Store.tuple, found, Option.getD_some, Datum.chars, Datum.itemChars_eq, ← texts,
        ← toList_commas, ← count, List.length_map]
      split <;> simp
  | @dict ref own pairs found hashed apart keys values =>
    cases room with
    | zero => rw [Datum.depth] at fits; omega
    | succ room =>
      have texts : (own.entries.map fun e => s.reprAt room (.dict ref :: around) e.key ++ ": " ++
          s.reprAt room (.dict ref :: around) e.value).map (·.toList) =
          pairs.map fun p => p.1.chars ++ ':' :: ' ' :: p.2.chars := by
        rw [List.map_map]
        refine map_eq_of_forall₂ (forall₂_holds hashed keys values) fun e p mem h => ?_
        have key := part (List.mem_append_left _ (List.mem_map_of_mem mem)) h.key fits
        have value := part (List.mem_append_right _ (List.mem_map_of_mem mem)) h.value fits
        simp [key, value]
      rw [reprAt, if_neg outside, Store.dict, found, Option.getD_some, Datum.chars,
        Datum.pairChars_eq, ← texts, ← toList_commas]
      simp

theorem toList_repr_of_stands (h : s.Stands v d) (fits : d.depth ≤ maxDepth) :
    (s.repr v).toList = d.chars :=
  reprAt_of_stands h fits (by simp)

end Store

end Scratchpad
