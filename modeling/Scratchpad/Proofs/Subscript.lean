import Mathlib
import Scratchpad.Subscript

/-!
# Items of a list, loaded and stored

An index stands for a position of a list if it counts to it from the front or, when negative, from the end
(`Denotes`). Loading and storing succeed for just these indices, and what is stored is what is loaded from
then on, while the other positions keep their items. The two differ in what they call an index that is no
integer.
-/

namespace Scratchpad

theorem Store.list_setList {s : Store} {ref : Nat} (there : ref < s.lists.size) (items : Array Value) :
    (s.setList ref items).list ref = items := by
  simp [setList, list, there]

/-- A list with an item is in the store. -/
theorem Store.lt_of_list {s : Store} {ref : Nat} (some : 0 < (s.list ref).size) : ref < s.lists.size := by
  by_contra beyond
  rw [list, Array.getElem?_eq_none (Nat.le_of_not_lt beyond)] at some
  exact absurd some (Nat.lt_irrefl 0)

namespace Subscript

/-- The index stands for the position `i` in a sequence of `size` items. -/
def Denotes (size : Nat) (key : Value) (i : Nat) : Prop :=
  ∃ n, key.int? = some n ∧ i < size ∧ (n.toInt = i ∨ n.toInt = i - size)

variable {size i j : Nat} {key : Value}

instance : Decidable (Denotes size key i) :=
  decidable_of_iff (∃ n ∈ key.int?, i < size ∧ (n.toInt = i ∨ n.toInt = i - size)) Iff.rfl

theorem Denotes.lt (h : Denotes size key i) : i < size := by
  obtain ⟨n, -, lt, -⟩ := h
  exact lt

theorem Denotes.unique (h : Denotes size key i) (h' : Denotes size key j) : i = j := by
  obtain ⟨n, number, lt, counts⟩ := h
  obtain ⟨m, number', lt', counts'⟩ := h'
  cases number.symm.trans number'
  omega

theorem place?_eq_some {index : Int} :
    place? index size = some i ↔ i < size ∧ (index = i ∨ index = i - size) := by
  unfold place?
  dsimp only
  split <;> split <;> simp only [Option.some.injEq, reduceCtorEq, false_iff] <;> omega

/-- What is wrong with an index that stands for no position. -/
def misplaced (sequence : String) (key : Value) : Fault :=
  if key.int?.isSome then .indexOutOfRange sequence else .badIndexType sequence key.typeName

theorem kind_misplaced (sequence : String) (key : Value) :
    (misplaced sequence key).kind = if key.int?.isSome then .indexError else .typeError := by
  unfold misplaced
  split <;> rfl

theorem place_eq (sequence : String) (key : Value) (size : Int) :
    place sequence key size = match key.int? with
      | some n => (match place? n.toInt size with
        | some i => .ok i
        | none => .error (.indexOutOfRange sequence))
      | none => .error (.badIndexType sequence key.typeName) := by
  unfold place index
  cases key.int? <;> rfl

/-- An index is placed at the position that it stands for, if there is one. -/
theorem place_cases (sequence : String) (key : Value) (size : Nat) :
    (∃ i, Denotes size key i ∧ place sequence key size = .ok i) ∨
      ((∀ i, ¬ Denotes size key i) ∧ place sequence key size = .error (misplaced sequence key)) := by
  rw [place_eq, misplaced]
  cases number : key.int? with
  | none => exact .inr ⟨fun i ⟨n, found, _⟩ => (nomatch number.symm.trans found), rfl⟩
  | some n =>
    dsimp only
    cases placed : place? n.toInt size with
    | some i => exact .inl ⟨i, ⟨n, number, place?_eq_some.mp placed⟩, rfl⟩
    | none =>
      refine .inr ⟨fun i ⟨m, found, counts⟩ => ?_, rfl⟩
      cases number.symm.trans found
      exact nomatch placed.symm.trans (place?_eq_some.mpr counts)

theorem place_eq_ok (sequence : String) (h : Denotes size key i) : place sequence key size = .ok i := by
  rcases place_cases sequence key size with ⟨j, denotes, placed⟩ | ⟨none, -⟩
  · rw [placed, denotes.unique h]
  · exact absurd h (none i)

section Lists

variable {ref : Nat} {v : Value}

theorem load_list (s : Store) (ref : Nat) (key : Value) :
    load s (.list ref) key =
      (place "list" key (s.list ref).size).map fun i => (s.list ref)[i]?.getD .none := by
  change (place "list" key (s.list ref).size >>= fun i => pure ((s.list ref)[i]?.getD .none)) = _
  cases place "list" key (s.list ref).size <;> rfl

theorem store_of_denotes {w : World} (h : Denotes (w.store.list ref).size key i) (v : Value) :
    store (.list ref) key v w =
      .ok ((), { w with store := w.store.setList ref ((w.store.list ref).setIfInBounds i v) }) := by
  have placed := place_eq_ok "list" h
  simp only [store, bind, StateT.bind, Eval.ask, Eval.lift, Except.bind, placed]
  rfl

theorem store_of_misplaced {w : World} (h : ∀ i, ¬ Denotes (w.store.list ref).size key i) (v : Value) :
    store (.list ref) key v w = .error (.assignmentOutOfRange, w) := by
  rcases place_cases "list" key (w.store.list ref).size with ⟨i, denotes, -⟩ | ⟨-, placed⟩
  · exact absurd denotes (h i)
  · simp only [store, bind, StateT.bind, Eval.ask, Eval.lift, Except.bind, placed]
    rfl

/-- With a new item at the position `i`, the indices that stand for it load the item and all others what they
did. -/
theorem load_setList {s : Store} (h : Denotes (s.list ref).size key i) (v : Value) (other : Value) :
    load (s.setList ref ((s.list ref).setIfInBounds i v)) (.list ref) other =
      if Denotes (s.list ref).size other i then .ok v else load s (.list ref) other := by
  have there := Store.lt_of_list (Nat.zero_lt_of_lt h.lt)
  rw [load_list, load_list, Store.list_setList there, Array.size_setIfInBounds]
  rcases place_cases "list" other (s.list ref).size with ⟨j, denotes, placed⟩ | ⟨none, placed⟩
  · rw [placed]
    by_cases same : i = j
    · subst same
      rw [if_pos denotes]
      simp [Except.map, h.lt]
    · rw [if_neg fun again => same (again.unique denotes)]
      simp [Except.map, Array.getElem?_setIfInBounds_ne same]
  · rw [placed, if_neg (none i)]
    rfl

end Lists

/-- Storing into a list fails for just the indices for which loading fails, and then nothing changes; the
index is out of range for both if it is an integer. If it is none, loading says that the type is wrong and
storing that the index is out of range. After a store the list is as long as before, the index loads what was
stored, and every index that stands for another position, or for none, loads what it did. -/
theorem list_store_matches_load (w : World) (ref : Nat) (key v : Value) :
    ((∃ f w', store (.list ref) key v w = .error (f, w')) ↔ ∃ g, load w.store (.list ref) key = .error g) ∧
    (∀ f w' g, store (.list ref) key v w = .error (f, w') → load w.store (.list ref) key = .error g →
      w' = w ∧ f.kind = .indexError ∧ g.kind = if key.int?.isSome then .indexError else .typeError) ∧
    ∀ w', store (.list ref) key v w = .ok ((), w') →
      (w'.store.list ref).size = (w.store.list ref).size ∧ load w'.store (.list ref) key = .ok v ∧
      ∀ other, (∀ i, Denotes (w.store.list ref).size key i → ¬ Denotes (w.store.list ref).size other i) →
        load w'.store (.list ref) other = load w.store (.list ref) other := by
  rcases place_cases "list" key (w.store.list ref).size with ⟨i, denotes, placed⟩ | ⟨none, placed⟩
  · have stored := store_of_denotes denotes v
    have loaded : ∀ g, load w.store (.list ref) key ≠ .error g := by
      rw [load_list, placed]
      exact nofun
    refine ⟨⟨fun ⟨f, w', failed⟩ => ?_, fun ⟨g, failed⟩ => absurd failed (loaded g)⟩,
      fun f w' g _ failed => absurd failed (loaded g), fun w' done => ?_⟩
    · cases stored.symm.trans failed
    · cases stored.symm.trans done
      refine ⟨?_, ?_, fun other apart => ?_⟩
      · rw [Store.list_setList (Store.lt_of_list (Nat.zero_lt_of_lt denotes.lt)), Array.size_setIfInBounds]
      · rw [load_setList denotes, if_pos denotes]
      · rw [load_setList denotes, if_neg (apart i denotes)]
  · have stored := store_of_misplaced none v
    have loaded : load w.store (.list ref) key = .error (misplaced "list" key) := by
      rw [load_list, placed]
      rfl
    refine ⟨⟨fun _ => ⟨_, loaded⟩, fun _ => ⟨_, _, stored⟩⟩, fun f w' g failed failed' => ?_, fun w' done => ?_⟩
    · cases stored.symm.trans failed
      cases loaded.symm.trans failed'
      exact ⟨rfl, rfl, kind_misplaced "list" key⟩
    · cases stored.symm.trans done

/-- A list of three items, and nothing else. -/
def threeItems : World := { store := { lists := #[#[.int 5, .none, .bool true]] } }

/-- The index -1 and the index 2 are one position, and `False` is another. -/
theorem list_store_matches_load_last :
    ∃ w', store (.list 0) (.int (-1)) (.int 7) threeItems = .ok ((), w') ∧
      (w'.store.list 0).size = 3 ∧ load w'.store (.list 0) (.int (-1)) = .ok (.int 7) ∧
      load w'.store (.list 0) (.int 2) = .ok (.int 7) ∧
      load w'.store (.list 0) (.bool false) = .ok (.int 5) ∧
      (∃ f w'', store (.list 0) (.int 3) .none w' = .error (f, w'')) := by
  have denotes : Denotes (threeItems.store.list 0).size (.int (-1)) 2 :=
    ⟨-1, rfl, by decide, .inr (by decide)⟩
  have apart : ∀ i, Denotes (threeItems.store.list 0).size (.int (-1)) i →
      ¬ Denotes (threeItems.store.list 0).size (.bool false) i := by
    intro i here there
    have front : Denotes (threeItems.store.list 0).size (.bool false) 0 :=
      ⟨0, rfl, by decide, .inl (by decide)⟩
    exact absurd ((here.unique denotes).symm.trans (there.unique front)) (by decide)
  have stored := store_of_denotes denotes (.int 7)
  obtain ⟨-, -, after⟩ := list_store_matches_load threeItems 0 (.int (-1)) (.int 7)
  obtain ⟨size, last, others⟩ := after _ stored
  refine ⟨_, stored, size, last, ?_, (others _ apart).trans (by decide), ?_⟩
  · exact (load_setList denotes _ _).trans (if_pos ⟨2, rfl, by decide, .inl (by decide)⟩)
  · refine (list_store_matches_load _ 0 (.int 3) .none).1.mpr ⟨.indexOutOfRange "list", ?_⟩
    decide

/-- An index that is no integer has the wrong type where an item is loaded, and is out of range where one is
stored. -/
theorem text_index_out_of_range :
    ∃ f g, store (.list 0) (.text "a") .none threeItems = .error (f, threeItems) ∧
      load threeItems.store (.list 0) (.text "a") = .error g ∧ f.kind = .indexError ∧ g.kind = .typeError :=
  ⟨.assignmentOutOfRange, .badIndexType "list" "str", rfl, rfl, rfl, rfl⟩

end Subscript

end Scratchpad
