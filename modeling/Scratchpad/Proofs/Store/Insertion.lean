import Scratchpad.Proofs.Store.Datum

/-!
# Dicts keep the order of insertion

A dict is made by insertions, one after the other; one whose key has no hash fails and leaves the dict as
it was. The entries stand in the order in which their hashes first came, each with the first key and the
last value that came with its hash (`Records`). A table of the places of the hashes, kept up with every
insertion, has these places and no others, so looking a hash up in the table finds the same
(`dicts_keep_insertion_order`).
-/

namespace Scratchpad

/-! ### Entries -/

namespace Dict

variable {hash : Key} {key value : Value} {es : List Entry} {d : Dict} {e : Entry}

theorem find?_of_mem (apart : (d.entries.map (·.hash)).Nodup) (mem : e ∈ d.entries) :
    d.find? e.hash = some e.value := by
  have found : d.entries.find? (·.hash = e.hash) = some e := by
    rw [List.find?_eq_some_iff_append]
    obtain ⟨before, after, split⟩ := List.append_of_mem mem
    refine ⟨by simp, before, after, split, ?_⟩
    intro x earlier
    rw [split, List.map_append, List.map_cons] at apart
    have differ := (List.nodup_append.mp apart).2.2 x.hash (List.mem_map_of_mem earlier) e.hash
      List.mem_cons_self
    simpa using differ
  rw [find?, found, Option.map_some]

theorem mem_of_find? (h : d.find? hash = some value) :
    ∃ e ∈ d.entries, e.hash = hash ∧ e.value = value := by
  rw [find?, Option.map_eq_some_iff] at h
  obtain ⟨e, found, same⟩ := h
  exact ⟨e, List.mem_of_find?_eq_some found, by simpa using List.find?_some found, same⟩

theorem find?_eq_none (absent : hash ∉ d.entries.map (·.hash)) : d.find? hash = none := by
  rw [find?, Option.map_eq_none_iff, List.find?_eq_none]
  intro e mem same
  exact absent (List.mem_map.mpr ⟨e, mem, of_decide_eq_true same⟩)

theorem put_fresh (fresh : hash ∉ es.map (·.hash)) : put hash key value es = es ++ [⟨hash, key, value⟩] := by
  induction es with
  | nil => rfl
  | cons e es ih =>
    rw [List.map_cons, List.mem_cons, not_or] at fresh
    rw [put, if_neg (Ne.symm fresh.1), ih fresh.2, List.cons_append]

/-- An insertion under a hash that is there changes one value. -/
theorem put_of_mem (apart : (es.map (·.hash)).Nodup) (mem : hash ∈ es.map (·.hash)) :
    put hash key value es = es.map fun e => if e.hash = hash then { e with value } else e := by
  induction es with
  | nil => cases mem
  | cons e es ih =>
    rw [List.map_cons, List.nodup_cons] at apart
    rw [put, List.map_cons]
    by_cases same : e.hash = hash
    · have others : es.map (fun e => if e.hash = hash then { e with value } else e) = es := by
        conv_rhs => rw [← List.map_id es]
        apply List.map_congr_left
        intro x later
        have differ : x.hash ≠ hash := by
          rintro rfl
          exact apart.1 (same ▸ List.mem_map_of_mem later)
        rw [if_neg differ, id]
      rw [if_pos same, if_pos same, others]
    · have later : hash ∈ es.map (·.hash) := (List.mem_cons.mp mem).resolve_left (Ne.symm same)
      rw [if_neg same, if_neg same, ih apart.2 later]

end Dict

/-! ### Insertions -/

/-- A call that inserts a value under a key. Between two calls the store may change. -/
structure Insertion where
  store : Store
  key : Value
  value : Value

namespace Insertion

def hash? (c : Insertion) : Option Key := (c.store.key c.key).toOption

/-- The dict after the call. -/
def apply (d : Dict) (c : Insertion) : Dict :=
  match c.store.inserted d c.key c.value with
  | .ok d' => d'
  | .error _ => d

/-- The dict that the calls make of an empty one. -/
def dict (calls : List Insertion) : Dict := calls.foldl apply {}

/-- The hashes that came, as often as they came. -/
def hashes (calls : List Insertion) : List Key := calls.filterMap hash?

/-- The calls whose keys have this hash. -/
def under (calls : List Insertion) (hash : Key) : List Insertion := calls.filter (·.hash? = some hash)

/-- The entries are those of the calls: in the order of their first calls, with the key of the first call
and the value of the last. -/
structure Records (calls : List Insertion) (d : Dict) : Prop where
  apart : (d.entries.map (·.hash)).Nodup
  order : d.entries.map (·.hash) = (hashes calls).eraseDups
  keys : ∀ e ∈ d.entries, (under calls e.hash).head?.map (·.key) = some e.key
  values : ∀ e ∈ d.entries, (under calls e.hash).getLast?.map (·.value) = some e.value

variable {calls : List Insertion} {c : Insertion} {d : Dict} {hash : Key}

theorem apply_of_error (failed : c.store.key c.key = .error fault) : apply d c = d := by
  simp only [apply, Store.inserted, failed, bind, Except.bind]

theorem apply_of_ok (hashed : c.store.key c.key = .ok hash) :
    apply d c = d.insert hash c.key c.value := by
  simp only [apply, Store.inserted, hashed, bind, Except.bind, pure, Except.pure]

theorem under_append (h : Key) :
    under (calls ++ [c]) h = under calls h ++ if c.hash? = some h then [c] else [] := by
  rw [under, List.filter_append, List.filter_singleton]
  simp [under]

theorem hashes_append : hashes (calls ++ [c]) = hashes calls ++ c.hash?.toList := by
  rw [hashes, List.filterMap_append]
  cases h : c.hash? <;> simp [hashes, h]

theorem mem_hashes : hash ∈ hashes calls ↔ under calls hash ≠ [] := by
  rw [hashes, List.mem_filterMap, under, Ne, List.filter_eq_nil_iff]
  simp

theorem Records.mem_iff (h : Records calls d) : hash ∈ d.entries.map (·.hash) ↔ under calls hash ≠ [] := by
  rw [h.order, List.mem_eraseDups, mem_hashes]

theorem records_nil : Records [] {} := ⟨.nil, rfl, List.forall_mem_nil _, List.forall_mem_nil _⟩

/-- A call without a hash leaves no trace. -/
theorem Records.skip (h : Records calls d) (absent : c.hash? = none) : Records (calls ++ [c]) d where
  apart := h.apart
  order := by
    rw [h.order, hashes_append, absent]
    simp
  keys e mem := by
    rw [under_append, absent]
    simpa using h.keys e mem
  values e mem := by
    rw [under_append, absent]
    simpa using h.values e mem

/-- The first call with its hash adds an entry at the end. -/
theorem Records.add (h : Records calls d) (hashed : c.hash? = some hash)
    (fresh : hash ∉ d.entries.map (·.hash)) :
    Records (calls ++ [c]) ⟨d.entries ++ [⟨hash, c.key, c.value⟩]⟩ := by
  have none : under calls hash = [] := by
    rw [h.mem_iff] at fresh
    exact not_not.mp fresh
  have same : under (calls ++ [c]) hash = [c] := by
    rw [under_append, none, if_pos hashed, List.nil_append]
  have other (e : Entry) (mem : e ∈ d.entries) : under (calls ++ [c]) e.hash = under calls e.hash := by
    have differ : c.hash? ≠ some e.hash := by
      intro equal
      obtain rfl := Option.some.inj (hashed.symm.trans equal)
      exact fresh (List.mem_map_of_mem mem)
    rw [under_append, if_neg differ, List.append_nil]
  refine ⟨?_, ?_, ?_, ?_⟩
  · rw [List.map_append, List.map_singleton]
    apply List.Nodup.append h.apart (List.nodup_singleton _)
    rw [List.disjoint_singleton]
    exact fresh
  · have unseen : hash ∉ hashes calls := by rwa [h.order, List.mem_eraseDups] at fresh
    rw [List.map_append, h.order, hashes_append, hashed, List.eraseDups_append]
    simp [List.removeAll, unseen, List.eraseDups_cons]
  · intro e mem
    rcases List.mem_append.mp mem with old | new
    · rw [other e old]
      exact h.keys e old
    · obtain rfl := List.mem_singleton.mp new
      rw [same]
      rfl
  · intro e mem
    rcases List.mem_append.mp mem with old | new
    · rw [other e old]
      exact h.values e old
    · obtain rfl := List.mem_singleton.mp new
      rw [same]
      rfl

/-- A later call with the hash changes the value. -/
theorem Records.overwrite (h : Records calls d) (hashed : c.hash? = some hash)
    (known : hash ∈ d.entries.map (·.hash)) :
    Records (calls ++ [c])
      ⟨d.entries.map fun e => if e.hash = hash then { e with value := c.value } else e⟩ := by
  have hashes_eq : (d.entries.map fun e => if e.hash = hash then { e with value := c.value } else e).map
      (·.hash) = d.entries.map (·.hash) := by
    rw [List.map_map]
    apply List.map_congr_left
    intro e _
    rw [Function.comp_apply]
    split <;> rfl
  refine ⟨?_, ?_, ?_, ?_⟩
  · rw [hashes_eq]
    exact h.apart
  · have seen : hash ∈ hashes calls := by rwa [h.order, List.mem_eraseDups] at known
    rw [hashes_eq, h.order, hashes_append, hashed, List.eraseDups_append]
    simp [List.removeAll, seen]
  · intro e mem
    obtain ⟨old, was, rfl⟩ := List.mem_map.mp mem
    have first := h.keys old was
    rw [apply_ite Entry.hash, ite_self, apply_ite Entry.key, ite_self, under_append, List.head?_append]
    cases begun : (under calls old.hash).head? with
    | none =>
      rw [begun] at first
      cases first
    | some call =>
      rw [begun] at first
      exact first
  · intro e mem
    obtain ⟨old, was, rfl⟩ := List.mem_map.mp mem
    rw [apply_ite Entry.hash, ite_self, under_append, hashed]
    by_cases same : old.hash = hash
    · simp [same]
    · have differ : some hash ≠ some old.hash := by simpa [eq_comm] using same
      rw [if_neg same, if_neg differ, List.append_nil]
      exact h.values old was

theorem Records.step (h : Records calls d) (c : Insertion) : Records (calls ++ [c]) (apply d c) := by
  cases hashed : c.store.key c.key with
  | error fault =>
    rw [apply_of_error hashed]
    exact h.skip (by rw [hash?, hashed]; rfl)
  | ok hash =>
    have has : c.hash? = some hash := by rw [hash?, hashed]; rfl
    rw [apply_of_ok hashed, Dict.insert]
    by_cases known : hash ∈ d.entries.map (·.hash)
    · rw [Dict.put_of_mem h.apart known]
      exact h.overwrite has known
    · rw [Dict.put_fresh known]
      exact h.add has known

theorem dict_append (calls : List Insertion) (c : Insertion) :
    dict (calls ++ [c]) = apply (dict calls) c := by
  rw [dict, List.foldl_append]
  rfl

theorem records_dict (calls : List Insertion) : Records calls (dict calls) := by
  induction calls using List.reverseRecOn with
  | nil => exact records_nil
  | append_singleton calls c ih =>
    rw [dict_append]
    exact ih.step c

end Insertion

/-! ### Tables of places -/

/-- A dict as entries without hashes, and a table that has the place of each hash. -/
structure Dict.Indexed where
  entries : Array (Value × Value) := #[]
  places : Key → Option Nat := fun _ => none

namespace Dict.Indexed

def lookup (t : Indexed) (s : Store) (key : Value) : Except Fault (Option Value) := do
  return (t.places (← s.key key)).bind fun i => t.entries[i]?.map (·.2)

/-- Says whether the insertion failed, and what is there after it. -/
def insert (t : Indexed) (s : Store) (key value : Value) : Except Fault Unit × Indexed :=
  match s.key key with
  | .error fault => (.error fault, t)
  | .ok hash =>
    match t.places hash with
    | some i => (.ok (), { t with entries := t.entries.modify i fun e => (e.1, value) })
    | none =>
      (.ok (), ⟨t.entries.push (key, value), Function.update t.places hash (some t.entries.size)⟩)

def ofInsertions (calls : List Insertion) : Indexed :=
  calls.foldl (fun t c => (t.insert c.store c.key c.value).2) {}

/-- The table has the places of the hashes of the dict, and no others. -/
structure Mirrors (t : Indexed) (d : Dict) : Prop where
  entries : t.entries.toList = d.entries.map fun e => (e.key, e.value)
  places : ∀ hash i, t.places hash = some i ↔ d.entries[i]?.map (·.hash) = some hash

variable {t : Indexed} {d : Dict} {hash : Key}

theorem Mirrors.size (h : t.Mirrors d) : t.entries.size = d.entries.length := by
  rw [← Array.length_toList, h.entries, List.length_map]

theorem Mirrors.mem_iff (h : t.Mirrors d) : hash ∈ d.entries.map (·.hash) ↔ t.places hash ≠ none := by
  rw [List.mem_iff_getElem?, Option.ne_none_iff_exists']
  simp only [List.getElem?_map, h.places]

/-- A new hash gets the place behind all others. -/
theorem Mirrors.add (h : t.Mirrors d) (absent : t.places hash = none) (key value : Value) :
    Mirrors ⟨t.entries.push (key, value), Function.update t.places hash (some t.entries.size)⟩
      ⟨d.entries ++ [⟨hash, key, value⟩]⟩ where
  entries := by
    rw [Array.toList_push, h.entries, List.map_append, List.map_singleton]
  places other i := by
    have old := h.places other i
    show Function.update t.places hash (some t.entries.size) other = some i ↔
      (d.entries ++ [⟨hash, key, value⟩])[i]?.map (·.hash) = some other
    rw [h.size]
    by_cases same : other = hash
    · subst same
      rw [absent] at old
      rcases Nat.lt_trichotomy i d.entries.length with before | rfl | after
      · have none : d.entries[i]?.map (·.hash) ≠ some other := fun found => nomatch old.mpr found
        rw [List.getElem?_append_left before, Function.update_self, Option.some.injEq]
        exact iff_of_false (by omega) none
      · simp
      · rw [List.getElem?_append_right (by omega), Function.update_self, Option.some.injEq]
        apply iff_of_false (by omega)
        simp [show i - d.entries.length ≠ 0 by omega]
    · rw [Function.update_of_ne same, old]
      rcases Nat.lt_or_ge i d.entries.length with before | behind
      · rw [List.getElem?_append_left before]
      · rw [List.getElem?_append_right behind, List.getElem?_eq_none behind, List.getElem?_singleton]
        split
        · simp [Ne.symm same]
        · rfl

/-- Where the hash is known, one value changes, at its place. -/
theorem Mirrors.overwrite (h : t.Mirrors d) (known : t.places hash = some i) (value : Value) :
    Mirrors { t with entries := t.entries.modify i fun e => (e.1, value) }
      ⟨d.entries.map fun e => if e.hash = hash then { e with value } else e⟩ where
  entries := by
    apply List.ext_getElem?
    intro j
    rw [Array.toList_modify, List.getElem?_modify, h.entries, List.map_map, List.getElem?_map,
      List.getElem?_map]
    have place : i = j ↔ d.entries[j]?.map (·.hash) = some hash := by
      rw [← h.places hash j, known, Option.some.injEq]
    cases found : d.entries[j]? with
    | none => simp
    | some e =>
      rw [found, Option.map_some, Option.some.injEq] at place
      by_cases same : i = j
      · simp [same, place.mp same]
      · have differ : ¬ e.hash = hash := fun equal => same (place.mpr equal)
        simp [same, differ]
  places other j := by
    rw [h.places other j, List.getElem?_map, Option.map_map]
    have kept : ((·.hash) ∘ fun e : Entry => if e.hash = hash then { e with value } else e) = (·.hash) := by
      funext e
      rw [Function.comp_apply]
      split <;> rfl
    rw [kept]

theorem Mirrors.step (h : t.Mirrors d) (apart : (d.entries.map (·.hash)).Nodup) (c : Insertion) :
    Mirrors (t.insert c.store c.key c.value).2 (c.apply d) := by
  cases hashed : c.store.key c.key with
  | error fault =>
    rw [Insertion.apply_of_error hashed]
    simpa only [insert, hashed] using h
  | ok hash =>
    rw [Insertion.apply_of_ok hashed, Dict.insert]
    cases place : t.places hash with
    | some i =>
      rw [put_of_mem apart (h.mem_iff.mpr (by simp [place]))]
      simpa only [insert, hashed, place] using h.overwrite place c.value
    | none =>
      rw [put_fresh fun mem => h.mem_iff.mp mem place]
      simpa only [insert, hashed, place] using h.add place c.key c.value

theorem ofInsertions_append (calls : List Insertion) (c : Insertion) :
    ofInsertions (calls ++ [c]) = ((ofInsertions calls).insert c.store c.key c.value).2 := by
  rw [ofInsertions, List.foldl_append]
  rfl

theorem mirrors_ofInsertions (calls : List Insertion) :
    (ofInsertions calls).Mirrors (Insertion.dict calls) := by
  induction calls using List.reverseRecOn with
  | nil => exact ⟨rfl, by simp [ofInsertions, Insertion.dict]⟩
  | append_singleton calls c ih =>
    rw [ofInsertions_append, Insertion.dict_append]
    exact ih.step (Insertion.records_dict calls).apart c

theorem Mirrors.find?_eq (h : t.Mirrors d) (apart : (d.entries.map (·.hash)).Nodup) (hash : Key) :
    ((t.places hash).bind fun i => t.entries[i]?.map (·.2)) = d.find? hash := by
  cases place : t.places hash with
  | none =>
    have absent : hash ∉ d.entries.map (·.hash) := fun mem => h.mem_iff.mp mem place
    rw [find?_eq_none absent]
    rfl
  | some i =>
    obtain ⟨e, found, rfl⟩ := Option.map_eq_some_iff.mp ((h.places hash i).mp place)
    rw [find?_of_mem apart (List.mem_of_getElem? found), Option.bind_some, ← Array.getElem?_toList,
      h.entries, List.getElem?_map, found]
    rfl

end Dict.Indexed

/-! ### What the calls leave -/

open Insertion (dict hashes under)
open Dict.Indexed (ofInsertions)

theorem Insertion.find?_dict (calls : List Insertion) (hash : Key) :
    (dict calls).find? hash = (under calls hash).getLast?.map (·.value) := by
  have records := records_dict calls
  by_cases known : hash ∈ (dict calls).entries.map (·.hash)
  · obtain ⟨e, mem, rfl⟩ := List.mem_map.mp known
    rw [Dict.find?_of_mem records.apart mem, records.values e mem]
  · have none : under calls hash = [] := not_not.mp fun some => known (records.mem_iff.mpr some)
    rw [Dict.find?_eq_none known, none]
    rfl

/-- Whatever is inserted into an empty dict, and in whatever order: no two entries have one hash, and the
table has the place of each and nothing else. The entries stand in the order of their first insertions, with
the key of the first and the value of the last. That value is found under every key with the hash, and
nothing under a key with another. A key without a hash is refused, and all stays as it was. -/
theorem dicts_keep_insertion_order (calls : List Insertion) :
    ((dict calls).entries.map (·.hash)).Nodup ∧
    (∀ hash i, (ofInsertions calls).places hash = some i ↔
      (dict calls).entries[i]?.map (·.hash) = some hash) ∧
    (ofInsertions calls).entries.toList = (dict calls).entries.map (fun e => (e.key, e.value)) ∧
    (dict calls).entries.map (·.hash) = (hashes calls).eraseDups ∧
    (∀ e ∈ (dict calls).entries, (under calls e.hash).head?.map (·.key) = some e.key ∧
      (under calls e.hash).getLast?.map (·.value) = some e.value) ∧
    (∀ (s : Store) (key : Value) (hash : Key), s.key key = .ok hash →
      s.lookup (dict calls) key = .ok ((under calls hash).getLast?.map (·.value)) ∧
      (ofInsertions calls).lookup s key = s.lookup (dict calls) key) ∧
    ∀ (s : Store) (key value : Value) (fault : Fault), s.key key = .error fault →
      s.inserted (dict calls) key value = .error fault ∧
      (ofInsertions calls).insert s key value = (.error fault, ofInsertions calls) := by
  have records := Insertion.records_dict calls
  have mirrors := Dict.Indexed.mirrors_ofInsertions calls
  refine ⟨records.apart, mirrors.places, mirrors.entries, records.order,
    fun e mem => ⟨records.keys e mem, records.values e mem⟩, ?_, ?_⟩
  · intro s key hash hashed
    constructor
    · rw [Store.lookup, hashed, ← Insertion.find?_dict]
      rfl
    · rw [Store.lookup, Dict.Indexed.lookup, hashed]
      exact congrArg Except.ok (mirrors.find?_eq records.apart hash)
  · intro s key value fault failed
    constructor
    · rw [Store.inserted, failed]
      rfl
    · simp only [Dict.Indexed.insert, failed]

/-- `d['b'] = 1`, `d[[]] = 9`, `d[True] = 2`, `d['b'] = 3` and `d[1] = None`. -/
def mixedCalls : List Insertion :=
  let s : Store := { lists := #[#[]] }
  [⟨s, .text "b", .int 1⟩, ⟨s, .list 0, .int 9⟩, ⟨s, .bool true, .int 2⟩, ⟨s, .text "b", .int 3⟩,
    ⟨s, .int 1, .none⟩]

theorem dicts_keep_insertion_order_mixed :
    (dict mixedCalls).keys = [.text "b", .bool true] ∧ (dict mixedCalls).values = [.int 3, .none] ∧
      Store.lookup {} (dict mixedCalls) (.int 1) = .ok (some .none) ∧
      (ofInsertions mixedCalls).places (.int 1) = some 1 ∧
      (ofInsertions mixedCalls).insert {} (.list 0) .none =
        (.error (.unhashable "list"), ofInsertions mixedCalls) := by
  obtain ⟨-, places, -, -, -, found, refused⟩ := dicts_keep_insertion_order mixedCalls
  refine ⟨by decide +kernel, by decide +kernel, ?_, ?_, ?_⟩
  · exact (found {} (.int 1) (.int 1) rfl).1.trans (by decide +kernel)
  · exact (places (.int 1) 1).mpr (by decide +kernel)
  · exact (refused {} (.list 0) .none _ rfl).2

end Scratchpad
