import Mathlib
import Scratchpad.Code.Lower

/-!
# Tables that grow

Lowering is a chain of steps that may fail and that only ever add to the tables, so an index that
was handed out keeps its entry (`constant_ok`, `nameIndex_ok`).
-/

namespace Scratchpad

theorem except_bind_ok {x : Except ε α} {f : α → Except ε β} {b : β}
    (h : (x >>= f) = .ok b) : ∃ a, x = .ok a ∧ f a = .ok b := by
  cases x with
  | error e => cases h
  | ok a => exact ⟨a, rfl, h⟩

theorem except_bind_of_ok {x : Except ε α} {f : α → Except ε β} (h : x = .ok a)
    (h' : f a = .ok b) : (x >>= f) = .ok b := by
  rw [h]
  exact h'

namespace Lower

theorem bind_ok {x : Lower α} {f : α → Lower β} {t : Tables} {r : β × Tables}
    (h : (x >>= f) t = .ok r) : ∃ a t', x t = .ok (a, t') ∧ f a t' = .ok r := by
  obtain ⟨⟨a, t'⟩, first, rest⟩ := except_bind_ok h
  exact ⟨a, t', first, rest⟩

theorem pure_ok {a b : α} {t t' : Tables} (h : (pure a : Lower α) t = .ok (b, t')) :
    b = a ∧ t' = t := by
  cases h
  exact ⟨rfl, rfl⟩

theorem fail_ok {v : Violation} {span : Span} {t : Tables} {r : α × Tables}
    (h : (fail v span : Lower α) t = .ok r) : False := by
  cases h

theorem map_ok {x : Lower α} {f : α → β} {t t' : Tables} {b : β}
    (h : (f <$> x) t = .ok (b, t')) : ∃ a, x t = .ok (a, t') ∧ b = f a := by
  rw [map_eq_pure_bind] at h
  obtain ⟨a, t₁, first, rest⟩ := bind_ok h
  obtain ⟨rfl, rfl⟩ := pure_ok rest
  exact ⟨a, first, rfl⟩

theorem lift_ok {x : Except SyntaxError α} {t t' : Tables} {a : α}
    (h : (liftM x : Lower α) t = .ok (a, t')) : x = .ok a ∧ t' = t := by
  cases x with
  | error e => cases h
  | ok b => cases h; exact ⟨rfl, rfl⟩

theorem guard_ok {b : Bool} {x : Lower α} {v : Violation} {span : Span} {t : Tables}
    {r : α × Tables}
    (h : (if b then (fail v span : Lower PUnit) >>= fun _ => x else x) t = .ok r) :
    b = false ∧ x t = .ok r := by
  cases b with
  | true => cases h
  | false => exact ⟨rfl, h⟩

theorem node_ok {c : Context} {span : Span} {id : NodeId} {t t' : Tables} {n : Node}
    (h : node c span id t = .ok (n, t')) : c.tree.get? id = some n ∧ t' = t := by
  unfold node at h
  cases found : c.tree.get? id with
  | none => rw [found] at h; exact (fail_ok h).elim
  | some m =>
    rw [found] at h
    obtain ⟨rfl, rfl⟩ := pure_ok h
    exact ⟨rfl, rfl⟩

/-! ### Entries -/

/-- Every entry of `t` is in its place in `t'`. -/
structure Tables.Le (t t' : Tables) : Prop where
  constants : ∀ {i : Nat} {k}, t.constants[i]? = some k → t'.constants[i]? = some k
  names : ∀ {i : Nat} {name}, t.names[i]? = some name → t'.names[i]? = some name

theorem Tables.Le.refl (t : Tables) : t.Le t := ⟨id, id⟩

theorem Tables.Le.trans {t t' t'' : Tables} (h : t.Le t') (h' : t'.Le t'') : t.Le t'' :=
  ⟨fun found => h'.constants (h.constants found), fun found => h'.names (h.names found)⟩

theorem getElem?_push_of_some {as : Array α} {i : Nat} {a b : α} (h : as[i]? = some a) :
    (as.push b)[i]? = some a := by
  obtain ⟨lt, rfl⟩ := Array.getElem?_eq_some_iff.mp h
  rw [Array.getElem?_push_lt lt]

/-- What the pool takes for the same is the same. -/
theorem eq_of_sameAs {k k' : Constant} (h : k'.sameAs k = true) : k' = k := by
  cases k <;> cases k' <;> simp_all [Constant.sameAs]

theorem constant_cases {k : Constant} {t t' : Tables} {i : Nat} (h : constant k t = .ok (i, t')) :
    (t.constants.findIdx? (·.sameAs k) = some i ∧ t' = t) ∨
      (i = t.constants.size ∧ t' = { t with constants := t.constants.push k }) := by
  obtain ⟨t₀, t₁, got, h⟩ := bind_ok h
  cases got
  cases found : t.constants.findIdx? (·.sameAs k) with
  | some j =>
    rw [found] at h
    obtain ⟨rfl, rfl⟩ := pure_ok h
    exact .inl ⟨rfl, rfl⟩
  | none =>
    rw [found] at h
    obtain ⟨_, t₂, grown, h⟩ := bind_ok h
    cases grown
    obtain ⟨rfl, rfl⟩ := pure_ok h
    exact .inr ⟨rfl, rfl⟩

theorem nameIndex_cases {name : String} {t t' : Tables} {i : Nat} (h : nameIndex name t = .ok (i, t')) :
    (t.names.findIdx? (· = name) = some i ∧ t' = t) ∨
      (i = t.names.size ∧ t' = { t with names := t.names.push name }) := by
  obtain ⟨t₀, t₁, got, h⟩ := bind_ok h
  cases got
  cases found : t.names.findIdx? (· = name) with
  | some j =>
    rw [found] at h
    obtain ⟨rfl, rfl⟩ := pure_ok h
    exact .inl ⟨rfl, rfl⟩
  | none =>
    rw [found] at h
    obtain ⟨_, t₂, grown, h⟩ := bind_ok h
    cases grown
    obtain ⟨rfl, rfl⟩ := pure_ok h
    exact .inr ⟨rfl, rfl⟩

theorem constant_ok {k : Constant} {t t' : Tables} {i : Nat} (h : constant k t = .ok (i, t')) :
    t.Le t' ∧ t'.constants[i]? = some k := by
  rcases constant_cases h with ⟨found, rfl⟩ | ⟨rfl, rfl⟩
  · obtain ⟨lt, same, _⟩ := Array.findIdx?_eq_some_iff_getElem.mp found
    exact ⟨.refl _, Array.getElem?_eq_some_iff.mpr ⟨lt, eq_of_sameAs same⟩⟩
  · exact ⟨⟨getElem?_push_of_some, id⟩, Array.getElem?_push_size⟩

theorem nameIndex_ok {name : String} {t t' : Tables} {i : Nat}
    (h : nameIndex name t = .ok (i, t')) : t.Le t' ∧ t'.names[i]? = some name := by
  rcases nameIndex_cases h with ⟨found, rfl⟩ | ⟨rfl, rfl⟩
  · obtain ⟨lt, same, _⟩ := Array.findIdx?_eq_some_iff_getElem.mp found
    exact ⟨.refl _, Array.getElem?_eq_some_iff.mpr ⟨lt, by simpa using same⟩⟩
  · exact ⟨⟨id, getElem?_push_of_some⟩, Array.getElem?_push_size⟩

/-- What tables have in common with those before an entry, for literals and for names with `P`, and so
with those before several entries. -/
structure Tables.Entered (P : String → Prop) (R : Tables → Tables → Prop) : Prop where
  refl : ∀ t, R t t
  trans : ∀ {t t' t''}, R t t' → R t' t'' → R t t''
  literal : ∀ {l t i t'}, constant (.literal l) t = .ok (i, t') → R t t'
  global : ∀ {name t i t'}, P name → nameIndex name t = .ok (i, t') → R t t'

theorem Tables.le_entered : Tables.Entered (fun _ => True) Tables.Le where
  refl := .refl
  trans := .trans
  literal entry := (constant_ok entry).1
  global _ entry := (nameIndex_ok entry).1

/-- How a name is reached: by its slot, or by its entry in the table of names. -/
inductive Named (c : Context) (name : String) (fast slow : Nat → Instr) (span : Span)
    (t : Tables) : Segment → Tables → Prop
  | slot (found : c.locals.findIdx? (· = name) = some slot) :
      Named c name fast slow span t [.op (fast slot) span] t
  | global (absent : c.locals.findIdx? (· = name) = none) (added : nameIndex name t = .ok (i, t'))
      (entry : t'.names[i]? = some name) : Named c name fast slow span t [.op (slow i) span] t'

theorem loadName_ok (h : loadName c span name t = .ok (s, t')) :
    Named c name .loadFast .loadName span t s t' := by
  unfold loadName at h
  cases found : c.locals.findIdx? (· = name) with
  | some slot =>
    rw [found] at h
    obtain ⟨rfl, rfl⟩ := pure_ok h
    exact .slot found
  | none =>
    rw [found] at h
    obtain ⟨i, t₁, entered, h⟩ := bind_ok h
    obtain ⟨rfl, rfl⟩ := pure_ok h
    exact .global found entered (nameIndex_ok entered).2

theorem storeName_ok (h : storeName c span name t = .ok (s, t')) :
    Named c name .storeFast .storeName span t s t' := by
  unfold storeName at h
  cases found : c.locals.findIdx? (· = name) with
  | some slot =>
    rw [found] at h
    obtain ⟨rfl, rfl⟩ := pure_ok h
    exact .slot found
  | none =>
    rw [found] at h
    obtain ⟨i, t₁, entered, h⟩ := bind_ok h
    obtain ⟨rfl, rfl⟩ := pure_ok h
    exact .global found entered (nameIndex_ok entered).2

section Entered

variable {P : String → Prop} {R : Tables → Tables → Prop} (keeps : Tables.Entered P R) (named : P name)

include keeps named

theorem Named.entered (h : Named c name fast slow span t s t') : R t t' := by
  cases h with
  | slot => exact keeps.refl t
  | global _ added => exact keeps.global named added

theorem Tables.Entered.load (h : loadName c span name t = .ok (s, t')) : R t t' :=
  (loadName_ok h).entered keeps named

theorem Tables.Entered.store (h : storeName c span name t = .ok (s, t')) : R t t' :=
  (storeName_ok h).entered keeps named

end Entered

theorem Named.le (h : Named c name fast slow span t s t') : t.Le t' := h.entered Tables.le_entered trivial

end Lower

/-- The tables of finished code. -/
def CodeOf.tables (code : Code) : Lower.Tables := ⟨code.constants, code.names⟩

end Scratchpad
