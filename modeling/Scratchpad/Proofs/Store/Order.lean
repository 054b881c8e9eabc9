import Scratchpad.Proofs.Store.Equality
import Scratchpad.Store.Order

/-!
# The order of values

Two sequences are ordered by their first items that are not equal, or else by their lengths. `Ordered`
says so of values without floats, and `order` finds just that (`ordered_of_orderAt`, `Regular.order_iff`).
The order goes against equality nowhere: it is the same for equal values (`Ordered.congr`). So it turns
round with its sides, finds equal what is equal, and is transitive (`order_is_consistent`).
-/

namespace Scratchpad

/-! ### The first difference decides -/

/-- The order of the first items that are not the same, or else of the lengths. -/
inductive Lexical (same : α → α → Prop) (order : α → α → Ordering → Prop) :
    List α → List α → Ordering → Prop where
  | ended : Lexical same order [] [] .eq
  | shorter (y : α) (ys : List α) : Lexical same order [] (y :: ys) .lt
  | longer (x : α) (xs : List α) : Lexical same order (x :: xs) [] .gt
  | skip (first : same x y) (rest : Lexical same order xs ys o) : Lexical same order (x :: xs) (y :: ys) o
  | differ (apart : ¬ same x y) (first : order x y o) : Lexical same order (x :: xs) (y :: ys) o

namespace Lexical

variable {same : α → α → Prop} {order : α → α → Ordering → Prop} {xs ys zs : List α} {o o' : Ordering}

theorem swap (symm : ∀ x y, same x y → same y x) (turn : ∀ x y o, order x y o → order y x o.swap)
    (h : Lexical same order xs ys o) : Lexical same order ys xs o.swap := by
  induction h with
  | ended => exact .ended
  | shorter y ys => exact .longer y ys
  | longer x xs => exact .shorter x xs
  | skip first _ ih => exact .skip (symm _ _ first) ih
  | differ apart first => exact .differ (fun equal => apart (symm _ _ equal)) (turn _ _ _ first)

theorem unique (one : ∀ x y o o', order x y o → order x y o' → o = o') (h : Lexical same order xs ys o)
    (h' : Lexical same order xs ys o') : o = o' := by
  induction h with
  | ended => cases h'; rfl
  | shorter => cases h'; rfl
  | longer => cases h'; rfl
  | skip first _ ih =>
    cases h' with
    | skip _ rest' => exact ih rest'
    | differ apart => exact absurd first apart
  | differ apart first =>
    cases h' with
    | skip first' => exact absurd first' apart
    | differ _ first' => exact one _ _ _ _ first first'

theorem forall₂_of_eq (equal : ∀ x ∈ xs, ∀ y ∈ ys, order x y .eq → same x y)
    (h : Lexical same order xs ys .eq) : List.Forall₂ same xs ys := by
  generalize made : Ordering.eq = o at h
  induction h with
  | ended => exact .nil
  | shorter => cases made
  | longer => cases made
  | skip first _ ih =>
    exact .cons first (ih (fun x mem y mem' => equal x (.tail _ mem) y (.tail _ mem')) made)
  | differ apart first =>
    subst made
    exact absurd (equal _ List.mem_cons_self _ List.mem_cons_self first) apart

/-- Equal items may stand for those on the right. -/
theorem congr (symm : ∀ x y, same x y → same y x) (trans : ∀ x y z, same x y → same y z → same x z)
    (like : ∀ x y z o, order x y o → same y z → order x z o) (h : Lexical same order xs ys o)
    (each : List.Forall₂ same ys zs) : Lexical same order xs zs o := by
  induction h generalizing zs with
  | ended => cases each; exact .ended
  | shorter =>
    cases each with
    | cons => exact .shorter _ _
  | longer => cases each; exact .longer _ _
  | skip first _ ih =>
    cases each with
    | cons next others => exact .skip (trans _ _ _ first next) (ih others)
  | differ apart first =>
    cases each with
    | cons next others =>
      refine .differ (fun equal => apart ?_) (like _ _ _ _ first next)
      exact trans _ _ _ equal (symm _ _ next)

/-- Which of the two pairs of lists differs first decides where the outer lists do. -/
theorem trans_lt (symm : ∀ x y, same x y → same y x) (trans : ∀ x y z, same x y → same y z → same x z)
    (like : ∀ x y z o, order x y o → same y z → order x z o)
    (like' : ∀ x y z o, same x y → order y z o → order x z o)
    (less : ∀ x y z, order x y .lt → order y z .lt → order x z .lt)
    (eq : ∀ x y o, same x y → order x y o → o = .eq)
    (h : Lexical same order xs ys .lt) (h' : Lexical same order ys zs .lt) :
    Lexical same order xs zs .lt := by
  generalize made : Ordering.lt = o at h
  induction h generalizing zs with
  | ended => cases made
  | longer => cases made
  | shorter =>
    cases h' with
    | skip => exact .shorter _ _
    | differ => exact .shorter _ _
  | skip first _ ih =>
    subst made
    cases h' with
    | skip next rest' => exact .skip (trans _ _ _ first next) (ih rest' rfl)
    | differ apart next =>
      refine .differ (fun equal => apart ?_) (like' _ _ _ _ first next)
      exact trans _ _ _ (symm _ _ first) equal
  | differ apart first =>
    subst made
    cases h' with
    | skip next =>
      refine .differ (fun equal => apart ?_) (like _ _ _ _ first next)
      exact trans _ _ _ equal (symm _ _ next)
    | differ _ next =>
      have both := less _ _ _ first next
      exact .differ (fun equal => Ordering.noConfusion (eq _ _ _ equal both)) both

end Lexical

namespace Store

/-! ### Equality without a limit -/

/-- Both values are exact, and with room enough they are found equal. -/
def Same (s : Store) (a b : Value) : Prop := ∃ room, s.Alike room a b

/-- How values can be ordered, given an order of their items. -/
inductive Compared (s : Store) (items : List Value → List Value → Ordering → Prop) :
    Value → Value → Ordering → Prop where
  | text (t u : String) : Compared s items (.text t) (.text u) (compare t u)
  | number (m n : Int64) (left : a.int? = some m) (right : b.int? = some n) :
      Compared s items a b (compare m.toInt n.toInt)
  | list (h : items (s.list ref).toList (s.list ref').toList o) : Compared s items (.list ref) (.list ref') o
  | tuple (h : items (s.tuple ref).toList (s.tuple ref').toList o) :
      Compared s items (.tuple ref) (.tuple ref') o

/-- The order of two values, if it shows in so many containers. -/
def Ordered (s : Store) : Nat → Value → Value → Ordering → Prop
  | 0 => s.Compared fun _ _ _ => False
  | room + 1 => s.Compared (Lexical s.Same (s.Ordered room))

variable {s : Store} {a b c v w : Value} {room room' : Nat} {o o' : Ordering}

theorem Alike.mono (h : s.Alike room a b) (le : room ≤ room') : s.Alike room' a b :=
  ⟨h.left, h.right, equalAt_mono le h.equal⟩

theorem Alike.same (h : s.Alike room a b) : s.Same a b := ⟨room, h⟩

theorem Same.symm (h : s.Same a b) : s.Same b a := by
  obtain ⟨room, alike⟩ := h
  exact ⟨room, alike.symm⟩

theorem Same.trans (h : s.Same a b) (h' : s.Same b c) : s.Same a c := by
  obtain ⟨room, alike⟩ := h
  obtain ⟨room', alike'⟩ := h'
  have left := alike.mono (Nat.le_max_left room room')
  have right := alike'.mono (Nat.le_max_right room room')
  exact ⟨max room room', left.trans right⟩

/-- An answer is the right one, whatever the room for it. -/
theorem same_iff (left : s.Exact a) (right : s.Exact b) (h : s.equalAt room a b = .ok e) :
    s.Same a b ↔ e = true := by
  constructor
  · rintro ⟨room', alike⟩
    exact equalAt_unique h alike.equal
  · rintro rfl
    exact ⟨room, left, right, h⟩

theorem forall₂_alike (h : List.Forall₂ s.Same xs ys) : ∃ room, List.Forall₂ (s.Alike room) xs ys := by
  induction h with
  | nil => exact ⟨0, .nil⟩
  | cons first _ ih =>
    obtain ⟨room, alike⟩ := first
    obtain ⟨room', others⟩ := ih
    refine ⟨max room room', .cons (alike.mono (Nat.le_max_left _ _)) (others.imp fun x y h => ?_)⟩
    exact h.mono (Nat.le_max_right _ _)

/-! ### Laws of the order -/

section

variable {items : List Value → List Value → Ordering → Prop}

theorem Compared.swap (turn : ∀ xs ys o, items xs ys o → items ys xs o.swap) (h : s.Compared items a b o) :
    s.Compared items b a o.swap := by
  cases h with
  | text t u =>
    rw [← Std.OrientedOrd.eq_swap]
    exact .text u t
  | number m n left right =>
    rw [← Std.OrientedOrd.eq_swap]
    exact .number n m right left
  | list h => exact .list (turn _ _ _ h)
  | tuple h => exact .tuple (turn _ _ _ h)

theorem Compared.unique (one : ∀ xs ys o o', items xs ys o → items xs ys o' → o = o')
    (h : s.Compared items a b o) (h' : s.Compared items a b o') : o = o' := by
  cases h with
  | text =>
    cases h' with
    | text => rfl
    | number m n as => cases as
  | number m n left right =>
    cases h' with
    | number m' n' left' right' =>
      cases left.symm.trans left'
      cases right.symm.trans right'
      rfl
    | _ => cases left
  | list h =>
    cases h' with
    | number m n as => cases as
    | list h' => exact one _ _ _ _ h h'
  | tuple h =>
    cases h' with
    | number m n as => cases as
    | tuple h' => exact one _ _ _ _ h h'

theorem Compared.congr (like : ∀ xs ys zs o, items xs ys o → List.Forall₂ s.Same ys zs → items xs zs o)
    (h : s.Compared items a b o) (same : s.Same b c) : s.Compared items a c o := by
  obtain ⟨room, alike⟩ := same
  obtain rfl | ways := alike.ways
  · exact h
  cases h with
  | text =>
    cases ways with
    | number as => cases as
  | number m n left right =>
    cases ways with
    | number as as' => exact .number m n left (as'.trans (as.symm.trans right))
    | _ => cases right
  | list h =>
    cases ways with
    | number as => cases as
    | list each => exact .list (like _ _ _ _ h (each.imp fun _ _ => Alike.same))
  | tuple h =>
    cases ways with
    | number as => cases as
    | tuple each => exact .tuple (like _ _ _ _ h (each.imp fun _ _ => Alike.same))

theorem Compared.trans_lt (less : ∀ xs ys zs, items xs ys .lt → items ys zs .lt → items xs zs .lt)
    (h : s.Compared items a b o) (h' : s.Compared items b c o') (lt : o = .lt) (lt' : o' = .lt) :
    s.Compared items a c .lt := by
  cases h with
  | text t u =>
    cases h' with
    | text _ v =>
      have both : compare t v = .lt := Std.TransCmp.lt_trans lt lt'
      exact both ▸ .text t v
    | number k m as => cases as
  | number k m left right =>
    cases h' with
    | number m' n left' right' =>
      cases right.symm.trans left'
      have both : compare k.toInt n.toInt = .lt := Std.TransCmp.lt_trans lt lt'
      exact both ▸ .number k n left right'
    | _ => cases right
  | list h =>
    cases h' with
    | number k m as => cases as
    | list h' =>
      subst lt lt'
      exact .list (less _ _ _ h h')
  | tuple h =>
    cases h' with
    | number k m as => cases as
    | tuple h' =>
      subst lt lt'
      exact .tuple (less _ _ _ h h')

theorem Compared.same_of_eq (left : s.Exact a) (right : s.Exact b)
    (equal : ∀ xs ys, (∀ x ∈ xs, s.Exact x) → (∀ y ∈ ys, s.Exact y) → items xs ys .eq →
      List.Forall₂ s.Same xs ys)
    (h : s.Compared items a b o) (eq : o = .eq) : s.Same a b := by
  cases h with
  | text t u =>
    obtain rfl := compare_eq_iff_eq.mp eq
    exact ⟨0, left, right, equalAt_self nofun⟩
  | number m n as as' =>
    have one : m = n := Int64.toInt_inj.mp (compare_eq_iff_eq.mp eq)
    exact ⟨0, left, right, equalAt_number as (one ▸ as')⟩
  | list h =>
    subst eq
    obtain ⟨room, each⟩ := forall₂_alike (equal _ _ (fun x => left.part) (fun y => right.part) h)
    exact ⟨room + 1, left, right, equalAt_of_agree (.list each)⟩
  | tuple h =>
    subst eq
    obtain ⟨room, each⟩ := forall₂_alike (equal _ _ (fun x => left.part) (fun y => right.part) h)
    exact ⟨room + 1, left, right, equalAt_of_agree (.tuple each)⟩

end

namespace Ordered

theorem swap (h : s.Ordered room a b o) : s.Ordered room b a o.swap := by
  induction room generalizing a b o with
  | zero => exact Compared.swap (fun _ _ _ => id) h
  | succ room ih =>
    exact Compared.swap (fun _ _ _ => Lexical.swap (fun _ _ => Same.symm) fun _ _ _ => ih) h

theorem unique (h : s.Ordered room a b o) (h' : s.Ordered room a b o') : o = o' := by
  induction room generalizing a b o o' with
  | zero => exact Compared.unique (fun _ _ _ _ => False.elim) h h'
  | succ room ih =>
    refine Compared.unique (fun xs ys o o' => ?_) h h'
    exact Lexical.unique fun _ _ _ _ => ih

/-- The order is the same for equal values. -/
theorem congr (h : s.Ordered room a b o) (same : s.Same b c) : s.Ordered room a c o := by
  induction room generalizing a b c o with
  | zero => exact Compared.congr (fun _ _ _ _ => False.elim) h same
  | succ room ih =>
    refine Compared.congr (fun xs ys zs o => ?_) h same
    exact Lexical.congr (fun _ _ => Same.symm) (fun _ _ _ => Same.trans) fun _ _ _ _ => ih

theorem congr_left (same : s.Same a b) (h : s.Ordered room b c o) : s.Ordered room a c o := by
  have turned := (h.swap.congr same.symm).swap
  rwa [Ordering.swap_swap] at turned

theorem eq_self (h : s.Ordered room a a o) : o = .eq := by
  have turned := h.unique h.swap
  cases o <;> trivial

theorem eq_of_same (same : s.Same a b) (h : s.Ordered room a b o) : o = .eq := (h.congr same.symm).eq_self

theorem trans_lt (h : s.Ordered room a b .lt) (h' : s.Ordered room b c .lt) : s.Ordered room a c .lt := by
  induction room generalizing a b c with
  | zero => exact Compared.trans_lt (fun _ _ _ => False.elim) h h' rfl rfl
  | succ room ih =>
    refine Compared.trans_lt (fun xs ys zs => ?_) h h' rfl rfl
    exact Lexical.trans_lt (fun _ _ => Same.symm) (fun _ _ _ => Same.trans) (fun _ _ _ _ => congr)
      (fun _ _ _ _ => congr_left) (fun _ _ _ => ih) fun _ _ _ => eq_of_same

/-- What the order finds equal is equal. -/
theorem same_of_eq (left : s.Exact a) (right : s.Exact b) (h : s.Ordered room a b .eq) : s.Same a b := by
  induction room generalizing a b with
  | zero => exact Compared.same_of_eq left right (fun _ _ _ _ => False.elim) h rfl
  | succ room ih =>
    refine Compared.same_of_eq left right (fun xs ys left right each => ?_) h rfl
    exact each.forall₂_of_eq fun x mem y mem' => ih (left x mem) (right y mem')

end Ordered

/-! ### What comparing finds -/

theorem numberOrder?_eq (left : ∀ d, a ≠ .float d) (right : ∀ d, b ≠ .float d)
    (h : numberOrder? a b = some r) :
    ∃ m n, a.int? = some m ∧ b.int? = some n ∧ r = some (compare m.toInt n.toInt) := by
  cases a with
  | float d => exact absurd rfl (left d)
  | bool | int =>
    cases b with
    | float d => exact absurd rfl (right d)
    | bool | int => exact ⟨_, _, rfl, rfl, (Option.some.inj h).symm⟩
    | _ => cases h
  | _ => cases h

theorem lexical_of_itemsOrder {order : Value → Value → Except Fault (Option Ordering)}
    {R : Value → Value → Ordering → Prop} {xs ys : List Value}
    (left : ∀ x ∈ xs, s.Exact x) (right : ∀ y ∈ ys, s.Exact y)
    (step : ∀ x ∈ xs, ∀ y ∈ ys, ∀ r, order x y = .ok r → ∃ o, r = some o ∧ R x y o)
    (h : itemsOrder s.equal order xs ys = .ok r) : ∃ o, r = some o ∧ Lexical s.Same R xs ys o := by
  induction xs generalizing ys with
  | nil =>
    cases ys with
    | nil =>
      cases h
      exact ⟨.eq, rfl, .ended⟩
    | cons y ys =>
      cases h
      exact ⟨.lt, rfl, .shorter y ys⟩
  | cons x xs ih =>
    cases ys with
    | nil =>
      cases h
      exact ⟨.gt, rfl, .longer x xs⟩
    | cons y ys =>
      rw [itemsOrder] at h
      cases first : s.equal x y with
      | error fault =>
        rw [first] at h
        cases h
      | ok e =>
        rw [first] at h
        have decides := same_iff (left x List.mem_cons_self) (right y List.mem_cons_self) first
        cases e with
        | true =>
          obtain ⟨o, found, rest⟩ := ih (fun x mem => left x (.tail _ mem))
            (fun y mem => right y (.tail _ mem))
            (fun x mem y mem' => step x (.tail _ mem) y (.tail _ mem')) h
          exact ⟨o, found, .skip (decides.mpr rfl) rest⟩
        | false =>
          obtain ⟨o, found, related⟩ := step x List.mem_cons_self y List.mem_cons_self r h
          exact ⟨o, found, .differ (fun same => Bool.noConfusion (decides.mp same)) related⟩

theorem itemsOrder_of_lexical {order : Value → Value → Except Fault (Option Ordering)}
    {R : Value → Value → Ordering → Prop} {xs ys : List Value}
    (left : ∀ x ∈ xs, s.Regular x) (right : ∀ y ∈ ys, s.Regular y)
    (step : ∀ x ∈ xs, ∀ y ∈ ys, ∀ o, R x y o → order x y = .ok (some o))
    (h : Lexical s.Same R xs ys o) : itemsOrder s.equal order xs ys = .ok (some o) := by
  induction h with
  | ended => rfl
  | shorter => rfl
  | longer => rfl
  | @skip x y xs ys o first _ ih =>
    have regular := left x List.mem_cons_self
    have regular' := right y List.mem_cons_self
    obtain ⟨e, compared⟩ := regular.equal_total regular'
    obtain rfl := (same_iff regular.toExact regular'.toExact compared).mp first
    rw [itemsOrder, compared]
    exact ih (fun x mem => left x (.tail _ mem)) (fun y mem => right y (.tail _ mem))
      fun x mem y mem' => step x (.tail _ mem) y (.tail _ mem')
  | @differ x y o xs ys apart first =>
    have regular := left x List.mem_cons_self
    have regular' := right y List.mem_cons_self
    obtain ⟨e, compared⟩ := regular.equal_total regular'
    obtain rfl : e = false := by
      rw [same_iff regular.toExact regular'.toExact compared] at apart
      exact Bool.eq_false_iff.mpr apart
    rw [itemsOrder, compared]
    exact step x List.mem_cons_self y List.mem_cons_self o first

theorem ordered_text (t u : String) : s.Ordered room (.text t) (.text u) (compare t u) := by
  cases room <;> exact .text t u

theorem ordered_number (left : a.int? = some m) (right : b.int? = some n) :
    s.Ordered room a b (compare m.toInt n.toInt) := by
  cases room <;> exact .number m n left right

/-- An order that is found is the right one. -/
theorem ordered_of_orderAt (left : s.Exact a) (right : s.Exact b) (h : s.orderAt symbol room a b = .ok r) :
    ∃ o, r = some o ∧ s.Ordered room a b o := by
  induction room using Nat.strongRecOn generalizing a b r with
  | ind room ih =>
  rw [orderAt.eq_def] at h
  split at h
  · cases h
    exact ⟨_, rfl, ordered_text _ _⟩
  · cases h
  · cases h
  · obtain ⟨o, found, items⟩ := lexical_of_itemsOrder (fun x => left.part) (fun y => right.part)
      (fun x mem y mem' r => ih _ (Nat.lt_succ_self _) (left.part mem) (right.part mem')) h
    exact ⟨o, found, .list items⟩
  · obtain ⟨o, found, items⟩ := lexical_of_itemsOrder (fun x => left.part) (fun y => right.part)
      (fun x mem y mem' r => ih _ (Nat.lt_succ_self _) (left.part mem) (right.part mem')) h
    exact ⟨o, found, .tuple items⟩
  · split at h
    · rename_i compared
      cases h
      obtain ⟨m, n, as, as', rfl⟩ := numberOrder?_eq left.free.ne_float right.free.ne_float compared
      exact ⟨_, rfl, ordered_number as as'⟩
    · cases h

theorem nestsWithin_mono (le : room ≤ room') (h : s.nestsWithin room v = true) :
    s.nestsWithin room' v = true := by
  induction room generalizing room' v with
  | zero =>
    cases room' with
    | zero => exact h
    | succ room' =>
      cases v with
      | list | tuple | dict => cases h
      | _ => rfl
  | succ room ih =>
    obtain ⟨n, rfl⟩ : ∃ n, room' = n + 1 := ⟨room' - 1, by omega⟩
    rw [nestsWithin, List.all_eq_true] at h ⊢
    exact fun x mem => ih (by omega) (h x mem)

theorem orderAt_number (left : a.int? = some m) (right : b.int? = some n) :
    s.orderAt symbol room a b = .ok (some (compare m.toInt n.toInt)) := by
  cases a with
  | bool | int =>
    cases b with
    | bool | int =>
      cases left
      cases right
      rw [orderAt.eq_def]
      rfl
    | _ => cases right
  | _ => cases left

/-- Where the values fit the room, their order is found. -/
theorem orderAt_of_ordered (left : s.Exact a) (right : s.Exact b) (fits : s.nestsWithin room a = true)
    (fits' : s.nestsWithin room b = true) (le : room ≤ maxDepth) (h : s.Ordered room a b o) :
    s.orderAt symbol room a b = .ok (some o) := by
  induction room generalizing a b o with
  | zero =>
    cases h with
    | text t u => rw [orderAt]
    | number m n as as' => exact orderAt_number as as'
    | list h => exact h.elim
    | tuple h => exact h.elim
  | succ room ih =>
    have regular (v : Value) (exact : s.Exact v) (fits : s.nestsWithin room v = true) : s.Regular v :=
      ⟨exact, nestsWithin_mono (by omega) fits⟩
    have inside : ∀ x ∈ s.inner a, s.nestsWithin room x = true := List.all_eq_true.mp fits
    have inside' : ∀ y ∈ s.inner b, s.nestsWithin room y = true := List.all_eq_true.mp fits'
    have le : room ≤ maxDepth := by omega
    cases h with
    | text t u => rw [orderAt]
    | number m n as as' => exact orderAt_number as as'
    | list h =>
      rw [orderAt]
      exact itemsOrder_of_lexical (fun x mem => regular x (left.part mem) (inside x mem))
        (fun y mem => regular y (right.part mem) (inside' y mem))
        (fun x mem y mem' o => ih (left.part mem) (right.part mem') (inside x mem) (inside' y mem') le) h
    | tuple h =>
      rw [orderAt]
      exact itemsOrder_of_lexical (fun x mem => regular x (left.part mem) (inside x mem))
        (fun y mem => regular y (right.part mem) (inside' y mem))
        (fun x mem y mem' o => ih (left.part mem) (right.part mem') (inside x mem) (inside' y mem') le) h

theorem Regular.order_iff (left : s.Regular a) (right : s.Regular b) (symbol : String) :
    s.order symbol a b = .ok (some o) ↔ s.Ordered maxDepth a b o := by
  constructor
  · intro h
    obtain ⟨o', same, ordered⟩ := ordered_of_orderAt left.toExact right.toExact h
    cases same
    exact ordered
  · exact orderAt_of_ordered left.toExact right.toExact left.shallow right.shallow (Nat.le_refl _)

theorem itemsOrder_mono {equal : Value → Value → Except Fault Bool}
    {order order' : Value → Value → Except Fault (Option Ordering)}
    (more : ∀ x y r, order x y = .ok r → order' x y = .ok r) {xs ys : List Value}
    (h : itemsOrder equal order xs ys = .ok r) : itemsOrder equal order' xs ys = .ok r := by
  induction xs generalizing ys with
  | nil => cases ys <;> exact h
  | cons x xs ih =>
    cases ys with
    | nil => exact h
    | cons y ys =>
      rw [itemsOrder] at h ⊢
      cases first : equal x y with
      | error fault =>
        rw [first] at h
        cases h
      | ok e =>
        rw [first] at h
        cases e with
        | true => exact ih h
        | false => exact more x y r h

/-- The symbol shows in failures only. -/
theorem orderAt_symbol (symbol' : String) (h : s.orderAt symbol room a b = .ok r) :
    s.orderAt symbol' room a b = .ok r := by
  induction room using Nat.strongRecOn generalizing a b r with
  | ind room ih =>
  rw [orderAt.eq_def] at h ⊢
  split at h
  · exact h
  · cases h
  · cases h
  · exact itemsOrder_mono (fun x y r => ih _ (Nat.lt_succ_self _)) h
  · exact itemsOrder_mono (fun x y r => ih _ (Nat.lt_succ_self _)) h
  · split at h
    · exact h
    · cases h

/-- On values without floats that nest no deeper than comparing goes: there is an order or a failure; it is
turned round with its sides, it finds equal just what is equal, and of three values in ascending order the
first is less than the third. -/
theorem order_is_consistent (s : Store) (symbol : String) (a b c : Value) (ha : s.Regular a)
    (hb : s.Regular b) (hc : s.Regular c) :
    s.order symbol a b ≠ .ok none ∧
    (∀ o, s.order symbol a b = .ok (some o) ↔ s.order symbol b a = .ok (some o.swap)) ∧
    (∀ o, s.order symbol a b = .ok (some o) → (o = .eq ↔ s.equal a b = .ok true)) ∧
    (s.order symbol a b = .ok (some .lt) → s.order symbol b c = .ok (some .lt) →
      s.order symbol a c = .ok (some .lt)) := by
  refine ⟨?_, ?_, ?_, ?_⟩
  · intro found
    obtain ⟨o, some, -⟩ := ordered_of_orderAt ha.toExact hb.toExact found
    cases some
  · intro o
    rw [ha.order_iff hb, hb.order_iff ha]
    constructor
    · exact Ordered.swap
    · intro h
      have turned := h.swap
      rwa [Ordering.swap_swap] at turned
  · intro o found
    rw [ha.order_iff hb] at found
    obtain ⟨e, compared⟩ := ha.equal_total hb
    have decides := same_iff ha.toExact hb.toExact compared
    rw [compared, Except.ok.injEq, ← decides]
    constructor
    · rintro rfl
      exact found.same_of_eq ha.toExact hb.toExact
    · exact fun same => found.eq_of_same same
  · rw [ha.order_iff hb, hb.order_iff hc, ha.order_iff hc]
    exact Ordered.trans_lt

/-- `(None, [1, True])`, `(None, [True, 2])` and `(None, [1, 3], 'z')`. Nothing orders `None`. -/
def threeTuples : Store where
  lists := #[#[.int 1, .bool true], #[.bool true, .int 2], #[.int 1, .int 3]]
  tuples := #[#[.none, .list 0], #[.none, .list 1], #[.none, .list 2, .text "z"]]

theorem order_is_consistent_mixed :
    threeTuples.order "<" (.tuple 0) (.tuple 1) = .ok (some .lt) ∧
      threeTuples.order "<" (.tuple 1) (.tuple 2) = .ok (some .lt) ∧
      threeTuples.order "<" (.tuple 0) (.tuple 2) = .ok (some .lt) ∧
      threeTuples.order "<" (.tuple 1) (.tuple 0) = .ok (some .gt) := by
  have regular (i : Fin 3) : threeTuples.Regular (.tuple i) := by
    have checks : ∀ i : Fin 3, threeTuples.lacksFloat 3 (.tuple i) = true ∧
        threeTuples.everywhere threeTuples.isKeyed 3 (.tuple i) = true ∧
        threeTuples.nestsWithin maxDepth (.tuple i) = true := by
      decide +kernel
    exact regular_of_checks 3 (checks i).1 (checks i).2.1 (checks i).2.2
  have first : threeTuples.order "<" (.tuple 0) (.tuple 1) = .ok (some .lt) := by decide +kernel
  have second : threeTuples.order "<" (.tuple 1) (.tuple 2) = .ok (some .lt) := by decide +kernel
  obtain ⟨-, turns, -, ascends⟩ := order_is_consistent threeTuples "<" (.tuple 0) (.tuple 1) (.tuple 2)
    (regular 0) (regular 1) (regular 2)
  exact ⟨first, second, ascends first second, (turns .lt).mp first⟩

end Store

end Scratchpad
