import Scratchpad.Builtin
import Scratchpad.Method
import Scratchpad.Proofs.Store.Order

/-!
# Sorting

Where any two items can be compared, comparing is a total preorder on them (`Sortable.trans`), and sorting
puts each item behind all that are not greater (`insertSorted_ok`). So the sorted items are a permutation of
the items, ascending, and items that are equal stay in their order; no other arrangement has all three
(`sorting_is_stable`). The least item that `min` picks is the first of them, and the greatest that `max`
picks equals the last.
-/

namespace Scratchpad

namespace Store

/-- Any two of the items can be compared. -/
structure Sortable (s : Store) (xs : List Value) : Prop where
  exact : ∀ x ∈ xs, s.Exact x
  compared : ∀ a ∈ xs, ∀ b ∈ xs, ∃ r, s.order "<" a b = .ok r

/-- How two values compare. Values that cannot be compared count as equal. -/
def comparison (s : Store) (a b : Value) : Ordering :=
  match s.order "<" a b with
  | .ok (some o) => o
  | _ => .eq

variable {s : Store} {a b c item : Value} {xs ys zs all : List Value} {o wanted : Ordering}

namespace Sortable

variable (h : s.Sortable all)

include h

theorem order_eq (left : a ∈ all) (right : b ∈ all) (symbol : String) :
    s.order symbol a b = .ok (some (s.comparison a b)) := by
  obtain ⟨r, found⟩ := h.compared a left b right
  obtain ⟨o, rfl, -⟩ := ordered_of_orderAt (h.exact a left) (h.exact b right) found
  have same : s.comparison a b = o := by rw [comparison, found]
  rw [same]
  exact orderAt_symbol symbol found

theorem ordered (left : a ∈ all) (right : b ∈ all) : s.Ordered maxDepth a b (s.comparison a b) := by
  obtain ⟨o, same, ordered⟩ := ordered_of_orderAt (h.exact a left) (h.exact b right)
    (h.order_eq left right "<")
  cases same
  exact ordered

theorem order_iff (left : a ∈ all) (right : b ∈ all) :
    s.order "<" a b = .ok (some o) ↔ s.comparison a b = o := by
  rw [h.order_eq left right, Except.ok.injEq, Option.some.injEq]

theorem swap (left : a ∈ all) (right : b ∈ all) : s.comparison b a = (s.comparison a b).swap :=
  (h.ordered right left).unique (h.ordered left right).swap

theorem self (mem : a ∈ all) : s.comparison a a = .eq := (h.ordered mem mem).eq_self

theorem self_ne (mem : a ∈ all) (strict : wanted ≠ .eq) : s.comparison a a ≠ wanted := by
  rw [h.self mem]
  exact strict.symm

theorem congr_left (ha : a ∈ all) (hb : b ∈ all) (hc : c ∈ all) (equal : s.comparison a b = .eq) :
    s.comparison a c = s.comparison b c := by
  have same : s.Same a b := by
    have found := h.ordered ha hb
    rw [equal] at found
    exact found.same_of_eq (h.exact a ha) (h.exact b hb)
  exact (h.ordered ha hc).unique ((h.ordered hb hc).congr_left same)

theorem congr_right (ha : a ∈ all) (hb : b ∈ all) (hc : c ∈ all) (equal : s.comparison b c = .eq) :
    s.comparison a b = s.comparison a c := by
  rw [h.swap hb ha, h.swap hc ha, h.congr_left hb hc ha equal]

theorem trans_lt (ha : a ∈ all) (hb : b ∈ all) (hc : c ∈ all) (first : s.comparison a b = .lt)
    (second : s.comparison b c = .lt) : s.comparison a c = .lt := by
  have left := h.ordered ha hb
  have right := h.ordered hb hc
  rw [first] at left
  rw [second] at right
  exact (h.ordered ha hc).unique (left.trans_lt right)

theorem trans_gt (ha : a ∈ all) (hb : b ∈ all) (hc : c ∈ all) (first : s.comparison a b = .gt)
    (second : s.comparison b c = .gt) : s.comparison a c = .gt := by
  have less : s.comparison b a = .lt := by rw [h.swap ha hb, first]; rfl
  have less' : s.comparison c b = .lt := by rw [h.swap hb hc, second]; rfl
  rw [h.swap hc ha, h.trans_lt hc hb ha less' less]
  rfl

/-- What is not less than a value is not less than those that this one is not less than; and so with
greater. -/
theorem trans (ha : a ∈ all) (hb : b ∈ all) (hc : c ∈ all) (strict : wanted ≠ .eq)
    (first : s.comparison a b ≠ wanted) (second : s.comparison b c ≠ wanted) :
    s.comparison a c ≠ wanted := by
  cases left : s.comparison a b with
  | eq => rwa [h.congr_left ha hb hc left]
  | lt =>
    cases right : s.comparison b c with
    | eq => rwa [← h.congr_right ha hb hc right]
    | lt =>
      rw [h.trans_lt ha hb hc left right, ← left]
      exact first
    | gt => cases wanted <;> simp_all
  | gt =>
    cases right : s.comparison b c with
    | eq => rwa [← h.congr_right ha hb hc right]
    | lt => cases wanted <;> simp_all
    | gt =>
      rw [h.trans_gt ha hb hc left right, ← left]
      exact first

end Sortable

/-! ### One item more -/

/-- Items that equal a given one, in their order. -/
def equals (s : Store) (c : Value) (xs : List Value) : List Value :=
  xs.filter fun x => s.comparison x c = .eq

/-- The items sorted so far, the latest first. -/
structure Arranged (s : Store) (all items sorted : List Value) : Prop where
  perm : sorted.Perm items
  descending : sorted.Pairwise fun a b => s.comparison a b ≠ .lt
  stable : ∀ c ∈ all, s.equals c sorted = (s.equals c items).reverse

theorem equals_cons (c x : Value) (xs : List Value) :
    s.equals c (x :: xs) = if s.comparison x c = .eq then x :: s.equals c xs else s.equals c xs := by
  rw [equals, List.filter_cons]
  simp [equals]

theorem insertSorted_ok (h : s.Sortable all) (new : item ∈ all) (old : ∀ x ∈ xs, x ∈ all)
    (descending : xs.Pairwise fun a b => s.comparison a b ≠ .lt) :
    ∃ ys, s.insertSorted item xs = .ok ys ∧ ys.Perm (item :: xs) ∧
      (ys.Pairwise fun a b => s.comparison a b ≠ .lt) ∧
      ∀ c ∈ all, s.equals c ys = s.equals c (item :: xs) := by
  induction xs with
  | nil => exact ⟨[item], rfl, .refl _, List.pairwise_singleton _ _, fun _ _ => rfl⟩
  | cons x xs ih =>
    obtain ⟨first, rest⟩ := List.forall_mem_cons.mp old
    obtain ⟨above, below⟩ := List.pairwise_cons.mp descending
    rw [insertSorted, h.order_eq new first]
    by_cases less : s.comparison item x = .lt
    · obtain ⟨ys, done, perm, sorted, stable⟩ := ih rest below
      refine ⟨x :: ys, ?_, ?_, ?_, ?_⟩
      · rw [done]
        simp [less, bind, Except.bind, pure, Except.pure]
      · exact (perm.cons x).trans (.swap item x xs)
      · rw [List.pairwise_cons]
        refine ⟨fun y mem => ?_, sorted⟩
        rcases List.mem_cons.mp (perm.subset mem) with rfl | mem
        · rw [h.swap new first, less]
          exact Ordering.noConfusion
        · exact above y mem
      · intro c mem
        -- the two are not equal, so not both are in the class of `c`
        have apart : ¬ (s.comparison x c = .eq ∧ s.comparison item c = .eq) := by
          rintro ⟨left, right⟩
          rw [h.congr_right new first mem left, right] at less
          cases less
        rw [equals_cons, stable c mem, equals_cons, equals_cons, equals_cons]
        by_cases equal : s.comparison x c = .eq
        · rw [if_pos equal, if_neg fun right => apart ⟨equal, right⟩,
            if_neg fun right => apart ⟨equal, right⟩, if_pos equal]
        · rw [if_neg equal, if_neg equal]
    · refine ⟨item :: x :: xs, ?_, .refl _, ?_, fun c mem => rfl⟩
      · simp [less, bind, Except.bind, pure, Except.pure]
      · rw [List.pairwise_cons]
        refine ⟨fun y mem => ?_, descending⟩
        rcases List.mem_cons.mp mem with rfl | mem
        · exact less
        · exact h.trans new first (rest y mem) Ordering.noConfusion less (above y mem)

theorem Arranged.step (arranged : s.Arranged all xs ys) (h : s.Sortable all) (new : item ∈ all)
    (old : ∀ x ∈ xs, x ∈ all) :
    ∃ zs, s.insertSorted item ys = .ok zs ∧ s.Arranged all (xs ++ [item]) zs := by
  obtain ⟨zs, done, perm, sorted, stable⟩ := insertSorted_ok h new
    (fun y mem => old y (arranged.perm.subset mem)) arranged.descending
  refine ⟨zs, done, ?_, sorted, ?_⟩
  · exact (perm.trans (arranged.perm.cons item)).trans (List.perm_append_singleton item xs).symm
  · intro c mem
    rw [stable c mem, equals_cons, arranged.stable c mem, equals, equals, List.filter_append,
      List.reverse_append, List.filter_singleton]
    split <;> simp [*]

/-- Item by item, all are arranged. -/
theorem Arranged.run (arranged : s.Arranged all xs ys) (h : s.Sortable all) (old : ∀ x ∈ xs, x ∈ all)
    (new : ∀ x ∈ zs, x ∈ all) :
    ∃ sorted, zs.foldlM (fun sorted item => s.insertSorted item sorted) ys = .ok sorted ∧
      s.Arranged all (xs ++ zs) sorted := by
  induction zs generalizing xs ys with
  | nil => exact ⟨ys, rfl, by rwa [List.append_nil]⟩
  | cons z zs ih =>
    obtain ⟨first, rest⟩ := List.forall_mem_cons.mp new
    obtain ⟨ys', done, arranged⟩ := arranged.step h first old
    have old : ∀ x ∈ xs ++ [z], x ∈ all := by
      intro x mem
      rcases List.mem_append.mp mem with mem | mem
      · exact old x mem
      · exact List.mem_singleton.mp mem ▸ first
    obtain ⟨sorted, finished, arranged⟩ := ih arranged old rest
    rw [List.append_assoc] at arranged
    refine ⟨sorted, ?_, arranged⟩
    rw [List.foldlM_cons, done]
    exact finished

theorem sort_ok {items : Array Value} (h : s.Sortable items.toList) :
    ∃ sorted, s.sort items = .ok sorted.reverse.toArray ∧ s.Arranged items.toList items.toList sorted := by
  have empty : s.Arranged items.toList [] [] := ⟨.nil, .nil, fun _ _ => rfl⟩
  obtain ⟨sorted, done, arranged⟩ := empty.run h nofun fun x => id
  refine ⟨sorted, ?_, arranged⟩
  rw [sort, done]
  rfl

/-! ### There is one arrangement -/

theorem Sortable.eq_of_not_lt (h : s.Sortable all) (left : a ∈ all) (right : b ∈ all)
    (first : s.comparison a b ≠ .lt) (second : s.comparison b a ≠ .lt) : s.comparison a b = .eq := by
  rw [h.swap left right] at second
  cases compared : s.comparison a b <;> simp_all

/-- Lists that descend are the same, if they have the same items and equal ones in the same order. -/
theorem eq_of_descending (h : s.Sortable all) (inside : ∀ y ∈ ys, y ∈ all) (perm : ys.Perm zs)
    (left : ys.Pairwise fun a b => s.comparison a b ≠ .lt)
    (right : zs.Pairwise fun a b => s.comparison a b ≠ .lt)
    (same : ∀ c ∈ all, s.equals c ys = s.equals c zs) : ys = zs := by
  induction ys generalizing zs with
  | nil => exact perm.nil_eq
  | cons y ys ih =>
    cases zs with
    | nil => exact absurd perm.eq_nil (List.cons_ne_nil y ys)
    | cons z zs =>
      obtain ⟨first, rest⟩ := List.forall_mem_cons.mp inside
      have other : z ∈ all := inside z (perm.symm.subset List.mem_cons_self)
      -- neither head is less than the other, as each is somewhere in the other list
      have equal : s.comparison z y = .eq := by
        apply h.eq_of_not_lt other first
        · exact right.rel_head_of_rel_head_head (perm.subset List.mem_cons_self)
            (h.self_ne other Ordering.noConfusion)
        · exact left.rel_head_of_rel_head_head (perm.symm.subset List.mem_cons_self)
            (h.self_ne first Ordering.noConfusion)
      have heads := same y first
      rw [equals_cons, equals_cons, if_pos (h.self first), if_pos equal] at heads
      obtain ⟨rfl, -⟩ := List.cons.inj heads
      have perm : ys.Perm zs := (List.perm_cons y).mp perm
      refine congrArg (y :: ·) (ih rest perm left.of_cons right.of_cons fun c mem => ?_)
      have classes := same c mem
      rw [equals_cons, equals_cons] at classes
      by_cases among : s.comparison y c = .eq
      · rw [if_pos among, if_pos among] at classes
        exact (List.cons.inj classes).2
      · rwa [if_neg among, if_neg among] at classes

end Store

/-! ### The least and the greatest -/

theorem swap_eq_iff {o wanted : Ordering} (strict : wanted ≠ .eq) (other : o ≠ .eq) :
    o.swap = wanted ↔ o ≠ wanted := by
  cases o <;> cases wanted <;> simp_all

/-- The best item is the first that none beats. -/
theorem Builtin.best_ok {s : Store} {all : List Value} (h : s.Sortable all) {wanted : Ordering}
    (strict : wanted ≠ .eq) (symbol : String) {first : Value} {rest : List Value} (inside : first ∈ all)
    (others : ∀ x ∈ rest, x ∈ all) :
    ∃ r, best s symbol wanted first rest = .ok r ∧ r ∈ first :: rest ∧
      (∀ x ∈ first :: rest, s.comparison x r ≠ wanted) ∧ (s.equals r (first :: rest)).head? = some r := by
  induction rest generalizing first with
  | nil =>
    refine ⟨first, rfl, List.mem_singleton_self _, ?_, ?_⟩
    · intro x mem
      rw [List.mem_singleton.mp mem]
      exact h.self_ne inside strict
    · rw [Store.equals_cons, if_pos (h.self inside)]
      rfl
  | cons item rest ih =>
    obtain ⟨next, others⟩ := List.forall_mem_cons.mp others
    rw [best, h.order_eq next inside]
    by_cases beats : s.comparison item first = wanted
    · obtain ⟨r, done, mem, unbeaten, earliest⟩ := ih next others
      have among : r ∈ all := (List.mem_cons.mp mem).elim (fun same => same ▸ next) (others r)
      have stays := unbeaten item List.mem_cons_self
      have loses : s.comparison first item ≠ wanted := by
        rw [h.swap next inside, Ne, swap_eq_iff strict (beats ▸ strict)]
        exact not_not.mpr beats
      have worse : s.comparison first r ≠ .eq := by
        intro equal
        rw [h.congr_right next inside among equal] at beats
        exact stays beats
      refine ⟨r, ?_, .tail _ mem, ?_, ?_⟩
      · rw [← done]
        simp [beats, bind, Except.bind]
      · exact List.forall_mem_cons.mpr ⟨h.trans inside next among strict loses stays, unbeaten⟩
      · rwa [Store.equals_cons, if_neg worse]
    · obtain ⟨r, done, mem, unbeaten, earliest⟩ := ih inside others
      have among : r ∈ all := (List.mem_cons.mp mem).elim (fun same => same ▸ inside) (others r)
      obtain ⟨stays, later⟩ := List.forall_mem_cons.mp unbeaten
      refine ⟨r, ?_, ?_, ?_, ?_⟩
      · rw [← done]
        simp [beats, bind, Except.bind]
      · rcases List.mem_cons.mp mem with same | mem
        · exact same ▸ List.mem_cons_self
        · exact .tail _ (.tail _ mem)
      · exact List.forall_mem_cons.mpr
          ⟨stays, List.forall_mem_cons.mpr ⟨h.trans next inside among strict beats stays, later⟩⟩
      · rw [Store.equals_cons] at earliest ⊢
        by_cases equal : s.comparison first r = .eq
        · rw [if_pos equal] at earliest ⊢
          exact earliest
        · have worse : s.comparison item r ≠ .eq := by
            intro same
            rw [h.congr_left next among inside same, h.swap inside among] at beats
            exact beats ((swap_eq_iff strict equal).mpr stays)
          rw [if_neg equal] at earliest ⊢
          rwa [Store.equals_cons, if_neg worse]

/-! ### What programs see -/

namespace Store

/-- The same items, none of them less than one before it, and those that are equal in the order they had. -/
structure StablySorted (s : Store) (xs sorted : List Value) : Prop where
  perm : sorted.Perm xs
  ascending : sorted.Pairwise fun a b => s.order "<" b a ≠ .ok (some .lt)
  stable : ∀ c ∈ xs, sorted.filter (fun x => s.order "<" x c = .ok (some .eq)) =
    xs.filter fun x => s.order "<" x c = .ok (some .eq)

variable {s : Store} {xs ys : List Value} {c r : Value}

theorem Sortable.equals_eq (h : s.Sortable xs) (inside : ∀ y ∈ ys, y ∈ xs) (mem : c ∈ xs) :
    ys.filter (fun x => s.order "<" x c = .ok (some .eq)) = s.equals c ys := by
  apply List.filter_congr
  intro y listed
  rw [decide_eq_decide]
  exact h.order_iff (inside y listed) mem

theorem Sortable.arranged_iff (h : s.Sortable xs) : s.Arranged xs xs ys.reverse ↔ s.StablySorted xs ys := by
  have members (perm : ys.Perm xs) (y : Value) (mem : y ∈ ys) : y ∈ xs := perm.subset mem
  constructor
  · intro arranged
    have perm : ys.Perm xs := (List.reverse_perm ys).symm.trans arranged.perm
    refine ⟨perm, ?_, fun c mem => ?_⟩
    · apply (List.pairwise_reverse.mp arranged.descending).imp_of_mem
      intro a b left right above less
      exact above ((h.order_iff (members perm b right) (members perm a left)).mp less)
    · have classes := arranged.stable c mem
      rw [equals, List.filter_reverse, List.reverse_inj] at classes
      rw [h.equals_eq (members perm) mem, h.equals_eq (fun _ => id) mem]
      exact classes
  · rintro ⟨perm, ascending, stable⟩
    refine ⟨(List.reverse_perm ys).trans perm, ?_, fun c mem => ?_⟩
    · apply List.pairwise_reverse.mpr
      apply ascending.imp_of_mem
      intro a b left right above less
      exact above ((h.order_iff (members perm b right) (members perm a left)).mpr less)
    · have classes := stable c mem
      rw [h.equals_eq (members perm) mem, h.equals_eq (fun _ => id) mem] at classes
      rw [equals, List.filter_reverse, List.reverse_inj]
      exact classes

/-- There is one such arrangement, and sorting makes it. -/
theorem sort_stable {items : Array Value} (h : s.Sortable items.toList) :
    ∃ sorted, s.sort items = .ok sorted.toArray ∧ ∀ ys, s.StablySorted items.toList ys ↔ ys = sorted := by
  obtain ⟨latest, done, arranged⟩ := sort_ok h
  refine ⟨latest.reverse, done, fun ys => ⟨fun other => ?_, ?_⟩⟩
  · have arranged' := h.arranged_iff.mpr other
    rw [← List.reverse_inj, List.reverse_reverse]
    refine eq_of_descending h (fun y mem => arranged'.perm.subset mem)
      (arranged'.perm.trans arranged.perm.symm) arranged'.descending arranged.descending fun c mem => ?_
    rw [arranged'.stable c mem, arranged.stable c mem]
  · rintro rfl
    rw [← h.arranged_iff, List.reverse_reverse]
    exact arranged

/-- An item that none is less than, and no earlier one equals, is the first. -/
theorem StablySorted.head (sorted : s.StablySorted xs ys) (h : s.Sortable xs) (mem : r ∈ xs)
    (least : ∀ x ∈ xs, s.comparison x r ≠ .lt) (earliest : (s.equals r xs).head? = some r) :
    ys.head? = some r := by
  cases ys with
  | nil => exact absurd (sorted.perm.symm.subset mem) List.not_mem_nil
  | cons y ys =>
    have inside : y ∈ xs := sorted.perm.subset List.mem_cons_self
    have before : s.order "<" r y ≠ .ok (some .lt) := by
      apply sorted.ascending.rel_head_of_rel_head_head (sorted.perm.symm.subset mem)
      exact (h.order_iff inside inside).not.mpr (h.self_ne inside Ordering.noConfusion)
    have equal : s.comparison y r = .eq :=
      h.eq_of_not_lt inside mem (least y inside) ((h.order_iff mem inside).not.mp before)
    have classes := sorted.stable r mem
    rw [h.equals_eq (fun x => (sorted.perm.subset ·)) mem, h.equals_eq (fun _ => id) mem, equals_cons,
      if_pos equal] at classes
    rwa [← classes] at earliest

/-- An item that none is greater than equals the last. -/
theorem StablySorted.last (sorted : s.StablySorted xs ys) (h : s.Sortable xs) (mem : r ∈ xs)
    (greatest : ∀ x ∈ xs, s.comparison x r ≠ .gt) :
    ∃ last, ys.getLast? = some last ∧ s.order "<" r last = .ok (some .eq) := by
  have listed : r ∈ ys := sorted.perm.symm.subset mem
  have filled : ys ≠ [] := List.ne_nil_of_mem listed
  have inside : ys.getLast filled ∈ xs := sorted.perm.subset (List.getLast_mem filled)
  have after : s.order "<" (ys.getLast filled) r ≠ .ok (some .lt) := by
    apply sorted.ascending.rel_getLast_of_rel_getLast_getLast listed
    exact (h.order_iff inside inside).not.mpr (h.self_ne inside Ordering.noConfusion)
  refine ⟨ys.getLast filled, List.getLast?_eq_some_getLast filled, (h.order_iff mem inside).mpr ?_⟩
  apply h.eq_of_not_lt mem inside
  · intro less
    apply greatest _ inside
    rw [h.swap mem inside, less]
    rfl
  · exact (h.order_iff inside mem).not.mp after

end Store

/-- The least or greatest item of a list, if it has items. -/
theorem Builtin.extreme_ok {s : Store} {ref : Nat} (h : s.Sortable (s.list ref).toList)
    (filled : (s.list ref).toList ≠ []) (b : Builtin) (symbol : String) (wanted : Ordering)
    (strict : wanted ≠ .eq) :
    ∃ r, extreme s b symbol wanted [.list ref] = .ok r ∧ r ∈ (s.list ref).toList ∧
      (∀ x ∈ (s.list ref).toList, s.comparison x r ≠ wanted) ∧
      (s.equals r (s.list ref).toList).head? = some r := by
  obtain ⟨first, rest, items⟩ := List.exists_cons_of_ne_nil filled
  rw [items] at h ⊢
  obtain ⟨r, done, found⟩ := best_ok h strict symbol List.mem_cons_self fun _ => .tail first
  refine ⟨r, ?_, found⟩
  have gone : (·.toList) <$> s.items (.list ref) = Except.ok (first :: rest) := congrArg Except.ok items
  rw [extreme, gone]
  exact done

/-- Where any two items of a list can be compared, `sorted` and `sort` give its one stable arrangement,
`sorted` in a new list and `sort` in the list itself. If there are items, `min` is the first of the
arrangement, and `max` equals the last. -/
theorem sorting_is_stable (w : World) (ref : Nat) (xs : List Value) (holds : (w.store.list ref).toList = xs)
    (exact : ∀ x ∈ xs, w.store.Exact x)
    (compared : ∀ a ∈ xs, ∀ b ∈ xs, ∃ r, w.store.order "<" a b = .ok r) :
    ∃ sorted : List Value, (∀ ys, w.store.StablySorted xs ys ↔ ys = sorted) ∧
      Builtin.sorted.call [.list ref] w =
        .ok (.list w.store.lists.size, { w with store := (w.store.newList sorted.toArray).2 }) ∧
      Method.call (.list ref) (.list .sort) [] w =
        .ok (.none, { w with store := w.store.setList ref sorted.toArray }) ∧
      (xs ≠ [] → ∃ least greatest last, Builtin.min.call [.list ref] w = .ok (least, w) ∧
        sorted.head? = some least ∧ Builtin.max.call [.list ref] w = .ok (greatest, w) ∧
        sorted.getLast? = some last ∧ w.store.order "<" greatest last = .ok (some .eq)) := by
  subst holds
  have h : w.store.Sortable (w.store.list ref).toList := ⟨exact, compared⟩
  obtain ⟨sorted, done, only⟩ := Store.sort_stable h
  refine ⟨sorted, only, ?_, ?_, fun filled => ?_⟩
  · have asked : (do w.store.sort (← w.store.items (.list ref))) = .ok sorted.toArray := done
    change ((Eval.lift (do w.store.sort (← w.store.items (.list ref))) w).bind _) = _
    rw [asked]
    rfl
  · have asked : Method.runList w.store (w.store.list ref) .sort [] = .ok (.none, some sorted.toArray) := by
      rw [Method.runList, done]
      rfl
    change ((Eval.lift (Method.runList w.store (w.store.list ref) .sort []) w).bind _) = _
    rw [asked]
    rfl
  · have arranged := (only sorted).mpr rfl
    obtain ⟨least, found, mem, unbeaten, earliest⟩ :=
      Builtin.extreme_ok h filled .min "<" .lt Ordering.noConfusion
    obtain ⟨greatest, found', mem', unbeaten', -⟩ :=
      Builtin.extreme_ok h filled .max ">" .gt Ordering.noConfusion
    obtain ⟨last, ends, equal⟩ := arranged.last h mem' unbeaten'
    refine ⟨least, greatest, last, ?_, arranged.head h mem unbeaten earliest, ?_, ends, equal⟩
    · change Eval.lift (Builtin.extreme w.store .min "<" .lt [.list ref]) w = _
      rw [found]
      rfl
    · change Eval.lift (Builtin.extreme w.store .max ">" .gt [.list ref]) w = _
      rw [found']
      rfl

/-- A world with the list `[(1, 'b'), (True, 'b'), (1, 'a'), (True, 'a')]`. -/
def tiedPairs : World where
  store := {
    lists := #[#[.tuple 0, .tuple 1, .tuple 2, .tuple 3]]
    tuples := #[#[.int 1, .text "b"], #[.bool true, .text "b"], #[.int 1, .text "a"],
      #[.bool true, .text "a"]] }

theorem sorting_is_stable_ties :
    Builtin.sorted.call [.list 0] tiedPairs =
        .ok (.list 1, { tiedPairs with
          store := (tiedPairs.store.newList #[.tuple 2, .tuple 3, .tuple 0, .tuple 1]).2 }) ∧
      Builtin.min.call [.list 0] tiedPairs = .ok (.tuple 2, tiedPairs) := by
  let pairs : List Value := [.tuple 0, .tuple 1, .tuple 2, .tuple 3]
  have checks : ∀ x ∈ pairs, tiedPairs.store.lacksFloat 2 x = true ∧
      tiedPairs.store.everywhere tiedPairs.store.isKeyed 2 x = true := by
    decide +kernel
  have compared : ∀ a ∈ pairs, ∀ b ∈ pairs,
      tiedPairs.store.order "<" a b = .ok (tiedPairs.store.comparison a b) := by
    decide +kernel
  have arranged : tiedPairs.store.StablySorted pairs [.tuple 2, .tuple 3, .tuple 0, .tuple 1] :=
    ⟨by decide +kernel, by decide +kernel, by decide +kernel⟩
  obtain ⟨sorted, only, copied, -, ends⟩ := sorting_is_stable tiedPairs 0 pairs rfl
    (fun x mem => Store.exact_of_checks 2 (checks x mem).1 (checks x mem).2)
    (fun a left b right => ⟨_, compared a left b right⟩)
  obtain rfl := (only _).mp arranged
  obtain ⟨least, _, _, found, first, -⟩ := ends (List.cons_ne_nil _ _)
  cases first
  exact ⟨copied, found⟩

end Scratchpad
