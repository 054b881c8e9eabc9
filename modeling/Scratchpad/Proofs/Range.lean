import Scratchpad.Proofs.Operator.Exact
import Scratchpad.Subscript

/-!
# The numbers of a range

The numbers of a range are those that stand before its stop, `step` apart (`Range.Before`). Counting them,
going through them, asking whether a value is among them and taking one by its index are four computations of
their own; they agree on which numbers there are, up to the ends of 64 bits (`range_views_agree`). The length
that a program sees, and the truth that goes by it, agree with them too as long as there are fewer than
2 ^ 63 numbers (`range_length_agrees`).
-/

namespace Scratchpad

namespace Range

variable {r : Range} {k : Nat} {n : Int64}

/-- The number at a place, also past the stop. -/
def number (r : Range) (k : Nat) : Int := r.start.toInt + k * r.step.toInt

/-- Is the number before the stop, in the direction of the step? -/
def Before (r : Range) (n : Int) : Prop := if 0 < r.step.toInt then n < r.stop.toInt else r.stop.toInt < n

/-! ### Counting -/

/-- How many multiples of a distance, from 0 on, are less than a gap. -/
def multiplesBelow (gap distance : Int) : Nat := if 0 < gap then ((gap - 1) / distance + 1).toNat else 0

theorem lt_multiplesBelow_iff {gap distance : Int} (positive : 0 < distance) :
    k < multiplesBelow gap distance ↔ k * distance < gap := by
  unfold multiplesBelow
  split
  · have fitting : (k : Int) ≤ (gap - 1) / distance ↔ k * distance ≤ gap - 1 :=
      Int.le_ediv_iff_mul_le positive
    omega
  · have nonneg : 0 ≤ k * distance := Int.mul_nonneg (Int.natCast_nonneg k) positive.le
    omega

theorem count_of_up (up : 0 < r.step.toInt) :
    r.count = multiplesBelow (r.stop.toInt - r.start.toInt) r.step.toInt := by
  simp only [count, multiplesBelow]
  split_ifs <;> omega

theorem count_of_down (down : r.step.toInt < 0) :
    r.count = multiplesBelow (r.start.toInt - r.stop.toInt) (-r.step.toInt) := by
  simp only [count, multiplesBelow]
  split_ifs <;> omega

theorem step_cases (moves : r.step ≠ 0) : 0 < r.step.toInt ∨ r.step.toInt < 0 := by
  have nonzero : r.step.toInt ≠ 0 := toInt_eq_zero_iff.not.mpr moves
  omega

theorem before_number_iff (moves : r.step ≠ 0) : r.Before (r.number k) ↔ k < r.count := by
  rcases step_cases moves with up | down
  · rw [count_of_up up, lt_multiplesBelow_iff up, Before, if_pos up, number]
    omega
  · rw [count_of_down down, lt_multiplesBelow_iff (Int.neg_pos_of_neg down), Before,
      if_neg (Int.not_lt.mpr down.le), number, Int.mul_neg]
    omega

/-- A number before the stop lies between the start and the stop, at least as far from the start as its place
says. -/
theorem Before.bounds (before : r.Before (r.number k)) (moves : r.step ≠ 0) :
    r.start.toInt + k ≤ r.number k ∧ r.number k < r.stop.toInt ∨
      r.stop.toInt < r.number k ∧ r.number k ≤ r.start.toInt - k := by
  rcases step_cases moves with up | down
  · rw [Before, if_pos up] at before
    have far : k * 1 ≤ k * r.step.toInt := Int.mul_le_mul_of_nonneg_left up (Int.natCast_nonneg k)
    exact .inl ⟨by unfold number; omega, before⟩
  · rw [Before, if_neg (Int.not_lt.mpr down.le)] at before
    have far : k * 1 ≤ k * -r.step.toInt :=
      Int.mul_le_mul_of_nonneg_left (Int.neg_pos_of_neg down) (Int.natCast_nonneg k)
    rw [Int.mul_neg] at far
    exact .inr ⟨before, by unfold number; omega⟩

theorem Before.fits (before : r.Before (r.number k)) (moves : r.step ≠ 0) : Fits64 (r.number k) := by
  have start := fits64_toInt r.start
  have stop := fits64_toInt r.stop
  have between := before.bounds moves
  unfold Fits64 at start stop ⊢
  omega

theorem count_lt (moves : r.step ≠ 0) : r.count < 2 ^ 64 := by
  by_contra many
  have before : r.Before (r.number (2 ^ 64 - 1)) := (before_number_iff moves).mpr (by omega)
  have start := fits64_toInt r.start
  have stop := fits64_toInt r.stop
  have between := before.bounds moves
  unfold Fits64 at start stop
  omega

theorem encard_before (moves : r.step ≠ 0) : {k : Nat | r.Before (r.number k)}.encard = r.count := by
  have initial : {k : Nat | r.Before (r.number k)} = (Finset.range r.count : Set Nat) := by
    ext k
    simp [before_number_iff moves]
  rw [initial, Set.encard_coe_eq_coe_finsetCard, Finset.card_range]

/-- The numbers of the range, in order. -/
def numbers (r : Range) : List Int64 := (List.range r.count).map fun k : Nat => r.item k

theorem toInt_item (moves : r.step ≠ 0) (inside : k < r.count) : (r.item k).toInt = r.number k := by
  have fits := ((before_number_iff moves).mpr inside).fits moves
  rw [item, Int.mul_comm]
  exact Int64.toInt_ofInt_of_le fits.1 fits.2

theorem numbers_toInt (moves : r.step ≠ 0) :
    r.numbers.map (·.toInt) = (List.range r.count).map r.number := by
  rw [numbers, List.map_map]
  apply List.map_congr_left
  intro k inside
  exact toInt_item moves (List.mem_range.mp inside)

theorem numbers_getElem? : r.numbers[k]? = some n ↔ k < r.count ∧ r.item k = n := by
  rw [numbers, List.getElem?_map, Option.map_eq_some_iff]
  simp [List.getElem?_eq_some_iff]

/-! ### Going through -/

theorem isDone_iff : r.isDone = true ↔ ¬r.Before (r.number 0) := by
  have first : r.number 0 = r.start.toInt := by simp [number]
  rw [first]
  unfold isDone Before
  split
  · rw [decide_eq_true_iff, Int64.le_iff_toInt_le, Int.not_lt]
  · rw [decide_eq_true_iff, Int64.le_iff_toInt_le, Int.not_lt]

/-- A range goes on from its next number, or ends if 64 bits do not hold that. -/
theorem advance_cases (r : Range) :
    (∃ m : Int64, m.toInt = r.number 1 ∧ r.advance = { r with start := m }) ∨
      ¬Fits64 (r.number 1) ∧ r.advance = { r with start := r.stop } := by
  have next : r.start.toInt + r.step.toInt = r.number 1 := by simp [number]
  rw [advance, next]
  by_cases fits : Fits64 (r.number 1)
  · obtain ⟨m, same, held⟩ := int64?_of_fits fits
    exact .inl ⟨m, same, by rw [held, Option.getD_some]⟩
  · exact .inr ⟨fits, by rw [int64?_of_not_fits fits, Option.getD_none]⟩

theorem number_of_start {m : Int64} (next : m.toInt = r.number 1) (k : Nat) :
    number { r with start := m } k = r.number (k + 1) := by
  simp only [number] at next ⊢
  rw [next]
  push_cast
  ring

theorem number_advance (moves : r.step ≠ 0) (inside : k + 1 < r.count) :
    r.advance.number k = r.number (k + 1) := by
  obtain ⟨m, next, same⟩ | ⟨beyond, -⟩ := r.advance_cases
  · rw [same, number_of_start next]
  · -- the numbers before the stop have no gap, so the next one is among them
    have between : r.Before (r.number 1) := (before_number_iff moves).mpr (by omega)
    exact absurd (between.fits moves) beyond

theorem before_advance_iff (moves : r.step ≠ 0) :
    r.advance.Before (r.advance.number k) ↔ r.Before (r.number (k + 1)) := by
  constructor
  · intro before
    obtain ⟨m, next, same⟩ | ⟨-, same⟩ := r.advance_cases
    · rwa [same, number_of_start next] at before
    · rw [same] at before
      have between := before.bounds moves
      dsimp only at between
      omega
  · intro before
    rw [number_advance moves ((before_number_iff moves).mp before)]
    exact before

theorem count_advance (moves : r.step ≠ 0) : r.advance.count = r.count - 1 := by
  have shifted (k : Nat) : k < r.advance.count ↔ k + 1 < r.count := by
    rw [← before_number_iff moves, ← before_advance_iff moves]
    exact (before_number_iff (r := r.advance) moves).symm
  -- the places at the ends of the two counts tell how far they are apart
  have last := shifted r.advance.count
  have before := shifted (r.advance.count - 1)
  have past := shifted (r.count - 1)
  omega

theorem numbers_eq_cons (moves : r.step ≠ 0) (filled : 0 < r.count) :
    r.numbers = r.start :: r.advance.numbers := by
  have size : r.count = r.advance.count + 1 := by
    have := count_advance moves
    omega
  have first : r.item (0 : Nat) = r.start := by simp [item]
  rw [numbers, size, List.range_succ_eq_map, List.map_cons, List.map_map, first]
  refine congrArg (r.start :: ·) (List.map_congr_left fun k inside => ?_)
  have place : k < r.advance.count := List.mem_range.mp inside
  have here : k + 1 < r.count := by omega
  rw [Function.comp_apply, ← Int64.toInt_inj, toInt_item moves here, ← number_advance moves here]
  exact (toInt_item (r := r.advance) moves place).symm

end Range

namespace Store

/-- Going on from here gives these values and then ends. -/
inductive Yields (s : Store) : Iter → List Value → Prop where
  | done : s.next? it = none → s.Yields it []
  | item : s.next? it = some (v, rest) → s.Yields rest vs → s.Yields it (v :: vs)

/-- Going through the value from its start gives these values and then ends. -/
def Iterates (s : Store) (v : Value) (items : List Value) : Prop :=
  ∃ it, s.iterate v = .ok it ∧ s.Yields it items

variable {s : Store}

theorem Yields.unique {it : Iter} {vs vs' : List Value} (h : s.Yields it vs) (h' : s.Yields it vs') :
    vs = vs' := by
  induction h generalizing vs' with
  | done ended =>
    cases h' with
    | done => rfl
    | item next => cases ended.symm.trans next
  | item next _ ih =>
    cases h' with
    | done ended => cases ended.symm.trans next
    | item next' more =>
      cases next.symm.trans next'
      rw [ih more]

theorem Iterates.unique {v : Value} {vs vs' : List Value} (h : s.Iterates v vs) (h' : s.Iterates v vs') :
    vs = vs' := by
  obtain ⟨it, started, yields⟩ := h
  obtain ⟨it', started', yields'⟩ := h'
  cases started.symm.trans started'
  exact yields.unique yields'

theorem yields_range {r : Range} (moves : r.step ≠ 0) : s.Yields (.range r) (r.numbers.map .int) := by
  -- each step takes one number off the count, whatever becomes of the start
  generalize size : r.count = count
  induction count generalizing r with
  | zero =>
    have ended : r.isDone = true := by
      rw [Range.isDone_iff, Range.before_number_iff moves, size]
      exact Nat.not_lt_zero 0
    rw [Range.numbers, size]
    exact .done (if_pos ended)
  | succ count ih =>
    have filled : 0 < r.count := by omega
    have going : ¬r.isDone = true := by
      rw [Range.isDone_iff, not_not, Range.before_number_iff moves]
      exact filled
    rw [Range.numbers_eq_cons moves filled, List.map_cons]
    refine .item (if_neg going) (ih moves ?_)
    rw [Range.count_advance moves, size, Nat.add_sub_cancel]

theorem items_range {r : Range} : s.items (.range r) = .ok (r.numbers.map Value.int).toArray := by
  refine congrArg Except.ok (Array.ext ?_ fun k _ _ => ?_)
  · simp [Range.numbers]
  · simp [Range.numbers]

/-! ### Membership -/

theorem equal_int {x : Value} (exact : ∀ d, x ≠ .float d) (n : Int64) :
    s.equal x (.int n) = .ok (x.int? = some n) := by
  rw [equal, equalAt.eq_def]
  cases x with
  | float d => exact absurd rfl (exact d)
  | int | bool => exact congrArg Except.ok (decide_eq_decide.mpr Option.some_inj.symm)
  | _ => rfl

end Store

theorem Operator.contains_range {s : Store} {x : Value} (exact : ∀ d, x ≠ .float d) (r : Range) :
    contains s (.range r) x = .ok (x.int?.any r.contains) := by
  cases x with
  | float d => exact absurd rfl (exact d)
  | _ => rfl

namespace Range

variable {r : Range} {n : Int64}

theorem exists_mul_eq_iff {gap distance : Int} (positive : 0 < distance) :
    (∃ k : Nat, k * distance = gap) ↔ 0 ≤ gap ∧ distance ∣ gap := by
  constructor
  · rintro ⟨k, rfl⟩
    exact ⟨Int.mul_nonneg (Int.natCast_nonneg k) positive.le, Int.dvd_mul_left _ _⟩
  · rintro ⟨nonneg, c, rfl⟩
    lift c to Nat using nonneg_of_mul_nonneg_right nonneg positive
    exact ⟨c, Int.mul_comm _ _⟩

/-- What lies between the ends, a whole number of steps from the start, is a number of the range. -/
theorem contains_iff (moves : r.step ≠ 0) :
    r.contains n = true ↔ r.Before n.toInt ∧ ∃ k, r.number k = n.toInt := by
  rcases step_cases moves with up | down
  · have reached : (∃ k, r.number k = n.toInt) ↔
        r.start.toInt ≤ n.toInt ∧ r.step.toInt ∣ n.toInt - r.start.toInt := by
      rw [← Int.sub_nonneg, ← exists_mul_eq_iff up]
      exact exists_congr fun k => by unfold number; omega
    have inside : r.contains n = true ↔ (r.start.toInt ≤ n.toInt ∧ n.toInt < r.stop.toInt) ∧
        r.step.toInt ∣ n.toInt - r.start.toInt := by
      simp only [contains, if_pos up, Bool.and_eq_true, decide_eq_true_iff, beq_iff_eq,
        Int64.le_iff_toInt_le, Int64.lt_iff_toInt_lt, Int.dvd_iff_emod_eq_zero]
    rw [inside, reached, Before, if_pos up]
    tauto
  · have reached : (∃ k, r.number k = n.toInt) ↔
        n.toInt ≤ r.start.toInt ∧ r.step.toInt ∣ n.toInt - r.start.toInt := by
      rw [← Int.sub_nonneg, ← Int.dvd_neg, ← Int.neg_dvd, Int.neg_sub,
        ← exists_mul_eq_iff (Int.neg_pos_of_neg down)]
      exact exists_congr fun k => by rw [number, Int.mul_neg]; omega
    have notUp := Int.not_lt.mpr down.le
    have inside : r.contains n = true ↔ (r.stop.toInt < n.toInt ∧ n.toInt ≤ r.start.toInt) ∧
        r.step.toInt ∣ n.toInt - r.start.toInt := by
      simp only [contains, if_neg notUp, Bool.and_eq_true, decide_eq_true_iff, beq_iff_eq,
        Int64.le_iff_toInt_le, Int64.lt_iff_toInt_lt, Int.dvd_iff_emod_eq_zero]
    rw [inside, reached, Before, if_neg notUp]
    tauto

theorem mem_numbers (moves : r.step ≠ 0) : n ∈ r.numbers ↔ r.contains n = true := by
  have listed : n ∈ r.numbers ↔ ∃ k, r.Before (r.number k) ∧ r.number k = n.toInt := by
    rw [numbers, List.mem_map]
    refine exists_congr fun k => ?_
    rw [List.mem_range, before_number_iff moves]
    exact and_congr_right fun inside => by rw [← toInt_item moves inside, Int64.toInt_inj]
  rw [listed, contains_iff moves]
  constructor
  · rintro ⟨k, before, here⟩
    exact ⟨here ▸ before, k, here⟩
  · rintro ⟨before, k, here⟩
    exact ⟨k, here ▸ before, here⟩

/-! ### Indexing and length -/

theorem toInt_length (small : r.count < 2 ^ 63) : r.length.toInt = r.count := Int64.toInt_ofNat_of_lt small

/-- From 2 ^ 63 numbers on, the length is negative. -/
theorem toInt_length_of_large (moves : r.step ≠ 0) (large : 2 ^ 63 ≤ r.count) :
    r.length.toInt = r.count - 2 ^ 64 := by
  have bound := count_lt moves
  have whole : (r.count : Int) % Int64.size = r.count :=
    Int.emod_eq_of_lt (Int.natCast_nonneg r.count) (Int.ofNat_lt.mpr bound)
  rw [length, Int64.toInt_ofNat', Int.bmod_def, whole, if_neg (by unfold Int64.size; omega)]
  rfl

end Range

theorem Store.truthy_range {s : Store} {r : Range} : s.truthy (.range r) = true ↔ 0 < r.length.toInt := by
  rw [truthy, decide_eq_true_iff, Int64.lt_iff_toInt_lt]
  rfl

namespace Subscript

variable {sequence : String} {key : Value} {i : Int64} {k size : Nat}

theorem place_of_inside (number : key.int? = some i) (inside : k < size)
    (here : i.toInt = k ∨ i.toInt = k - size) : place sequence key size = .ok k := by
  have found : place? i.toInt size = some k := by
    unfold place?
    rw [if_pos (by omega)]
    congr 1
    omega
  simp only [place, index, number, bind, Except.bind, found]
  rfl

theorem place_of_outside (number : key.int? = some i) (outside : i.toInt < -size ∨ size ≤ i.toInt) :
    place sequence key size = .error (.indexOutOfRange sequence) := by
  have missing : place? i.toInt size = none := by
    unfold place?
    exact if_neg (by omega)
  simp only [place, index, number, bind, Except.bind, missing]

theorem load_range {s : Store} {r : Range} (small : r.count < 2 ^ 63) :
    load s (.range r) key = (place "range object" key r.count).map fun k => .int (r.item k) := by
  rw [load, Range.toInt_length small]
  rfl

end Subscript

namespace Builtin

theorem step_of_rangeOf {args : List Value} {r : Range} (built : rangeOf args = .ok (.range r)) :
    r.step ≠ 0 := by
  unfold rangeOf at built
  cases read : args.mapM indexArg with
  | error fault => simp [read, bind, Except.bind] at built
  | ok bounds =>
    simp only [read, bind, Except.bind] at built
    split at built
    · cases built
      exact (by decide : (1 : Int64) ≠ 0)
    · cases built
      exact (by decide : (1 : Int64) ≠ 0)
    · split at built
      · cases built
      · cases built
        assumption
    · cases built

theorem step_of_range {args : List Value} {r : Range} {w w' : World}
    (built : Builtin.range.call args w = .ok (.range r, w')) : r.step ≠ 0 := by
  unfold call at built
  split at built
  · have lifted : Eval.lift (rangeOf args) w = .ok (.range r, w') := built
    cases made : rangeOf args with
    | error fault => simp [made, Eval.lift] at lifted
    | ok v =>
      rw [made] at lifted
      cases lifted
      exact step_of_rangeOf made
  · cases built

end Builtin

/-! ### Agreement -/

/-- A range that moves has as many numbers as there are places before its stop. Going through it meets them
in order, each in 64 bits, and then ends. A value other than a float is in the range if it equals one of them.
If there are fewer than 2 ^ 63, an index from either end leads to its number, as long as 64 bits hold the way
there from the start, and any other index is out of range. -/
theorem range_views_agree (r : Range) (moves : r.step ≠ 0) :
    ∃ (size : Nat) (items : List Int64), {k : Nat | r.Before (r.number k)}.encard = size ∧
      items.map (·.toInt) = (List.range size).map r.number ∧
      ∀ s : Store, s.Iterates (.range r) (items.map .int) ∧
        s.items (.range r) = .ok (items.map Value.int).toArray ∧
        (∀ x : Value, (∀ d, x ≠ .float d) → ∃ found, Operator.contains s (.range r) x = .ok found ∧
          (found = true ↔ ∃ n ∈ items, s.equal x (.int n) = .ok true)) ∧
        (size < 2 ^ 63 → ∀ (key : Value) (i : Int64), key.int? = some i →
          (∀ (k : Nat) (n : Int64), items[k]? = some n → Fits64 (r.step.toInt * k) →
            i.toInt = k ∨ i.toInt = k - size → Subscript.load s (.range r) key = .ok (.int n)) ∧
          (i.toInt < -size ∨ size ≤ i.toInt →
            ∃ fault, Subscript.load s (.range r) key = .error fault ∧ fault.kind = .indexError)) := by
  refine ⟨r.count, r.numbers, Range.encard_before moves, Range.numbers_toInt moves, fun s =>
    ⟨⟨_, rfl, Store.yields_range moves⟩, Store.items_range, fun x exact => ?_, fun small key i index => ?_⟩⟩
  · refine ⟨_, Operator.contains_range exact r, ?_⟩
    simp only [Store.equal_int exact, Except.ok.injEq, decide_eq_true_iff, Range.mem_numbers moves,
      Option.any_eq_true]
    exact exists_congr fun n => And.comm
  · rw [Subscript.load_range small]
    constructor
    · intro k n listed _ here
      obtain ⟨inside, rfl⟩ := Range.numbers_getElem?.mp listed
      rw [Subscript.place_of_inside index inside here]
      rfl
    · intro outside
      rw [Subscript.place_of_outside index outside]
      exact ⟨_, rfl, rfl⟩

/-- The last step leads past the numbers of 64 bits. -/
theorem range_views_agree_highest :
    Store.Iterates {} (.range ⟨Int64.maxValue - 7, Int64.maxValue, 5⟩)
        [.int (Int64.maxValue - 7), .int (Int64.maxValue - 2)] ∧
      Subscript.load {} (.range ⟨Int64.maxValue - 7, Int64.maxValue, 5⟩) (.int (-1)) =
        .ok (.int (Int64.maxValue - 2)) := by
  obtain ⟨size, items, -, numbers, views⟩ :=
    range_views_agree ⟨Int64.maxValue - 7, Int64.maxValue, 5⟩ (by decide)
  obtain ⟨iterates, -, -, indexing⟩ := views {}
  have met : Store.Iterates {} (.range ⟨Int64.maxValue - 7, Int64.maxValue, 5⟩)
      ([Int64.maxValue - 7, Int64.maxValue - 2].map .int) :=
    ⟨_, rfl, .item rfl (.item rfl (.done rfl))⟩
  obtain rfl := List.map_injective_iff.mpr (fun _ _ => Value.int.inj) (iterates.unique met)
  obtain rfl : size = 2 := by simpa using (congrArg List.length numbers).symm
  exact ⟨iterates, (indexing (by decide) (.int (-1)) (-1) rfl).1 1 _ rfl (by decide) (by decide)⟩

/-- The length and the truth of a range that `range` made. They go by the number of its items as long as that
is less than 2 ^ 63. From there on the length is too small by 2 ^ 64, and the range counts as empty. -/
theorem range_length_agrees (args : List Value) (r : Range) (w w' : World)
    (built : Builtin.range.call args w = .ok (.range r, w')) :
    ∃ (items : List Value) (length : Int64), w'.store.Iterates (.range r) items ∧
      Builtin.len.call [.range r] w' = .ok (.int length, w') ∧
      (items.length < 2 ^ 63 → length.toInt = items.length ∧
        (w'.store.truthy (.range r) = true ↔ items ≠ [])) ∧
      (2 ^ 63 ≤ items.length → length.toInt = items.length - 2 ^ 64 ∧
        w'.store.truthy (.range r) = false) := by
  have moves := Builtin.step_of_range built
  have size : (r.numbers.map Value.int).length = r.count := by simp [Range.numbers]
  refine ⟨r.numbers.map .int, r.length, ⟨_, rfl, Store.yields_range moves⟩, rfl, ?_, ?_⟩
  · intro small
    rw [size] at small ⊢
    refine ⟨Range.toInt_length small, ?_⟩
    rw [Store.truthy_range, Range.toInt_length small, Ne, ← List.length_eq_zero_iff, size]
    omega
  · intro large
    rw [size] at large ⊢
    have length := Range.toInt_length_of_large moves large
    refine ⟨length, ?_⟩
    have bound := Range.count_lt moves
    rw [← Bool.not_eq_true, Store.truthy_range, length]
    omega

theorem range_length_agrees_down :
    Builtin.range.call [.int 10, .bool false, .int (-3)] {} = .ok (.range ⟨10, 0, -3⟩, {}) ∧
      Builtin.len.call [.range ⟨10, 0, -3⟩] {} = .ok (.int 4, {}) := by
  have built : Builtin.range.call [.int 10, .bool false, .int (-3)] {} = .ok (.range ⟨10, 0, -3⟩, {}) := rfl
  obtain ⟨items, length, iterates, called, small, -⟩ := range_length_agrees _ _ _ _ built
  have met : Store.Iterates {} (.range ⟨10, 0, -3⟩) [.int 10, .int 7, .int 4, .int 1] :=
    ⟨_, rfl, .item rfl (.item rfl (.item rfl (.item rfl (.done rfl))))⟩
  obtain rfl := iterates.unique met
  have four : length.toInt = (4 : Int64).toInt := (small (by decide)).1
  obtain rfl := Int64.toInt_inj.mp four
  exact ⟨built, called⟩

/-- A range of more than 2 ^ 63 numbers has a first one, and yet counts as empty and has a length of -1. -/
theorem wide_range_counts_as_empty :
    ∃ r, Builtin.range.call [.int Int64.minValue, .int Int64.maxValue] {} = .ok (.range r, {}) ∧
      (Store.next? {} (.range r)).isSome = true ∧ Store.truthy {} (.range r) = false ∧
      Builtin.len.call [.range r] {} = .ok (.int (-1), {}) := by
  exact ⟨⟨Int64.minValue, Int64.maxValue, 1⟩, rfl, by decide, by decide, rfl⟩

end Scratchpad
