import Mathlib
import Scratchpad.Builtin

/-!
# Integers are exact

An operator on two integers gives the integer that it names, or raises an overflow where 64 bits do not
hold it (`Eval.IsExact`). The quotient rounded down and what it leaves over are made from the quotient
rounded toward zero, in steps of 64 bits; once that quotient is there, no later step fails
(`integers_are_exact`). A power is exact too, unless its exponent has more than 32 bits
(`powers_are_exact`).
-/

namespace Scratchpad

/-! ### Numbers of 64 bits -/

/-- Do 64 bits hold the number? -/
def Fits64 (n : Int) : Prop := -2 ^ 63 ≤ n ∧ n < 2 ^ 63

instance (n : Int) : Decidable (Fits64 n) := inferInstanceAs (Decidable (_ ∧ _))

variable {n : Int} {a b : Int64} {left right v : Value}

theorem fits64_toInt (a : Int64) : Fits64 a.toInt := ⟨a.le_toInt, a.toInt_lt⟩

theorem toInt_eq_zero_iff : a.toInt = 0 ↔ a = 0 := Int64.toInt_inj (y := 0)

theorem int64?_of_fits (fits : Fits64 n) : ∃ m : Int64, m.toInt = n ∧ Decimal.int64? n = some m := by
  refine ⟨.ofInt n, Int64.toInt_ofInt_of_le fits.1 fits.2, ?_⟩
  rw [Decimal.int64?, if_pos]
  exact ⟨Int64.toInt_minValue ▸ fits.1, Int.le_of_lt_add_one (Int64.toInt_maxValue_add_one ▸ fits.2)⟩

theorem int64?_of_not_fits (beyond : ¬Fits64 n) : Decimal.int64? n = none := by
  rw [Decimal.int64?, if_neg]
  intro between
  apply beyond
  exact ⟨Int64.toInt_minValue ▸ between.1, Int64.toInt_maxValue_add_one ▸ Int.lt_add_one_of_le between.2⟩

/-! ### What a computation comes to -/

namespace Eval

/-- In any world, the number, and the world as it was. -/
def GivesInt (x : Eval Value) (n : Int) : Prop := ∀ w, ∃ m : Int64, m.toInt = n ∧ x w = .ok (.int m, w)

/-- In any world, a fault of this kind, and the world as it was. -/
def Raises (x : Eval Value) (kind : FaultKind) : Prop :=
  ∀ w, ∃ fault : Fault, fault.kind = kind ∧ x w = .error (fault, w)

/-- The number if 64 bits hold it, else an overflow. -/
def IsExact (x : Eval Value) (n : Int) : Prop :=
  (Fits64 n → x.GivesInt n) ∧ (¬Fits64 n → x.Raises .overflowError)

theorem givesInt_lift {m : Int64} (h : m.toInt = n) : (lift (.ok (.int m))).GivesInt n :=
  fun _ => ⟨m, h, rfl⟩

theorem raises_lift (fault : Fault) : (lift (.error fault)).Raises fault.kind := fun _ => ⟨fault, rfl, rfl⟩

theorem Raises.unique {x : Eval Value} {kind kind' : FaultKind} (h : x.Raises kind)
    (h' : x.Raises kind') : kind = kind' := by
  obtain ⟨fault, rfl, raised⟩ := h {}
  obtain ⟨fault', rfl, raised'⟩ := h' {}
  cases raised.symm.trans raised'
  rfl

theorem GivesInt.not_raises {x : Eval Value} {kind : FaultKind} (h : x.GivesInt n) : ¬x.Raises kind := by
  intro h'
  obtain ⟨m, -, given⟩ := h {}
  obtain ⟨fault, -, raised⟩ := h' {}
  cases given.symm.trans raised

end Eval

namespace Operator

theorem isExact_exact (n : Int) : (Eval.lift (exact n)).IsExact n := by
  refine ⟨fun fits => ?_, fun beyond => ?_⟩
  · obtain ⟨m, same, held⟩ := int64?_of_fits fits
    rw [exact, held]
    exact Eval.givesInt_lift same
  · rw [exact, int64?_of_not_fits beyond]
    exact Eval.raises_lift .overflow

theorem binary_ints (op : BinaryOp) (first : left.int? = some a) (second : right.int? = some b) :
    binary op left right = Eval.lift (intBinary op a b) := by
  rw [binary, first, second]
  rfl

theorem neg_int (number : v.int? = some a) :
    Eval.ask (unary · .neg v) = Eval.lift (exact (-a.toInt)) := by
  cases v with
  | int | bool =>
    cases number
    rfl
  | _ => cases number

theorem abs_int (number : v.int? = some a) : Builtin.abs.call [v] = Eval.lift (exact |a.toInt|) := by
  rw [Int.abs_eq_natAbs]
  cases v with
  | int | bool =>
    cases number
    rfl
  | _ => cases number

/-! ### Division -/

/-- The integer below a quotient is the quotient rounded toward zero, or one less if something is left over
and the signs differ. -/
theorem fdiv_eq_tdiv_ite {m n : Int} (nonzero : n ≠ 0) :
    m.fdiv n = if m.tmod n ≠ 0 ∧ ¬(m < 0 ↔ n < 0) then m.tdiv n - 1 else m.tdiv n := by
  simp only [Int.fdiv_eq_tdiv, Int.dvd_iff_tmod_eq_zero]
  rcases Int.lt_or_gt_of_ne nonzero with below | above
  · rw [Int.sign_eq_neg_one_of_neg below]
    split_ifs <;> omega
  · rw [Int.sign_eq_one_of_pos above]
    split_ifs <;> omega

theorem floor_div_eq_fdiv (m n : Int) : ⌊(m : ℚ) / n⌋ = m.fdiv n := by
  -- the library knows divisors that are not negative; for the others both signs are turned
  have natural (m : Int) (d : Nat) : ⌊(m : ℚ) / d⌋ = m.fdiv d := by
    rw [Rat.floor_intCast_div_natCast, Int.fdiv_eq_ediv_of_nonneg _ (Int.natCast_nonneg d)]
  obtain ⟨d, rfl | rfl⟩ := n.eq_nat_or_neg
  · exact_mod_cast natural m d
  · rw [← Int.neg_fdiv_neg, Int.neg_neg, ← natural, Int.cast_neg, Int.cast_neg, div_neg, neg_div]
    rfl

theorem dividable_iff : dividable a b = true ↔ b ≠ 0 ∧ ¬(a.toInt = -2 ^ 63 ∧ b.toInt = -1) := by
  have lowest : a = Int64.minValue ↔ a.toInt = -2 ^ 63 := by rw [← Int64.toInt_inj, Int64.toInt_minValue]
  have minusOne : b = -1 ↔ b.toInt = -1 := by rw [← Int64.toInt_inj]; rfl
  simp [dividable, lowest, minusOne, imp_iff_not_or]

theorem signsDiffer_iff : signsDiffer a b = true ↔ ¬(a.toInt < 0 ↔ b.toInt < 0) := by
  have negative (c : Int64) : c < 0 ↔ c.toInt < 0 := Int64.lt_iff_toInt_lt
  rw [signsDiffer, bne_iff_ne, Ne, decide_eq_decide, negative, negative]

theorem toInt_quotient (h : dividable a b = true) : (a / b).toInt = a.toInt.tdiv b.toInt := by
  by_cases minusOne : b = -1
  · apply Int64.toInt_div_of_ne_left
    rintro rfl
    exact (dividable_iff.mp h).2 ⟨Int64.toInt_minValue, minusOne ▸ rfl⟩
  · exact Int64.toInt_div_of_ne_right a b minusOne

/-- Nothing is left over from the one quotient that 64 bits do not hold. -/
theorem toInt_leftover (nonzero : b ≠ 0) : ((leftover? a b).getD 0).toInt = a.toInt.tmod b.toInt := by
  by_cases h : dividable a b = true
  · rw [leftover?, if_pos h, Option.getD_some, Int64.toInt_mod]
  · have ⟨_, minusOne⟩ : a.toInt = -2 ^ 63 ∧ b.toInt = -1 := by
      by_contra apart
      exact h (dividable_iff.mpr ⟨nonzero, apart⟩)
    rw [leftover?, if_neg h, minusOne, Int.tmod_neg, Int.tmod_one]
    rfl

/-- A correction that is made in 64 bits where it is needed. -/
theorem corrected {needed : Bool} {p : Prop} [Decidable p] (same : needed = true ↔ p) (fits : p → Fits64 n) :
    ∃ m : Int64, (if needed then Decimal.int64? n else some a) = some m ∧
      m.toInt = if p then n else a.toInt := by
  by_cases h : p
  · obtain ⟨m, exact, held⟩ := int64?_of_fits (fits h)
    exact ⟨m, by rw [if_pos (same.mpr h), held], by rw [if_pos h, exact]⟩
  · exact ⟨a, by rw [if_neg (same.not.mpr h)], by rw [if_neg h]⟩

/-- Something is left over only from a divisor of at least 2, and so there is room below the quotient. -/
theorem fits64_quotient_sub_one (divisor : b.toInt ≠ 0) (leaves : a.toInt.tmod b.toInt ≠ 0) :
    Fits64 (a.toInt.tdiv b.toInt - 1) := by
  have large : 2 ≤ b.toInt.natAbs := by
    by_contra small
    have one : b.toInt.natAbs = 1 := by omega
    have none := Int.natAbs_tmod a.toInt b.toInt
    rw [one, Nat.mod_one, Int.natAbs_eq_zero] at none
    exact leaves none
  have half : (a.toInt.tdiv b.toInt).natAbs ≤ a.toInt.natAbs / 2 := by
    rw [Int.natAbs_tdiv]
    exact Nat.div_le_div_left large (by decide)
  have bound := fits64_toInt a
  unfold Fits64 at bound ⊢
  omega

theorem tmod_lt_zero_iff {m n : Int} (leaves : m.tmod n ≠ 0) : m.tmod n < 0 ↔ m < 0 := by
  have above : 0 ≤ m → 0 ≤ m.tmod n := Int.tmod_nonneg n
  have below : 0 ≤ -m → 0 ≤ (-m).tmod n := Int.tmod_nonneg n
  rw [Int.neg_tmod] at below
  omega

theorem floorQuotient?_of_dividable (h : dividable a b = true) :
    ∃ q, floorQuotient? a b = some q ∧ q.toInt = a.toInt.fdiv b.toInt := by
  have divisor : b.toInt ≠ 0 := toInt_eq_zero_iff.not.mpr (dividable_iff.mp h).1
  have needed : (a % b ≠ 0 && signsDiffer a b) = true ↔
      a.toInt.tmod b.toInt ≠ 0 ∧ ¬(a.toInt < 0 ↔ b.toInt < 0) := by
    rw [Bool.and_eq_true, decide_eq_true_iff, signsDiffer_iff, Ne, ← Int64.toInt_inj, Int64.toInt_mod]
    rfl
  have steps : floorQuotient? a b =
      if a % b ≠ 0 && signsDiffer a b then Decimal.int64? ((a / b).toInt - 1) else some (a / b) := by
    simp only [floorQuotient?, quotient?, leftover?, h, if_true, Option.bind_eq_bind, Option.bind_some]
  rw [steps, fdiv_eq_tdiv_ite divisor, ← toInt_quotient h]
  exact corrected needed fun p => toInt_quotient h ▸ fits64_quotient_sub_one divisor p.1

theorem floorLeftover?_of_ne_zero (nonzero : b ≠ 0) :
    ∃ r, floorLeftover? a b = some r ∧ r.toInt = a.toInt.fmod b.toInt := by
  have divisor : b.toInt ≠ 0 := toInt_eq_zero_iff.not.mpr nonzero
  have leftover := toInt_leftover (a := a) nonzero
  unfold floorLeftover?
  generalize (leftover? a b).getD 0 = r at leftover ⊢
  have needed : (r ≠ 0 && signsDiffer r b) = true ↔
      a.toInt.tmod b.toInt ≠ 0 ∧ ¬(a.toInt < 0 ↔ b.toInt < 0) := by
    -- what is left over has the sign of the dividend, so that the same pairs are corrected as for the quotient
    rw [Bool.and_eq_true, decide_eq_true_iff, signsDiffer_iff, Ne, ← Int64.toInt_inj, leftover]
    exact and_congr_right fun leaves => by rw [tmod_lt_zero_iff leaves]
  have fits : a.toInt.tmod b.toInt ≠ 0 ∧ ¬(a.toInt < 0 ↔ b.toInt < 0) → Fits64 (r.toInt + b.toInt) := by
    rintro ⟨leaves, differ⟩
    rw [← tmod_lt_zero_iff leaves, ← leftover] at differ
    have bound := fits64_toInt r
    have bound' := fits64_toInt b
    unfold Fits64 at bound bound' ⊢
    omega
  obtain ⟨m, steps, same⟩ := corrected needed fits
  refine ⟨m, steps, ?_⟩
  rw [same, Int.fmod_def, fdiv_eq_tdiv_ite divisor, leftover, Int.tmod_def]
  split
  · rw [Int.mul_sub, Int.mul_one]
    omega
  · rfl

theorem fmod_bounds {m n : Int} (nonzero : n ≠ 0) :
    (m.fmod n = 0 ∨ (m.fmod n).sign = n.sign) ∧ |m.fmod n| < |n| := by
  have low := Int.emod_nonneg m nonzero
  have high := Int.emod_lt_abs m nonzero
  rw [Int.fmod_eq_emod]
  rcases Int.lt_or_gt_of_ne nonzero with below | above
  · rw [abs_of_neg below] at high ⊢
    by_cases divides : n ∣ m
    · rw [if_pos (.inr divides), Int.emod_eq_zero_of_dvd divides]
      exact ⟨.inl rfl, Int.neg_pos_of_neg below⟩
    · have leaves : m % n ≠ 0 := fun none => divides (Int.dvd_of_emod_eq_zero none)
      have negative : m % n + n < 0 := by omega
      rw [if_neg (by omega), abs_of_neg negative, Int.sign_eq_neg_one_of_neg negative,
        Int.sign_eq_neg_one_of_neg below]
      exact ⟨.inr rfl, by omega⟩
  · rw [if_pos (.inl above.le), Int.add_zero, abs_of_nonneg low]
    refine ⟨?_, high⟩
    rcases low.eq_or_lt with none | positive
    · exact .inl none.symm
    · rw [Int.sign_eq_one_of_pos positive, Int.sign_eq_one_of_pos above]
      exact .inr rfl

theorem floorQuotient?_eq_none_iff : floorQuotient? a b = none ↔ quotient? a b = none := by
  by_cases h : dividable a b = true
  · obtain ⟨q, steps, -⟩ := floorQuotient?_of_dividable h
    rw [steps, quotient?, if_pos h]
    exact iff_of_false nofun nofun
  · have none : quotient? a b = none := if_neg h
    rw [floorQuotient?, none]
    exact iff_of_true rfl rfl

theorem givesInt_floorDiv (h : dividable a b = true) :
    (Eval.lift (intBinary .floorDiv a b)).GivesInt ⌊(a.toInt : ℚ) / b.toInt⌋ := by
  obtain ⟨q, steps, same⟩ := floorQuotient?_of_dividable h
  rw [intBinary, if_neg (dividable_iff.mp h).1, steps, floor_div_eq_fdiv]
  exact Eval.givesInt_lift same

theorem givesInt_mod (nonzero : b ≠ 0) :
    (Eval.lift (intBinary .mod a b)).GivesInt (a.toInt - b.toInt * ⌊(a.toInt : ℚ) / b.toInt⌋) := by
  obtain ⟨r, steps, same⟩ := floorLeftover?_of_ne_zero (a := a) nonzero
  rw [intBinary, if_neg nonzero, steps, floor_div_eq_fdiv, ← Int.fmod_def]
  exact Eval.givesInt_lift same

theorem raises_floorDiv (h : ¬dividable a b = true) :
    (Eval.lift (intBinary .floorDiv a b)).Raises (if b = 0 then .zeroDivisionError else .overflowError) := by
  rw [intBinary]
  split
  · exact Eval.raises_lift (.divisionByZero .integer)
  · have none : floorQuotient? a b = none := floorQuotient?_eq_none_iff.mpr (if_neg h)
    rw [none]
    exact Eval.raises_lift .overflow

/-- A quotient fails exactly where the one rounded toward zero does. -/
theorem raises_floorDiv_iff {kind : FaultKind} :
    (Eval.lift (intBinary .floorDiv a b)).Raises kind ↔
      ¬dividable a b = true ∧ kind = if b = 0 then .zeroDivisionError else .overflowError := by
  constructor
  · intro raised
    have h : ¬dividable a b = true := fun h => (givesInt_floorDiv h).not_raises raised
    exact ⟨h, raised.unique (raises_floorDiv h)⟩
  · rintro ⟨h, rfl⟩
    exact raises_floorDiv h

theorem raises_mod_iff :
    (Eval.lift (intBinary .mod a b)).Raises .zeroDivisionError ↔ b = 0 := by
  constructor
  · intro raised
    by_contra nonzero
    exact (givesInt_mod nonzero).not_raises raised
  · rintro rfl
    exact Eval.raises_lift (.divisionByZero .integer)

end Operator

/-! ### Exactness -/

/-- The operators on two integers, booleans among them. The sum, the difference, the product, the opposite
and the magnitude are exact. The quotient is rounded down and overflows for one pair only; what it leaves over
never does. Of the steps in 64 bits that they take, only the first quotient can be without a result. -/
theorem integers_are_exact (left right : Value) (a b : Int64) (first : left.int? = some a)
    (second : right.int? = some b) :
    (Operator.binary .add left right).IsExact (a.toInt + b.toInt) ∧
      (Operator.binary .sub left right).IsExact (a.toInt - b.toInt) ∧
      (Operator.binary .mul left right).IsExact (a.toInt * b.toInt) ∧
      (Eval.ask (Operator.unary · .neg left)).IsExact (-a.toInt) ∧
      (Builtin.abs.call [left]).IsExact |a.toInt| ∧
      ((Operator.binary .floorDiv left right).Raises .zeroDivisionError ↔ b.toInt = 0) ∧
      ((Operator.binary .floorDiv left right).Raises .overflowError ↔
        a.toInt = -2 ^ 63 ∧ b.toInt = -1) ∧
      (b.toInt ≠ 0 → ¬(a.toInt = -2 ^ 63 ∧ b.toInt = -1) →
        (Operator.binary .floorDiv left right).GivesInt ⌊(a.toInt : ℚ) / b.toInt⌋) ∧
      ((Operator.binary .mod left right).Raises .zeroDivisionError ↔ b.toInt = 0) ∧
      (b.toInt ≠ 0 → ∃ r, (Operator.binary .mod left right).GivesInt r ∧
        r = a.toInt - b.toInt * ⌊(a.toInt : ℚ) / b.toInt⌋ ∧ (r = 0 ∨ r.sign = b.toInt.sign) ∧
        |r| < |b.toInt|) ∧
      (Operator.floorQuotient? a b = none ↔ Operator.quotient? a b = none) ∧
      (b.toInt ≠ 0 → Operator.floorLeftover? a b ≠ none) := by
  simp only [Operator.binary_ints _ first second, Operator.neg_int first, Operator.abs_int first,
    Operator.raises_floorDiv_iff, Operator.dividable_iff, Ne, toInt_eq_zero_iff]
  refine ⟨Operator.isExact_exact _, Operator.isExact_exact _, Operator.isExact_exact _,
    Operator.isExact_exact _, Operator.isExact_exact _, ?_, ?_, ?_, Operator.raises_mod_iff, ?_,
    Operator.floorQuotient?_eq_none_iff, ?_⟩
  · by_cases zero : b = 0 <;> simp [zero]
  · by_cases zero : b = 0 <;> simp [zero]
  · intro nonzero apart
    exact Operator.givesInt_floorDiv (Operator.dividable_iff.mpr ⟨nonzero, apart⟩)
  · intro nonzero
    refine ⟨_, Operator.givesInt_mod nonzero, rfl, ?_⟩
    rw [Operator.floor_div_eq_fdiv, ← Int.fmod_def]
    exact Operator.fmod_bounds (toInt_eq_zero_iff.not.mpr nonzero)
  · intro nonzero
    obtain ⟨r, steps, -⟩ := Operator.floorLeftover?_of_ne_zero (a := a) nonzero
    rw [steps]
    nofun

theorem integers_are_exact_lowest :
    (Operator.binary .floorDiv (.int Int64.minValue) (.int (-1))).Raises .overflowError ∧
      (Operator.binary .mod (.int Int64.minValue) (.int (-1))).GivesInt 0 := by
  obtain ⟨-, -, -, -, -, -, overflow, -, -, modulo, -⟩ :=
    integers_are_exact (.int Int64.minValue) (.int (-1)) Int64.minValue (-1) rfl rfl
  obtain ⟨r, given, rfl, -⟩ := modulo (by decide)
  refine ⟨overflow.mpr ⟨Int64.toInt_minValue, rfl⟩, ?_⟩
  rwa [Operator.floor_div_eq_fdiv] at given

/-! ### Powers -/

namespace Operator

theorem pow_of_natAbs_le_one {base : Int} (small : base.natAbs ≤ 1) (exponent : Nat) :
    base ^ exponent = if exponent = 0 then 1 else if exponent % 2 = 0 then base * base else base := by
  obtain rfl | rfl | rfl : base = 0 ∨ base = 1 ∨ base = -1 := by omega
  · by_cases zero : exponent = 0 <;> simp [zero]
  · simp
  · simp only [neg_one_pow_eq_ite, Nat.even_iff]
    split_ifs <;> omega

theorem not_fits64_pow {base : Int} {exponent : Nat} (large : 2 ≤ base.natAbs) (beyond : 64 ≤ exponent) :
    ¬Fits64 (base ^ exponent) := by
  have grown : 2 ^ 64 ≤ (base ^ exponent).natAbs := by
    rw [Int.natAbs_pow]
    calc 2 ^ 64 ≤ base.natAbs ^ 64 := Nat.pow_le_pow_left large 64
      _ ≤ base.natAbs ^ exponent := Nat.pow_le_pow_right (by omega) beyond
  unfold Fits64
  omega

theorem fits64_pow {base : Int} (small : base.natAbs ≤ 1) (exponent : Nat) : Fits64 (base ^ exponent) := by
  have bounded : (base ^ exponent).natAbs ≤ 1 := by
    rw [Int.natAbs_pow]
    exact (Nat.pow_le_pow_left small exponent).trans_eq (Nat.one_pow exponent)
  unfold Fits64
  omega

/-- No power is computed that 64 bits cannot hold. -/
theorem power?_eq (base : Int) (exponent : Nat) :
    power? base exponent = Decimal.int64? (base ^ exponent) := by
  unfold power?
  by_cases small : base.natAbs ≤ 1
  · rw [if_pos small, pow_of_natAbs_le_one small]
  · rw [if_neg small]
    split
    · rfl
    · exact (int64?_of_not_fits (not_fits64_pow (by omega) (by omega))).symm

theorem intPower_of_nonneg (natural : 0 ≤ b.toInt) :
    intPower a b = if b.toInt < 2 ^ 32 then exact (a.toInt ^ b.toInt.toNat) else .error .overflow := by
  have positive : 0 ≤ b := Int64.le_iff_toInt_le.mpr natural
  rw [intPower, if_pos positive, power?_eq]
  rfl

end Operator

/-- A power of two integers, booleans among them, whose exponent is not negative. It is exact if the exponent
has at most 32 bits or if the base is other than 0, 1 and -1. Longer exponents overflow for these three too,
though 64 bits hold their powers. -/
theorem powers_are_exact (left right : Value) (a b : Int64) (first : left.int? = some a)
    (second : right.int? = some b) (natural : 0 ≤ b.toInt) :
    (b.toInt < 2 ^ 32 ∨ 2 ≤ |a.toInt| →
        (Operator.binary .pow left right).IsExact (a.toInt ^ b.toInt.toNat)) ∧
      (2 ^ 32 ≤ b.toInt ∧ |a.toInt| ≤ 1 → Fits64 (a.toInt ^ b.toInt.toNat) ∧
        (Operator.binary .pow left right).Raises .overflowError) := by
  rw [Operator.binary_ints _ first second, Operator.intBinary, Operator.intPower_of_nonneg natural,
    Int.abs_eq_natAbs]
  by_cases short : b.toInt < 2 ^ 32
  · rw [if_pos short]
    exact ⟨fun _ => Operator.isExact_exact _, fun h => absurd h.1 (Int.not_le.mpr short)⟩
  · rw [if_neg short]
    have overflow := Eval.raises_lift .overflow
    refine ⟨fun h => ⟨fun fits => ?_, fun _ => overflow⟩, fun h => ⟨?_, overflow⟩⟩
    · have large := h.resolve_left short
      refine absurd fits (Operator.not_fits64_pow ?_ ?_) <;> omega
    · exact Operator.fits64_pow (by omega) _

theorem powers_are_exact_three :
    (Operator.binary .pow (.int (-3)) (.int 39)).GivesInt (-4052555153018976267) ∧
      (Operator.binary .pow (.int (-3)) (.int 40)).Raises .overflowError := by
  have below := (powers_are_exact (.int (-3)) (.int 39) (-3) 39 rfl rfl (by decide)).1 (.inl (by decide))
  have above := (powers_are_exact (.int (-3)) (.int 40) (-3) 40 rfl rfl (by decide)).1 (.inl (by decide))
  exact ⟨below.1 (by decide), above.2 (by decide)⟩

/-- 64 bits hold every power of 1, yet not every one is given. -/
theorem long_power_of_one_overflows :
    ¬(Operator.binary .pow (.int 1) (.int 0x100000000)).IsExact (1 ^ 0x100000000) := by
  intro exact
  have given := exact.1 (Operator.fits64_pow (by decide : (1 : Int).natAbs ≤ 1) _)
  have raised : (Operator.binary .pow (.int 1) (.int 0x100000000)).Raises .overflowError := by
    rw [Operator.binary_ints .pow rfl rfl, Operator.intBinary, Operator.intPower_of_nonneg (by decide),
      if_neg (by decide)]
    exact Eval.raises_lift .overflow
  exact given.not_raises raised

end Scratchpad
