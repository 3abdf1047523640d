import ApiContract.Number.Binary64
import Mathlib.Order.Nat

/-!
Small whole numbers are on the grid.

A natural number below `2 * binade` has at most 53 binary digits, as many as a fraction with its leading
one. So nothing is rounded when the number next to it is taken.
-/

namespace ApiContract.Binary64

theorem unitsOf_add {shift quotient : Nat} (least : binade ≤ quotient)
    (most : quotient < 2 * binade) :
    unitsOf (shift * binade + quotient) = quotient * Nat.pow 2 shift := by
  obtain ⟨fraction, rfl⟩ := Nat.exists_eq_add_of_le least
  have small : fraction < binade := by omega
  have regroup : shift * binade + (binade + fraction) = fraction + (shift + 1) * binade := by
    rw [Nat.succ_mul]
    omega
  have positive : 0 < binade := by decide
  rw [regroup, unitsOf, if_neg (by rw [Nat.succ_mul]; omega), Nat.add_mul_mod_self_right,
    Nat.mod_eq_of_lt small, Nat.add_mul_div_right _ _ positive, Nat.div_eq_of_lt small]
  simp

theorem roundQuotient_mul {den : Nat} (positive : 0 < den) (q : Nat) :
    roundQuotient (q * den) den = q := by
  simp [roundQuotient, Nat.mul_div_cancel _ positive, positive]

theorem unitsPerOne_eq {exponent : Nat} (isExponent : exponent = 1074) :
    unitsPerOne = Nat.pow 2 exponent := by
  rw [unitsPerOne, ← isExponent, Nat.one_shiftLeft, Nat.pow_eq]

theorem binade_eq : binade = Nat.pow 2 52 := rfl

/-- The magnitude next to a small natural number is that number. -/
theorem nearestMagnitude_of_lt {n : Nat} (small : n < 2 * binade) :
    nearestMagnitude n 1 < infinite ∧ unitsOf (nearestMagnitude n 1) = n * unitsPerOne := by
  by_cases isZero : n = 0
  · subst isZero
    exact ⟨by decide +kernel, by decide +kernel⟩
  have below : Nat.pow 2 n.log2 ≤ n := Nat.log2_self_le isZero
  have above : n < Nat.pow 2 (n.log2 + 1) := Nat.lt_log2_self
  have digits : n.log2 ≤ 52 := Nat.lt_succ_iff.mp ((Nat.log2_lt isZero).mpr small)
  generalize n.log2 = top at below above digits
  obtain ⟨lower, spread⟩ := Nat.exists_eq_add_of_le digits
  obtain ⟨shift, isShift⟩ : ∃ shift, shift = top + 1022 := ⟨_, rfl⟩
  have positive : 0 < Nat.pow 2 shift := Nat.two_pow_pos shift
  have scaled : n * unitsPerOne = n * Nat.pow 2 lower * Nat.pow 2 shift := by
    have sum : Nat.pow 2 (lower + shift) = Nat.pow 2 lower * Nat.pow 2 shift := Nat.pow_add ..
    rw [Nat.mul_assoc, ← sum, ← unitsPerOne_eq (by omega)]
  have least : binade ≤ n * Nat.pow 2 lower := by
    have power : binade = Nat.pow 2 top * Nat.pow 2 lower := by
      rw [binade_eq, spread]
      exact Nat.pow_add ..
    rw [power]
    exact Nat.mul_le_mul_right _ below
  have most : n * Nat.pow 2 lower < 2 * binade := by
    have power : 2 * binade = Nat.pow 2 (top + 1) * Nat.pow 2 lower := by
      have double : 2 * binade = Nat.pow 2 (52 + 1) := rfl
      rw [double, spread, Nat.add_right_comm]
      exact Nat.pow_add ..
    rw [power]
    exact Nat.mul_lt_mul_of_pos_right above (Nat.two_pow_pos lower)
  generalize n * Nat.pow 2 lower = fraction at scaled least most
  have length : (n * unitsPerOne / 1).log2 - 52 = shift := by
    have some : 0 < fraction := Nat.lt_of_lt_of_le (by decide) least
    have top : (fraction * Nat.pow 2 shift).log2 = 52 + shift := by
      refine (Nat.log2_eq_iff (Nat.mul_pos some positive).ne').mpr ⟨?_, ?_⟩
      · rw [Nat.pow_add]
        exact Nat.mul_le_mul_right _ least
      · rw [Nat.add_right_comm, Nat.pow_add]
        exact Nat.mul_lt_mul_of_pos_right most positive
    rw [Nat.div_one, scaled, top, Nat.add_sub_cancel_left]
  have upTo : shift * binade + fraction < infinite := by
    have lines : shift * binade ≤ 1074 * binade := Nat.mul_le_mul_right _ (by omega)
    have one : 0 < binade := by decide
    unfold infinite
    omega
  have magnitude : nearestMagnitude n 1 = shift * binade + fraction := by
    unfold nearestMagnitude
    dsimp only
    rw [length, scaled, Nat.one_mul, roundQuotient_mul positive]
    exact Nat.min_eq_left upTo.le
  rw [magnitude, unitsOf_add least most, scaled]
  exact ⟨upTo, rfl⟩

/-- Finite numbers of one value: the same one, or the two zeros. -/
structure Alike (x y : Binary64) : Prop where
  finite : x.isFinite = true
  finiteToo : y.isFinite = true
  units : x.units = y.units

variable {x y : Binary64}

theorem natAbs_units (x : Binary64) : x.units.natAbs = unitsOf x.magnitude := by
  unfold units
  split <;> simp

theorem isNaN_eq_false (finite : x.isFinite = true) : x.isNaN = false := by
  simp only [isFinite, decide_eq_true_eq] at finite
  simpa [isNaN] using finite.le

theorem Alike.isWhole_eq (alike : x.Alike y) : x.isWhole = y.isWhole := by
  simp only [isWhole, ← natAbs_units, alike.units, alike.finite, alike.finiteToo]

theorem Alike.less_left (alike : x.Alike y) (z : Binary64) : x.less z = y.less z := by
  simp only [less, isNaN_eq_false alike.finite, isNaN_eq_false alike.finiteToo, alike.units]

theorem Alike.less_right (alike : x.Alike y) (z : Binary64) : z.less x = z.less y := by
  simp only [less, isNaN_eq_false alike.finite, isNaN_eq_false alike.finiteToo, alike.units]

theorem Alike.equals_left (alike : x.Alike y) (z : Binary64) : x.equals z = y.equals z := by
  simp only [equals, isNaN_eq_false alike.finite, isNaN_eq_false alike.finiteToo, alike.units]

theorem units_of_isWhole (whole : x.isWhole = true) : x.units = x.truncate * unitsPerOne := by
  simp only [isWhole, Bool.and_eq_true, beq_iff_eq] at whole
  obtain ⟨ones, same⟩ := Nat.dvd_of_mod_eq_zero whole.2
  have positive : 0 < unitsPerOne := by decide +kernel
  unfold units truncate
  rw [same, Nat.mul_div_cancel_left ones positive, Int.natCast_mul, Int.mul_comm]
  split
  · exact (Int.neg_mul _ _).symm
  · rfl

theorem ofInt_spec {n : Int} (small : n.natAbs < 2 * binade) :
    (ofInt n).isFinite = true ∧ (ofInt n).units = n * unitsPerOne := by
  obtain ⟨finite, exact⟩ := nearestMagnitude_of_lt small
  have magnitude : (ofInt n).magnitude = nearestMagnitude n.natAbs 1 := by
    simp only [ofInt, ofRatio, ofMagnitude, dif_pos finite.le]
  have negative : (ofInt n).negative = decide (n < 0) := by
    simp only [ofInt, ofRatio, ofMagnitude, dif_pos finite.le]
  refine ⟨by simpa [isFinite, magnitude] using finite, ?_⟩
  rw [units, negative, magnitude, exact, Int.natCast_mul]
  by_cases sign : n < 0
  · have size : (n.natAbs : Int) = -n := by omega
    rw [if_pos (by simpa using sign), size, Int.neg_mul, Int.neg_neg]
  · have size : (n.natAbs : Int) = n := by omega
    rw [if_neg (by simpa using sign), size]

theorem roundQuotient_le (num den : Nat) : roundQuotient num den ≤ num / den + 1 := by
  unfold roundQuotient
  dsimp only
  split <;> [skip; split] <;> omega

theorem nearestMagnitude_lt_infinite {n : Nat} (small : n ≤ 0x10000000000000000) :
    nearestMagnitude n 1 < infinite := by
  obtain ⟨exponent, isExponent⟩ : ∃ exponent, exponent = 1074 := ⟨_, rfl⟩
  have scaled : n * unitsPerOne < Nat.pow 2 (exponent + 65) := by
    have sum : Nat.pow 2 (exponent + 65) = Nat.pow 2 exponent * Nat.pow 2 65 := Nat.pow_add ..
    rw [unitsPerOne_eq isExponent, sum, Nat.mul_comm]
    apply Nat.mul_lt_mul_of_pos_left _ (Nat.two_pow_pos exponent)
    exact Nat.lt_of_le_of_lt small (by decide)
  unfold nearestMagnitude
  dsimp only
  rw [Nat.div_one, Nat.one_mul]
  generalize n * unitsPerOne = units at scaled ⊢
  apply (Nat.min_le_left _ _).trans_lt
  have digits : units.log2 - 52 ≤ exponent + 12 := by
    by_cases isZero : units = 0
    · simp [isZero]
    · have top : units.log2 < exponent + 65 := (Nat.log2_lt isZero).mpr scaled
      omega
  have fraction : units / Nat.pow 2 (units.log2 - 52) < 2 * binade := by
    have double : 2 * binade = Nat.pow 2 53 := rfl
    have sum : Nat.pow 2 (units.log2 - 52 + 53) = Nat.pow 2 (units.log2 - 52) * Nat.pow 2 53 :=
      Nat.pow_add ..
    apply Nat.div_lt_of_lt_mul
    rw [double, ← sum]
    exact Nat.lt_log2_self.trans_le (Nat.pow_le_pow_right (by decide) (by omega))
  have rounded := roundQuotient_le units (Nat.pow 2 (units.log2 - 52))
  have lines : (units.log2 - 52) * binade ≤ (exponent + 12) * binade := Nat.mul_le_mul_right _ digits
  subst isExponent
  unfold binade at fraction lines ⊢
  unfold infinite binade
  omega

theorem isFinite_ofInt {n : Int} (small : n.natAbs ≤ 0x10000000000000000) :
    (ofInt n).isFinite = true := by
  have finite := nearestMagnitude_lt_infinite small
  simpa only [ofInt, ofRatio, ofMagnitude, dif_pos finite.le, isFinite, decide_eq_true_eq] using finite

/-- A whole number of small size is the integer next to it. -/
theorem alike_ofInt_truncate (whole : x.isWhole = true) (small : x.truncate.natAbs < 2 * binade) :
    x.Alike (ofInt x.truncate) := by
  obtain ⟨finite, units⟩ := ofInt_spec small
  have isFinite : x.isFinite = true := by
    simp only [isWhole, Bool.and_eq_true] at whole
    exact whole.1
  exact ⟨isFinite, finite, (units_of_isWhole whole).trans units.symm⟩

end ApiContract.Binary64
