import TapeDebugger.Proofs.Number.Rounding

/-!
# Remainders

A remainder has the sign of what is divided, and sums of numbers are rounded.  A number is
taken into the range below a modulus by its remainder, moved up by the modulus, and the
remainder of that.  For integers no sum on the way needs rounding, however large the
first of them is, and what comes out is the residue.
-/

namespace TapeDebugger

namespace Number

/-- What is left of a value when it is divided toward 0. -/
def remainder (value : Rat) (modulus : Nat) : Rat :=
  value - truncated (.finite (value / modulus)) * modulus

/-- A value taken into the range below a modulus, with one rounded sum. -/
def wrapped (value : Rat) (modulus : Nat) : Rat :=
  remainder (round (remainder value modulus + modulus)) modulus

variable {modulus : Nat}

/-! ## Integers -/

theorem truncated_div_intCast (value : Int) (positive : 0 < modulus) :
    truncated (.finite ((value : Rat) / modulus)) = value.tdiv modulus := by
  have positive : (0 : Rat) < modulus := Nat.cast_pos.mpr positive
  rw [truncated]
  rcases le_or_gt 0 value with nonneg | negative
  · have quotient : ¬ (value : Rat) / modulus < 0 :=
      not_lt.mpr (div_nonneg (Int.cast_nonneg nonneg) positive.le)
    rw [if_neg quotient, Int.tdiv_eq_ediv_of_nonneg nonneg]
    exact Rat.floor_intCast_div_natCast value modulus
  · obtain ⟨magnitude, rfl⟩ : ∃ magnitude, value = -magnitude := ⟨-value, (neg_neg _).symm⟩
    have quotient : ((-magnitude : Int) : Rat) / modulus < 0 :=
      div_neg_of_neg_of_pos (Int.cast_lt_zero.mpr negative) positive
    rw [if_pos quotient, Rat.ceil_eq_neg_floor_neg, Int.cast_neg, neg_div, neg_neg, Int.neg_tdiv,
      Int.tdiv_eq_ediv_of_nonneg (by omega)]
    exact congrArg Neg.neg (Rat.floor_intCast_div_natCast magnitude modulus)

theorem remainder_intCast (value : Int) (positive : 0 < modulus) :
    remainder value modulus = (value.tmod modulus : Int) := by
  rw [remainder, truncated_div_intCast value positive, Int.tmod_def]
  push_cast
  ring

/-- A sum that is an integer in range, not negative, leaves its residue. -/
theorem remainder_round_intCast {value : Int} (positive : 0 < modulus) (nonneg : 0 ≤ value)
    (small : value ≤ exactIntegerBound) :
    remainder (round value) modulus = (value % modulus : Int) := by
  rw [round_intCast (by omega), remainder_intCast value positive,
    Int.tmod_eq_emod_of_nonneg nonneg]

/-- An integer is wrapped to its residue, however large it is and whatever its sign. -/
theorem wrapped_intCast (value : Int) (positive : 0 < modulus)
    (small : 2 * modulus ≤ exactIntegerBound) :
    wrapped value modulus = (value % modulus : Int) := by
  have lower := Int.lt_tmod_of_pos value (show (0 : Int) < modulus by omega)
  have upper := Int.tmod_lt_of_pos value (show (0 : Int) < modulus by omega)
  have sum : ((value.tmod modulus : Int) : Rat) + modulus =
      (value.tmod modulus + modulus : Int) := by
    push_cast
    rfl
  have residue : (value.tmod modulus + modulus) % modulus = value % modulus := by
    rw [Int.add_emod_right, Int.tmod_def, Int.sub_mul_emod_self_left]
  rw [wrapped, remainder_intCast value positive, sum,
    remainder_round_intCast positive (by omega) (by omega), residue]

/-! ## Fractions -/

/-- Dividing toward 0 leaves more than the negative of the modulus. -/
theorem neg_lt_remainder (value : Rat) (positive : 0 < modulus) :
    -(modulus : Rat) < remainder value modulus := by
  have positive : (0 : Rat) < modulus := Nat.cast_pos.mpr positive
  have split : value = value / modulus * modulus := (div_mul_cancel₀ value positive.ne').symm
  have near : (truncated (.finite (value / modulus)) : Rat) < value / modulus + 1 := by
    rw [truncated]
    split
    · exact Rat.ceil_lt
    · exact (Rat.floor_le _).trans_lt (lt_add_one _)
  have bound := mul_lt_mul_of_pos_right near positive
  rw [remainder]
  linarith

/-- The cut of a remainder is the residue of the cut. -/
theorem floor_remainder {value : Rat} (nonneg : 0 ≤ value) :
    (remainder value modulus).floor = value.floor % modulus := by
  have quotient : ¬ value / modulus < 0 := not_lt.mpr (div_nonneg nonneg (Nat.cast_nonneg _))
  have floors : (value / modulus).floor = value.floor / modulus :=
    Int.floor_div_natCast value modulus
  have whole : ((value / modulus).floor : Rat) * modulus =
      ((value.floor / modulus * modulus : Int) : Rat) := by
    rw [floors]
    push_cast
    rfl
  rw [remainder, truncated, if_neg quotient, whole]
  refine (Int.floor_sub_intCast value _).trans ?_
  rw [Int.emod_def, mul_comm]
  rfl

/-- The residue of a number is what its wrapped value is cut to. -/
theorem residue_eq_floor_wrapped (value : Rat) (positive : 0 < modulus)
    (small : 2 * modulus ≤ exactIntegerBound) :
    (residue modulus (.finite value) : Int) = (wrapped value modulus).floor := by
  have modulus_pos : (0 : Int) < modulus := Int.natCast_pos.mpr positive
  rw [residue]
  split
  case isTrue whole =>
    have value_eq : value = value.num := (Rat.den_eq_one_iff value).mp whole |>.symm
    rw [value_eq, wrapped_intCast _ positive small, Rat.floor_intCast, Rat.num_intCast,
      Int.toNat_of_nonneg (Int.emod_nonneg _ modulus_pos.ne')]
  case isFalse fraction =>
    have moved : 0 ≤ round (remainder value modulus + modulus) := by
      have above := neg_lt_remainder value positive
      have kept : ((0 : Int) : Rat) * unit (remainder value modulus + modulus) ≤
          round (remainder value modulus + modulus) := le_round (by push_cast; linarith)
      simpa using kept
    rw [wrapped, floor_remainder moved,
      Int.toNat_of_nonneg (Int.emod_nonneg _ modulus_pos.ne')]
    rfl

end Number

end TapeDebugger
