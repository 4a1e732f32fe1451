import TapeDebugger.Proofs.Number.Rounding

/-!
# Rounding and order

Rounding never reverses an order.  Between two values of different units lies a power of
2 that is a multiple of both units, and it stays between them.  So a bound that needs no
rounding itself is kept, and every integer up to the 53rd power of 2 is such a bound.
-/

namespace TapeDebugger

namespace Number

/-! ## To an integer -/

/-- The nearest integer is the one below or the one above. -/
theorem roundHalfEven_le_floor_add_one (value : Rat) :
    roundHalfEven value ≤ value.floor + 1 := by
  unfold roundHalfEven
  dsimp only
  split_ifs <;> omega

theorem roundHalfEven_mono {value other : Rat} (le : value ≤ other) :
    roundHalfEven value ≤ roundHalfEven other := by
  have floors : value.floor ≤ other.floor := Rat.le_floor_iff.mpr (value.floor_le.trans le)
  rcases floors.eq_or_lt with same | below
  · -- with the same integer below, the one that is farther from it goes up first
    have rests : value - value.floor ≤ other - other.floor := by
      rw [same]
      linarith
    unfold roundHalfEven
    dsimp only
    rw [same] at rests ⊢
    split_ifs
    all_goals first | omega | linarith
  · calc roundHalfEven value ≤ value.floor + 1 := roundHalfEven_le_floor_add_one value
      _ ≤ other.floor := below
      _ ≤ roundHalfEven other := le_roundHalfEven other.floor_le

/-! ## To the grid of a binade -/

/-- The exponent of the unit around a value. -/
def unitExponent (value : Rat) : Int :=
  max (-1074) (binade value - 52)

/-- A power of 2 that is not below the unit is a multiple of it. -/
theorem exists_multiple_of_zpow {value : Rat} {exponent : Int}
    (le : unitExponent value ≤ exponent) :
    ∃ count : Int, (2 : Rat) ^ exponent = count * unit value := by
  refine ⟨2 ^ (exponent - unitExponent value).toNat, ?_⟩
  rw [unit, ← unitExponent, Int.cast_pow, Int.cast_ofNat, ← zpow_natCast,
    ← zpow_add₀ two_ne_zero, Int.toNat_of_nonneg (by omega), sub_add_cancel]

theorem round_le_zpow {value : Rat} {exponent : Int} (coarse : unitExponent value ≤ exponent)
    (le : value ≤ (2 : Rat) ^ exponent) : round value ≤ (2 : Rat) ^ exponent := by
  obtain ⟨count, multiple⟩ := exists_multiple_of_zpow coarse
  rw [multiple] at le ⊢
  exact round_le le

theorem zpow_le_round {value : Rat} {exponent : Int} (coarse : unitExponent value ≤ exponent)
    (le : (2 : Rat) ^ exponent ≤ value) : (2 : Rat) ^ exponent ≤ round value := by
  obtain ⟨count, multiple⟩ := exists_multiple_of_zpow coarse
  rw [multiple] at le ⊢
  exact le_round le

theorem round_le_neg_zpow {value : Rat} {exponent : Int} (coarse : unitExponent value ≤ exponent)
    (le : value ≤ -(2 : Rat) ^ exponent) : round value ≤ -(2 : Rat) ^ exponent := by
  obtain ⟨count, multiple⟩ := exists_multiple_of_zpow coarse
  rw [multiple, ← neg_mul, ← Int.cast_neg] at le ⊢
  exact round_le le

theorem neg_zpow_le_round {value : Rat} {exponent : Int} (coarse : unitExponent value ≤ exponent)
    (le : -(2 : Rat) ^ exponent ≤ value) : -(2 : Rat) ^ exponent ≤ round value := by
  obtain ⟨count, multiple⟩ := exists_multiple_of_zpow coarse
  rw [multiple, ← neg_mul, ← Int.cast_neg] at le ⊢
  exact le_round le

theorem round_nonneg {value : Rat} (nonneg : 0 ≤ value) : 0 ≤ round value := by
  have kept : ((0 : Int) : Rat) * unit value ≤ round value := le_round (by simpa using nonneg)
  simpa using kept

theorem round_nonpos {value : Rat} (nonpos : value ≤ 0) : round value ≤ 0 := by
  have kept : round value ≤ ((0 : Int) : Rat) * unit value := round_le (by simpa using nonpos)
  simpa using kept

/-- Values of one unit are rounded onto one grid. -/
theorem round_mono_of_unit {value other : Rat} (same : unitExponent value = unitExponent other)
    (le : value ≤ other) : round value ≤ round other := by
  have units : unit value = unit other := by
    rw [unit, unit, ← unitExponent, ← unitExponent, same]
  rw [round, round, units]
  have quotients := div_le_div_of_nonneg_right le (unit_pos other).le
  exact mul_le_mul_of_nonneg_right (by exact_mod_cast roundHalfEven_mono quotients)
    (unit_pos other).le

/-- Where the larger of two magnitudes has the larger unit, its binade separates them. -/
theorem separated {small large : Rat} (nonzero : small ≠ 0) (nonzero' : large ≠ 0)
    (finer : unitExponent small < unitExponent large) :
    unitExponent small ≤ binade large ∧ unitExponent large ≤ binade large ∧
      |small| ≤ (2 : Rat) ^ binade large ∧ (2 : Rat) ^ binade large ≤ |large| := by
  have exponents : unitExponent large = binade large - 52 ∧ binade small < binade large := by
    unfold unitExponent at finer ⊢
    omega
  refine ⟨by omega, by omega, ?_, (binade_bounds nonzero').1⟩
  calc |small| ≤ (2 : Rat) ^ (binade small + 1) := (binade_bounds nonzero).2.le
    _ ≤ (2 : Rat) ^ binade large := zpow_le_zpow_right₀ one_le_two (by omega)

theorem unitExponent_mono {small large : Rat} (nonzero : small ≠ 0) (le : |small| ≤ |large|) :
    unitExponent small ≤ unitExponent large := by
  have nonzero' : large ≠ 0 := abs_pos.mp ((abs_pos.mpr nonzero).trans_le le)
  have powers : (2 : Rat) ^ binade small < (2 : Rat) ^ (binade large + 1) :=
    ((binade_bounds nonzero).1.trans le).trans_lt (binade_bounds nonzero').2
  have binades := (zpow_lt_zpow_iff_right₀ one_lt_two).mp powers
  unfold unitExponent
  omega

/-- Rounding never reverses an order. -/
theorem round_mono {value other : Rat} (le : value ≤ other) : round value ≤ round other := by
  rcases le_or_gt value 0 with nonpos | positive
  · rcases le_or_gt 0 other with nonneg | negative
    · exact (round_nonpos nonpos).trans (round_nonneg nonneg)
    · -- of two negative values the lower one is the larger
      have magnitudes : |other| ≤ |value| := by
        rw [abs_of_neg negative, abs_of_nonpos nonpos]
        exact neg_le_neg le
      rcases (unitExponent_mono negative.ne magnitudes).eq_or_lt with same | finer
      · exact round_mono_of_unit same.symm le
      · have nonzero : value ≠ 0 := (le.trans_lt negative).ne
        obtain ⟨coarse, coarse', above, below⟩ := separated negative.ne nonzero finer
        rw [abs_of_neg negative] at above
        rw [abs_of_nonpos nonpos] at below
        exact (round_le_neg_zpow coarse' (le_neg_of_le_neg below)).trans
          (neg_zpow_le_round coarse (neg_le.mp above))
  · have magnitudes : |value| ≤ |other| := by
      rw [abs_of_pos positive, abs_of_pos (positive.trans_le le)]
      exact le
    rcases (unitExponent_mono positive.ne' magnitudes).eq_or_lt with same | finer
    · exact round_mono_of_unit same le
    · have nonzero : other ≠ 0 := (positive.trans_le le).ne'
      obtain ⟨coarse, coarse', above, below⟩ := separated positive.ne' nonzero finer
      rw [abs_of_pos positive] at above
      rw [abs_of_pos (positive.trans_le le)] at below
      exact (round_le_zpow coarse above).trans (zpow_le_round coarse' below)

/-! ## Integers as bounds -/

theorem round_le_intCast {value : Rat} {bound : Int} (small : bound.natAbs ≤ exactIntegerBound)
    (le : value ≤ bound) : round value ≤ bound :=
  (round_mono le).trans (round_intCast small).le

theorem intCast_le_round {value : Rat} {bound : Int} (small : bound.natAbs ≤ exactIntegerBound)
    (le : (bound : Rat) ≤ value) : (bound : Rat) ≤ round value :=
  (round_intCast small).ge.trans (round_mono le)

end Number

end TapeDebugger
