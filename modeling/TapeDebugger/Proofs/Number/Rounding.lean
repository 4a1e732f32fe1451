import Mathlib.Algebra.Order.Field.Basic
import Mathlib.Algebra.Order.Field.Power
import Mathlib.Data.Rat.Floor
import Mathlib.Tactic.Linarith
import Mathlib.Tactic.NormNum
import Mathlib.Tactic.Positivity
import TapeDebugger.Number.Decimal

/-!
# Rounding

What is rounded to a multiple of the unit around it stays between any two multiples it
was between.  So integers up to the 53rd power of 2 are kept, values from the bound on
are infinite, and values below half the least unit vanish.  Hence a decimal numeral is
read as the number nearest to what it denotes, however large its exponent is.
-/

namespace TapeDebugger

namespace Number

/-! ## To an integer -/

/-- A bound from below that is an integer is kept. -/
theorem le_roundHalfEven {value : Rat} {bound : Int} (le : (bound : Rat) ≤ value) :
    bound ≤ roundHalfEven value := by
  have below : bound ≤ value.floor := Rat.le_floor_iff.mpr le
  unfold roundHalfEven
  dsimp only
  split_ifs <;> omega

/-- A bound from above that is an integer is kept. -/
theorem roundHalfEven_le {value : Rat} {bound : Int} (le : value ≤ bound) :
    roundHalfEven value ≤ bound := by
  have below : (value.floor : Rat) ≤ value := value.floor_le
  rcases eq_or_lt_of_le (Rat.intCast_le_intCast.mp (below.trans le)) with same | lower
  · -- the value is the bound itself, and nothing is left behind it
    have rest : value - value.floor < 1 / 2 := by
      rw [same]
      linarith
    unfold roundHalfEven
    dsimp only
    rw [if_pos rest]
    exact same.le
  · unfold roundHalfEven
    dsimp only
    split_ifs <;> omega

theorem roundHalfEven_intCast (value : Int) : roundHalfEven value = value :=
  le_antisymm (roundHalfEven_le le_rfl) (le_roundHalfEven le_rfl)

/-- Less than a half vanishes. -/
theorem roundHalfEven_of_abs_lt {value : Rat} (small : |value| < 1 / 2) :
    roundHalfEven value = 0 := by
  obtain ⟨above, below⟩ := abs_lt.mp small
  unfold roundHalfEven
  dsimp only
  by_cases negative : value < 0
  · have floor_eq : value.floor = -1 := by
      apply le_antisymm
      · have floor_lt : (value.floor : Rat) < 0 := value.floor_le.trans_lt negative
        have : value.floor < 0 := by exact_mod_cast floor_lt
        omega
      · exact Rat.le_floor_iff.mpr (by push_cast; linarith)
    rw [floor_eq, if_neg (by push_cast; linarith), if_pos (by push_cast; linarith)]
    rfl
  · have floor_eq : value.floor = 0 := by
      apply le_antisymm
      · have floor_lt : (value.floor : Rat) < 1 := value.floor_le.trans_lt (by linarith)
        have : value.floor < 1 := by exact_mod_cast floor_lt
        omega
      · exact Rat.le_floor_iff.mpr (by push_cast; linarith)
    rw [floor_eq, if_pos (by push_cast; linarith)]

/-! ## Binades and units -/

theorem ratAbs_eq_abs (value : Rat) : value.abs = |value| := by
  unfold Rat.abs
  split_ifs with nonneg
  · exact (abs_of_nonneg nonneg).symm
  · exact (abs_of_nonpos (le_of_not_ge nonneg)).symm

theorem abs_eq_div (value : Rat) : |value| = (value.num.natAbs : Rat) / (value.den : Rat) := by
  rw [Rat.abs_def, Rat.divInt_eq_div, Int.cast_natCast, Int.cast_natCast]

/-- The powers of 2 around a quotient, by the powers of 2 around its parts. -/
theorem quotient_bounds {above below : Nat} (above_pos : above ≠ 0) (below_pos : below ≠ 0) :
    (2 : Rat) ^ ((above.log2 : Int) - below.log2 - 1) < (above : Rat) / below ∧
      (above : Rat) / below < (2 : Rat) ^ ((above.log2 : Int) - below.log2 + 1) := by
  have above_le : (2 : Rat) ^ above.log2 ≤ above := by
    exact_mod_cast Nat.log2_self_le above_pos
  have lt_above : (above : Rat) < (2 : Rat) ^ (above.log2 + 1) := by
    exact_mod_cast Nat.lt_log2_self
  have below_le : (2 : Rat) ^ below.log2 ≤ below := by
    exact_mod_cast Nat.log2_self_le below_pos
  have lt_below : (below : Rat) < (2 : Rat) ^ (below.log2 + 1) := by
    exact_mod_cast Nat.lt_log2_self
  have positive : (0 : Rat) < below := by exact_mod_cast Nat.pos_of_ne_zero below_pos
  rw [lt_div_iff₀ positive, div_lt_iff₀ positive]
  constructor
  · calc (2 : Rat) ^ ((above.log2 : Int) - below.log2 - 1) * below
        < (2 : Rat) ^ ((above.log2 : Int) - below.log2 - 1) * (2 : Rat) ^ (below.log2 + 1) :=
          mul_lt_mul_of_pos_left lt_below (by positivity)
      _ = (2 : Rat) ^ above.log2 := by
          rw [← zpow_natCast, ← zpow_natCast, ← zpow_add₀ two_ne_zero]
          congr 1
          push_cast
          omega
      _ ≤ above := above_le
  · calc (above : Rat) < (2 : Rat) ^ (above.log2 + 1) := lt_above
      _ = (2 : Rat) ^ ((above.log2 : Int) - below.log2 + 1) * (2 : Rat) ^ below.log2 := by
          rw [← zpow_natCast, ← zpow_natCast, ← zpow_add₀ two_ne_zero]
          congr 1
          push_cast
          omega
      _ ≤ (2 : Rat) ^ ((above.log2 : Int) - below.log2 + 1) * below :=
          mul_le_mul_of_nonneg_left below_le (by positivity)

/-- A value lies in its binade. -/
theorem binade_bounds {value : Rat} (nonzero : value ≠ 0) :
    (2 : Rat) ^ binade value ≤ |value| ∧ |value| < (2 : Rat) ^ (binade value + 1) := by
  obtain ⟨lower, upper⟩ :=
    quotient_bounds (Int.natAbs_ne_zero.mpr (Rat.num_ne_zero.mpr nonzero)) value.den_nz
  rw [← abs_eq_div] at lower upper
  unfold binade
  dsimp only
  rw [ratAbs_eq_abs]
  split_ifs with reached
  · exact ⟨reached, upper⟩
  · rw [sub_add_cancel]
    exact ⟨lower.le, not_le.mp reached⟩

theorem unit_pos (value : Rat) : 0 < unit value := by
  unfold unit
  positivity

/-- The least value of a binade is a multiple of the unit there. -/
theorem least_of_binade {value : Rat} (normal : -1022 ≤ binade value) :
    ((2 ^ 52 : Int) : Rat) * unit value = (2 : Rat) ^ binade value := by
  rw [unit, max_eq_right (by omega), Int.cast_pow, Int.cast_ofNat, ← zpow_natCast,
    ← zpow_add₀ two_ne_zero, show ((52 : Nat) : Int) + (binade value - 52) = binade value by omega]

/-- A multiple of the unit around it is kept. -/
theorem round_of_multiple {value : Rat} {count : Int} (multiple : value = count * unit value) :
    round value = value := by
  have quotient : value / unit value = count :=
    (div_eq_iff (unit_pos value).ne').mpr multiple
  rw [round, quotient, roundHalfEven_intCast]
  exact multiple.symm

theorem le_round {value : Rat} {count : Int} (le : count * unit value ≤ value) :
    count * unit value ≤ round value := by
  have kept : count ≤ roundHalfEven (value / unit value) :=
    le_roundHalfEven ((le_div_iff₀ (unit_pos value)).mpr le)
  exact mul_le_mul_of_nonneg_right (by exact_mod_cast kept) (unit_pos value).le

theorem round_le {value : Rat} {count : Int} (le : value ≤ count * unit value) :
    round value ≤ count * unit value := by
  have kept : roundHalfEven (value / unit value) ≤ count :=
    roundHalfEven_le ((div_le_iff₀ (unit_pos value)).mpr le)
  exact mul_le_mul_of_nonneg_right (by exact_mod_cast kept) (unit_pos value).le

/-! ## Integers -/

theorem exists_multiple_of_intCast {value : Int} (nonzero : value ≠ 0)
    (small : value.natAbs ≤ exactIntegerBound) :
    ∃ count : Int, (value : Rat) = count * unit value := by
  obtain ⟨lower, upper⟩ := binade_bounds (Int.cast_ne_zero.mpr nonzero : (value : Rat) ≠ 0)
  have abs_le : |(value : Rat)| ≤ (2 : Rat) ^ (53 : Int) := by
    rw [← Int.cast_abs, Int.abs_eq_natAbs]
    have bound : (exactIntegerBound : Rat) = (2 : Rat) ^ (53 : Int) := by
      norm_num [exactIntegerBound]
    rw [← bound]
    exact_mod_cast small
  have one_le : (2 : Rat) ^ (0 : Int) ≤ |(value : Rat)| := by
    rw [zpow_zero, ← Int.cast_abs]
    exact_mod_cast Int.one_le_abs nonzero
  have binade_le : binade value ≤ 53 :=
    (zpow_le_zpow_iff_right₀ one_lt_two).mp (lower.trans abs_le)
  have le_binade : 0 < binade value + 1 :=
    (zpow_lt_zpow_iff_right₀ one_lt_two).mp (one_le.trans_lt upper)
  have unit_eq : unit value = (2 : Rat) ^ (binade value - 52) := by
    rw [unit, max_eq_right (by omega)]
  rcases (show binade value = 53 ∨ binade value ≤ 52 by omega) with last | inside
  · -- only the bound itself and its opposite lie here, and both are even
    rw [last] at lower
    have same : |(value : Rat)| = (2 : Rat) ^ (53 : Int) := le_antisymm abs_le lower
    rw [unit_eq, last]
    rcases (abs_eq (by positivity)).mp same with same | same
    · exact ⟨2 ^ 52, by rw [same]; norm_num⟩
    · exact ⟨-2 ^ 52, by rw [same]; norm_num⟩
  · refine ⟨value * 2 ^ (52 - binade value).toNat, ?_⟩
    rw [unit_eq]
    push_cast
    rw [mul_assoc, ← zpow_natCast, ← zpow_add₀ two_ne_zero, Int.toNat_of_nonneg (by omega),
      show 52 - binade value + (binade value - 52) = 0 by omega, zpow_zero, mul_one]

/-- Integers up to the bound need no rounding. -/
theorem round_intCast {value : Int} (small : value.natAbs ≤ exactIntegerBound) :
    round value = value := by
  by_cases zero : value = 0
  · subst zero
    exact round_of_multiple (show ((0 : Int) : Rat) = (0 : Int) * unit _ by simp)
  · obtain ⟨count, multiple⟩ := exists_multiple_of_intCast zero small
    exact round_of_multiple multiple

/-- Integers up to the bound are numbers. -/
theorem nearest_intCast {value : Int} (small : value.natAbs ≤ exactIntegerBound) :
    nearest value = .finite value := by
  have bound : ¬ overflowBound ≤ (value : Rat).abs := by
    rw [ratAbs_eq_abs, not_le, ← Int.cast_abs, Int.abs_eq_natAbs]
    calc ((value.natAbs : Int) : Rat) ≤ exactIntegerBound := by exact_mod_cast small
      _ < (2 : Rat) ^ (54 : Int) := by norm_num [exactIntegerBound]
      _ ≤ overflowBound := zpow_le_zpow_right₀ one_le_two (by decide)
  rw [nearest, round_intCast small, if_neg bound]

/-! ## Beyond the range -/

/-- From the bound on everything is infinite. -/
theorem nearest_of_le_abs {value : Rat} (large : overflowBound ≤ |value|) :
    nearest value = .infinite (value < 0) := by
  have positive : (0 : Rat) < overflowBound := by
    rw [overflowBound]
    positivity
  have nonzero : value ≠ 0 := abs_pos.mp (positive.trans_le large)
  obtain ⟨lower, upper⟩ := binade_bounds nonzero
  have le_binade : 1024 < binade value + 1 :=
    (zpow_lt_zpow_iff_right₀ one_lt_two).mp (large.trans_lt upper)
  -- the least value of the binade is a multiple of the unit, and not below the bound
  have multiple : ((2 ^ 52 : Int) : Rat) * unit value = (2 : Rat) ^ binade value :=
    least_of_binade (by omega)
  have reached : overflowBound ≤ (2 : Rat) ^ binade value :=
    zpow_le_zpow_right₀ one_le_two (by omega)
  rw [nearest, ratAbs_eq_abs]
  by_cases negative : value < 0
  · have below : value ≤ ((-2 ^ 52 : Int) : Rat) * unit value := by
      rw [abs_of_neg negative] at lower
      push_cast at multiple ⊢
      linarith
    have rounded := round_le below
    push_cast at multiple rounded
    have rounded_neg : round value < 0 := by linarith
    rw [abs_of_neg rounded_neg, if_pos (by linarith)]
    simp only [rounded_neg, negative]
  · have above : ((2 ^ 52 : Int) : Rat) * unit value ≤ value := by
      rw [abs_of_nonneg (not_lt.mp negative)] at lower
      rw [multiple]
      exact lower
    have rounded := le_round above
    rw [multiple] at rounded
    have rounded_pos : ¬ round value < 0 := by linarith
    rw [abs_of_nonneg (not_lt.mp rounded_pos), if_pos (by linarith)]
    simp only [rounded_pos, negative]

/-- What is less than half the least unit vanishes. -/
theorem nearest_of_abs_lt {value : Rat} (small : |value| < (2 : Rat) ^ (-1075 : Int)) :
    nearest value = .finite 0 := by
  have unit_ge : (2 : Rat) ^ (-1074 : Int) ≤ unit value :=
    zpow_le_zpow_right₀ one_le_two (le_max_left _ _)
  have half : (2 : Rat) ^ (-1075 : Int) = (2 : Rat) ^ (-1074 : Int) / 2 := by
    rw [show (-1075 : Int) = -1074 - 1 by rfl, zpow_sub_one₀ two_ne_zero]
    rfl
  have quotient : |value / unit value| < 1 / 2 := by
    rw [abs_div, abs_of_pos (unit_pos value), div_lt_iff₀ (unit_pos value)]
    linarith
  have positive : ¬ overflowBound ≤ (0 : Rat).abs := by
    rw [ratAbs_eq_abs, abs_zero, not_le, overflowBound]
    positivity
  rw [nearest, round, roundHalfEven_of_abs_lt quotient]
  simp only [Int.cast_zero, zero_mul]
  rw [if_neg positive]

/-! ## Decimal numerals -/

/-- The value that digits and an exponent denote, negated if so said. -/
def decimalValue (negative : Bool) (digits : Nat) (exponent : Int) : Rat :=
  let magnitude := (digits : Rat) * (10 : Rat) ^ exponent
  if negative then -magnitude else magnitude

theorem abs_decimalValue (negative : Bool) (digits : Nat) (exponent : Int) :
    |decimalValue negative digits exponent| = digits * (10 : Rat) ^ exponent := by
  have nonneg : (0 : Rat) ≤ digits * (10 : Rat) ^ exponent := by positivity
  cases negative with
  | false => exact abs_of_nonneg nonneg
  | true => exact (abs_neg _).trans (abs_of_nonneg nonneg)

theorem two_zpow_le_ten_zpow (count : Nat) :
    (2 : Rat) ^ (3 * (count : Int)) ≤ (10 : Rat) ^ (count : Int) := by
  rw [zpow_mul, zpow_natCast, zpow_natCast]
  exact pow_le_pow_left₀ (by positivity) (by norm_num) count

/-- A positive exponent beyond the reach makes a numeral too large. -/
theorem overflowBound_le_abs_decimalValue (negative : Bool) {digits : Nat} {exponent : Int}
    (nonzero : digits ≠ 0) (large : 400 < exponent) :
    overflowBound ≤ |decimalValue negative digits exponent| := by
  obtain ⟨count, rfl⟩ := Int.eq_ofNat_of_zero_le (show 0 ≤ exponent by omega)
  have one_le : (1 : Rat) ≤ digits := by exact_mod_cast Nat.pos_of_ne_zero nonzero
  rw [abs_decimalValue]
  calc overflowBound ≤ (2 : Rat) ^ (3 * (count : Int)) := zpow_le_zpow_right₀ one_le_two (by omega)
    _ ≤ (10 : Rat) ^ (count : Int) := two_zpow_le_ten_zpow count
    _ = 1 * (10 : Rat) ^ (count : Int) := (one_mul _).symm
    _ ≤ digits * (10 : Rat) ^ (count : Int) := mul_le_mul_of_nonneg_right one_le (by positivity)

/-- A negative exponent beyond the reach makes a numeral vanish. -/
theorem abs_decimalValue_lt (negative : Bool) {digits : Nat} {exponent : Int}
    (small : (digits.log2 : Int) + 1 + 3 * exponent < -1100) :
    |decimalValue negative digits exponent| < (2 : Rat) ^ (-1075 : Int) := by
  obtain ⟨count, rfl⟩ : ∃ count : Nat, exponent = -count := ⟨(-exponent).toNat, by omega⟩
  have digits_lt : (digits : Rat) < (2 : Rat) ^ ((digits.log2 : Int) + 1) := by
    exact_mod_cast Nat.lt_log2_self
  have power_le : (10 : Rat) ^ (-(count : Int)) ≤ (2 : Rat) ^ (3 * -(count : Int)) := by
    rw [mul_neg, zpow_neg, zpow_neg]
    exact inv_anti₀ (by positivity) (two_zpow_le_ten_zpow count)
  rw [abs_decimalValue]
  calc (digits : Rat) * (10 : Rat) ^ (-(count : Int))
      ≤ digits * (2 : Rat) ^ (3 * -(count : Int)) :=
        mul_le_mul_of_nonneg_left power_le (by positivity)
    _ < (2 : Rat) ^ ((digits.log2 : Int) + 1) * (2 : Rat) ^ (3 * -(count : Int)) :=
        mul_lt_mul_of_pos_right digits_lt (by positivity)
    _ = (2 : Rat) ^ ((digits.log2 : Int) + 1 + 3 * -(count : Int)) :=
        (zpow_add₀ two_ne_zero _ _).symm
    _ ≤ (2 : Rat) ^ (-1075 : Int) := zpow_le_zpow_right₀ one_le_two (by omega)

theorem decimalValue_neg_iff {negative : Bool} {digits : Nat} {exponent : Int}
    (nonzero : digits ≠ 0) : decimalValue negative digits exponent < 0 ↔ negative = true := by
  have positive : (0 : Rat) < digits * (10 : Rat) ^ exponent :=
    mul_pos (by exact_mod_cast Nat.pos_of_ne_zero nonzero) (by positivity)
  cases negative with
  | false => exact iff_of_false (not_lt.mpr positive.le) Bool.false_ne_true
  | true => exact iff_of_true (neg_neg_of_pos positive) rfl

/-- A numeral is read as the number nearest to what it denotes. -/
theorem ofDecimal_eq_nearest (negative : Bool) (digits : Nat) (exponent : Int) :
    ofDecimal negative digits exponent = nearest (decimalValue negative digits exponent) := by
  unfold ofDecimal
  by_cases zero : digits = 0
  · rw [if_pos zero, nearest_of_abs_lt]
    rw [abs_decimalValue, zero, Nat.cast_zero, zero_mul]
    positivity
  · rw [if_neg zero]
    by_cases large : 400 < exponent
    · rw [if_pos large, nearest_of_le_abs (overflowBound_le_abs_decimalValue negative zero large)]
      simp only [decimalValue_neg_iff zero, Bool.decide_eq_true]
    · rw [if_neg large]
      by_cases small : (digits.log2 : Int) + 1 + 3 * exponent < -1100
      · rw [if_pos small, nearest_of_abs_lt (abs_decimalValue_lt negative small)]
      · rw [if_neg small]
        rfl

end Number

end TapeDebugger
