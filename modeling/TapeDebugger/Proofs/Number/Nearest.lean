import TapeDebugger.Proofs.Number.Order

/-!
# Nearest numbers

A finite number has a significand of 53 bits and an exponent in its range.  What a rational
is rounded to is one that no other is nearer to, and of two that are equally near the one
with the even significand; from halfway beyond the greatest finite number on it is infinite.
Rounding goes with negation, and it keeps the order of numbers.
-/

namespace TapeDebugger

namespace Number

/-! ## To an integer -/

/-- The nearest integer is at most a half away, and even if it is a half away. -/
theorem roundHalfEven_spec (value : Rat) :
    |value - roundHalfEven value| ≤ 1 / 2 ∧
      (|value - roundHalfEven value| = 1 / 2 → 2 ∣ roundHalfEven value) := by
  have below : (value.floor : Rat) ≤ value := value.floor_le
  have above : value < value.floor + 1 := by exact_mod_cast value.lt_floor_add_one
  have toAbove : |value - ((value.floor + 1 : Int) : Rat)| = value.floor + 1 - value := by
    push_cast
    rw [abs_of_neg (by linarith)]
    ring
  unfold roundHalfEven
  dsimp only
  split_ifs with nearer farther even
  · rw [abs_of_nonneg (by linarith)]
    exact ⟨nearer.le, fun half => absurd half nearer.ne⟩
  · rw [toAbove]
    exact ⟨by linarith, fun half => by linarith⟩
  · rw [abs_of_nonneg (by linarith)]
    exact ⟨not_lt.mp farther, fun _ => by omega⟩
  · rw [toAbove]
    exact ⟨by linarith, fun _ => by omega⟩

variable {value other : Rat} {integer : Int}

/-- Another integer is at least as far away as the rest of the way to it. -/
theorem one_le_distances (different : integer ≠ roundHalfEven value) :
    1 ≤ |value - integer| + |value - roundHalfEven value| := by
  have apart : (1 : Rat) ≤ |((integer - roundHalfEven value : Int) : Rat)| := by
    exact_mod_cast Int.one_le_abs (sub_ne_zero.mpr different)
  calc (1 : Rat) ≤ |((integer - roundHalfEven value : Int) : Rat)| := apart
    _ = |(value - roundHalfEven value) - (value - integer)| := by
        push_cast
        congr 1
        ring
    _ ≤ |value - roundHalfEven value| + |value - integer| := abs_sub _ _
    _ = |value - integer| + |value - roundHalfEven value| := add_comm _ _

theorem roundHalfEven_closest (value : Rat) (integer : Int) :
    |value - roundHalfEven value| ≤ |value - integer| := by
  by_cases same : integer = roundHalfEven value
  · rw [same]
  · have distances := one_le_distances same
    have half := (roundHalfEven_spec value).1
    linarith

theorem roundHalfEven_even (different : integer ≠ roundHalfEven value)
    (tie : |value - integer| = |value - roundHalfEven value|) : 2 ∣ roundHalfEven value := by
  have distances := one_le_distances different
  have half := (roundHalfEven_spec value).1
  exact (roundHalfEven_spec value).2 (by linarith)

/-- Of the integers that are a half away at most, only one is even. -/
theorem eq_of_even_near {one another : Int} (near : |value - one| ≤ 1 / 2)
    (near' : |value - another| ≤ 1 / 2) (even : 2 ∣ one) (even' : 2 ∣ another) :
    one = another := by
  have apart : |((one - another : Int) : Rat)| ≤ 1 := by
    calc |((one - another : Int) : Rat)| = |(value - another) - (value - one)| := by
          push_cast
          congr 1
          ring
      _ ≤ |value - another| + |value - one| := abs_sub _ _
      _ ≤ 1 := by linarith
  have apart : |one - another| ≤ 1 := by exact_mod_cast apart
  rw [abs_le] at apart
  omega

theorem roundHalfEven_neg (value : Rat) : roundHalfEven (-value) = -roundHalfEven value := by
  by_contra different
  have differs : -roundHalfEven (-value) ≠ roundHalfEven value := fun same => different (by omega)
  have mirrored : |value - ((-roundHalfEven (-value) : Int) : Rat)| =
      |-value - roundHalfEven (-value)| := by
    rw [← abs_neg]
    push_cast
    congr 1
    ring
  have distances := one_le_distances differs
  obtain ⟨half, even⟩ := roundHalfEven_spec value
  obtain ⟨half', even'⟩ := roundHalfEven_spec (-value)
  -- both are a half away, and so both are even
  have both : 2 ∣ -roundHalfEven (-value) := (even' (by linarith)).neg_right
  exact differs (eq_of_even_near (mirrored.trans_le half') half both (even (by linarith)))

/-! ## Numbers of 53 bits -/

/-- A value with a significand of 53 bits and an exponent, as finite numbers have them. -/
structure Binary (value : Rat) (significand exponent : Int) : Prop where
  value_eq : value = significand * (2 : Rat) ^ exponent
  normal : 2 ^ 52 ≤ |significand| ∨ exponent = -1074
  bounded : |significand| < 2 ^ 53
  least : -1074 ≤ exponent
  greatest : exponent ≤ 971

theorem Binary.abs_lt {significand exponent : Int} (binary : Binary value significand exponent) :
    |value| < ((2 ^ 53 : Int) : Rat) * (2 : Rat) ^ exponent := by
  have bounded : ((|significand| : Int) : Rat) < ((2 ^ 53 : Int) : Rat) :=
    Int.cast_lt.mpr binary.bounded
  rw [Int.cast_abs] at bounded
  have positive : (0 : Rat) < (2 : Rat) ^ exponent := by positivity
  rw [binary.value_eq, abs_mul, abs_of_pos positive]
  exact mul_lt_mul_of_pos_right bounded positive

theorem binary_zero : Binary 0 0 (-1074) :=
  ⟨by norm_num, .inr rfl, by norm_num, le_rfl, by norm_num⟩

/-- Halfway from the greatest finite number to the one that would be next. -/
def overflowThreshold : Rat :=
  (2 : Rat) ^ (1024 : Int) - (2 : Rat) ^ (970 : Int)

/--
A number is the one nearest to a value: of two finite ones at the same distance it is the
one with the even significand, and an infinite one stands for all that is too large.
-/
inductive IsNearest (value : Rat) : Number → Prop where
  | finite {found : Rat} {significand exponent : Int}
      (inRange : |value| < overflowThreshold) (binary : Binary found significand exponent)
      (closest : ∀ other significand' exponent', Binary other significand' exponent' →
        |value - found| ≤ |value - other|)
      (even : ∀ other significand' exponent', Binary other significand' exponent' →
        other ≠ found → |value - other| = |value - found| → 2 ∣ significand) :
      IsNearest value (.finite found)
  | infinite (tooLarge : overflowThreshold ≤ |value|) : IsNearest value (.infinite (value < 0))

/-! ## On the grid of a value -/

/-- The significand before it is cut to its 53 bits. -/
def scaled (value : Rat) : Int :=
  roundHalfEven (value / unit value)

theorem round_eq (value : Rat) : round value = scaled value * unit value :=
  rfl

theorem unit_eq (value : Rat) : unit value = (2 : Rat) ^ unitExponent value :=
  rfl

/-- Distances on the grid of a value are distances of integers in its units. -/
theorem distance_eq (value : Rat) (count : Int) :
    |value - count * unit value| = |value / unit value - count| * unit value := by
  have positive := unit_pos value
  have factored : value - count * unit value = (value / unit value - count) * unit value := by
    rw [sub_mul, div_mul_cancel₀ _ positive.ne']
  rw [factored, abs_mul, abs_of_pos positive]

theorem round_closest_of_multiple (value : Rat) (count : Int) :
    |value - round value| ≤ |value - count * unit value| := by
  rw [round_eq, distance_eq, distance_eq]
  exact mul_le_mul_of_nonneg_right (roundHalfEven_closest _ count) (unit_pos value).le

theorem even_scaled {count : Int} (different : count * unit value ≠ round value)
    (tie : |value - count * unit value| = |value - round value|) : 2 ∣ scaled value := by
  have differs : count ≠ scaled value := by
    rintro rfl
    exact different rfl
  rw [round_eq, distance_eq, distance_eq] at tie
  exact roundHalfEven_even differs (mul_right_cancel₀ (unit_pos value).ne' tie)

/-- A value with a coarse unit is at least the least value of that unit. -/
theorem le_abs_of_coarse (nonzero : value ≠ 0) (coarse : -1074 < unitExponent value) :
    ((2 ^ 52 : Int) : Rat) * unit value ≤ |value| := by
  have normal : -1022 ≤ binade value := by
    unfold unitExponent at coarse
    omega
  rw [least_of_binade normal]
  exact (binade_bounds nonzero).1

/-- A value is below what takes one bit more than a significand has. -/
theorem abs_lt_of_nonzero (nonzero : value ≠ 0) :
    |value| < ((2 ^ 53 : Int) : Rat) * unit value := by
  have exponent_le : binade value + 1 ≤ 53 + unitExponent value := by
    unfold unitExponent
    omega
  calc |value| < (2 : Rat) ^ (binade value + 1) := (binade_bounds nonzero).2
    _ ≤ (2 : Rat) ^ (53 + unitExponent value) := zpow_le_zpow_right₀ one_le_two exponent_le
    _ = ((2 ^ 53 : Int) : Rat) * unit value := by
        rw [unit_eq, zpow_add₀ two_ne_zero]
        norm_num

/-- A number off the grid of a value is farther away than one on it. -/
theorem exists_multiple_nearer {significand exponent : Int} (nonzero : value ≠ 0)
    (binary : Binary other significand exponent) (finer : exponent < unitExponent value) :
    ∃ count : Int, |value - count * unit value| < |value - other| := by
  have least := le_abs_of_coarse nonzero (binary.least.trans_lt finer)
  have small : |other| < ((2 ^ 52 : Int) : Rat) * unit value := by
    calc |other| < ((2 ^ 53 : Int) : Rat) * (2 : Rat) ^ exponent := binary.abs_lt
      _ = (2 : Rat) ^ (53 + exponent) := by
          rw [zpow_add₀ two_ne_zero]
          norm_num
      _ ≤ (2 : Rat) ^ (52 + unitExponent value) := zpow_le_zpow_right₀ one_le_two (by omega)
      _ = ((2 ^ 52 : Int) : Rat) * unit value := by
          rw [unit_eq, zpow_add₀ two_ne_zero]
          norm_num
  obtain ⟨above, below⟩ := abs_lt.mp small
  -- the least value of the unit lies between the two, on the side of the value
  rcases le_or_gt value 0 with nonpos | positive
  · refine ⟨-2 ^ 52, ?_⟩
    rw [abs_of_nonpos nonpos] at least
    push_cast at least above ⊢
    rw [abs_of_nonpos (by linarith), abs_of_neg (by linarith)]
    linarith
  · refine ⟨2 ^ 52, ?_⟩
    rw [abs_of_pos positive] at least
    rw [abs_of_nonneg (by linarith), abs_of_pos (by linarith)]
    linarith

theorem multiple_of_coarse {significand exponent : Int}
    (binary : Binary other significand exponent) (coarse : unitExponent value ≤ exponent) :
    other =
      ((significand * 2 ^ (exponent - unitExponent value).toNat : Int) : Rat) * unit value := by
  rw [binary.value_eq, unit_eq, Int.cast_mul, mul_assoc, Int.cast_pow, Int.cast_ofNat,
    ← zpow_natCast, ← zpow_add₀ two_ne_zero, Int.toNat_of_nonneg (by omega), sub_add_cancel]

/-- A number is on the grid of a value, or farther away than one that is on it. -/
theorem on_grid_or_farther {significand exponent : Int} (nonzero : value ≠ 0)
    (binary : Binary other significand exponent) :
    (∃ count : Int, other = count * unit value) ∨
      ∃ count : Int, |value - count * unit value| < |value - other| := by
  rcases le_or_gt (unitExponent value) exponent with coarse | finer
  · exact .inl ⟨_, multiple_of_coarse binary coarse⟩
  · exact .inr (exists_multiple_nearer nonzero binary finer)

theorem round_closest {significand exponent : Int} (nonzero : value ≠ 0)
    (binary : Binary other significand exponent) : |value - round value| ≤ |value - other| := by
  rcases on_grid_or_farther nonzero binary with ⟨count, rfl⟩ | ⟨count, nearer⟩
  · exact round_closest_of_multiple value count
  · exact (round_closest_of_multiple value count).trans nearer.le

theorem even_of_tie {significand exponent : Int} (nonzero : value ≠ 0)
    (binary : Binary other significand exponent) (different : other ≠ round value)
    (tie : |value - other| = |value - round value|) : 2 ∣ scaled value := by
  rcases on_grid_or_farther nonzero binary with ⟨count, rfl⟩ | ⟨count, nearer⟩
  · exact even_scaled different tie
  · rw [tie] at nearer
    exact absurd (round_closest_of_multiple value count) (not_le.mpr nearer)

/-! ## Significands -/

theorem le_abs_scaled (nonzero : value ≠ 0) (coarse : -1074 < unitExponent value) :
    2 ^ 52 ≤ |scaled value| := by
  have least := le_abs_of_coarse nonzero coarse
  rcases le_or_gt value 0 with nonpos | positive
  · rw [abs_of_nonpos nonpos] at least
    have quotient : value / unit value ≤ ((-2 ^ 52 : Int) : Rat) := by
      rw [div_le_iff₀ (unit_pos value)]
      push_cast at least ⊢
      linarith
    have rounded : scaled value ≤ -2 ^ 52 := roundHalfEven_le quotient
    exact le_abs.mpr (.inr (by omega))
  · rw [abs_of_pos positive] at least
    have rounded : 2 ^ 52 ≤ scaled value :=
      le_roundHalfEven ((le_div_iff₀ (unit_pos value)).mpr least)
    exact le_abs.mpr (.inl rounded)

theorem abs_scaled_le (nonzero : value ≠ 0) : |scaled value| ≤ 2 ^ 53 := by
  obtain ⟨above, below⟩ := abs_lt.mp (abs_lt_of_nonzero nonzero)
  rw [abs_le]
  constructor
  · apply le_roundHalfEven
    rw [le_div_iff₀ (unit_pos value)]
    push_cast at above ⊢
    linarith
  · exact roundHalfEven_le ((div_le_iff₀ (unit_pos value)).mpr below.le)

/-- What does not fit in 53 bits is the least value of the next binade. -/
theorem exists_binary_round (nonzero : value ≠ 0) (exponent_le : unitExponent value ≤ 971)
    (fits : |scaled value| = 2 ^ 53 → unitExponent value < 971) :
    ∃ significand exponent, Binary (round value) significand exponent ∧
      (2 ∣ scaled value → 2 ∣ significand) := by
  have least : -1074 ≤ unitExponent value := le_max_left _ _
  rcases (abs_scaled_le nonzero).lt_or_eq with small | full
  · refine ⟨scaled value, unitExponent value, ⟨rfl, ?_, small, least, exponent_le⟩, id⟩
    rcases least.lt_or_eq with coarse | finest
    · exact .inl (le_abs_scaled nonzero coarse)
    · exact .inr finest.symm
  · have next := fits full
    obtain ⟨half, scaled_eq, full_half⟩ : ∃ half, scaled value = half * 2 ∧ |half| = 2 ^ 52 := by
      rcases (abs_eq (by norm_num)).mp full with same | same
      · exact ⟨2 ^ 52, by rw [same]; norm_num, by norm_num⟩
      · exact ⟨-2 ^ 52, by rw [same]; norm_num, by norm_num⟩
    refine ⟨half, unitExponent value + 1, ⟨?_, .inl full_half.ge, ?_, by omega, by omega⟩, ?_⟩
    · rw [round_eq, scaled_eq, unit_eq, zpow_add₀ two_ne_zero]
      push_cast
      ring
    · rw [full_half]
      norm_num
    · intro _
      rcases (abs_eq (by norm_num)).mp full_half with same | same
      · exact ⟨2 ^ 51, by rw [same]; norm_num⟩
      · exact ⟨-2 ^ 51, by rw [same]; norm_num⟩

/-! ## The end of the range -/

/-- Rounding moves a value by half a unit at most. -/
theorem abs_sub_round_le (value : Rat) : |value - round value| ≤ unit value / 2 := by
  rw [round_eq, distance_eq]
  calc |value / unit value - scaled value| * unit value
      ≤ 1 / 2 * unit value :=
        mul_le_mul_of_nonneg_right (roundHalfEven_spec _).1 (unit_pos value).le
    _ = unit value / 2 := by ring

/-- The unit of the greatest finite numbers. -/
def lastUnit : Rat :=
  (2 : Rat) ^ (971 : Int)

theorem lastUnit_pos : 0 < lastUnit := by
  unfold lastUnit
  positivity

theorem overflowBound_eq : overflowBound = ((2 ^ 53 : Int) : Rat) * lastUnit := by
  rw [overflowBound, lastUnit, show (1024 : Int) = 53 + 971 by rfl, zpow_add₀ two_ne_zero]
  norm_num

theorem overflowBound_pos : 0 < overflowBound := by
  unfold overflowBound
  positivity

theorem overflowThreshold_eq : overflowThreshold = overflowBound - lastUnit / 2 := by
  rw [overflowThreshold, overflowBound, lastUnit, show (970 : Int) = 971 - 1 by rfl,
    zpow_sub_one₀ two_ne_zero]
  rfl

theorem overflowThreshold_lt : overflowThreshold < overflowBound := by
  rw [overflowThreshold_eq]
  exact sub_lt_self _ (half_pos lastUnit_pos)

theorem Binary.abs_lt_overflowBound {significand exponent : Int}
    (binary : Binary value significand exponent) : |value| < overflowBound :=
  calc |value| < ((2 ^ 53 : Int) : Rat) * (2 : Rat) ^ exponent := binary.abs_lt
    _ ≤ ((2 ^ 53 : Int) : Rat) * lastUnit :=
        mul_le_mul_of_nonneg_left (zpow_le_zpow_right₀ one_le_two binary.greatest) (by norm_num)
    _ = overflowBound := overflowBound_eq.symm

theorem unitExponent_le (nonzero : value ≠ 0) (small : |value| < overflowBound) :
    unitExponent value ≤ 971 := by
  have powers : (2 : Rat) ^ binade value < (2 : Rat) ^ (1024 : Int) :=
    (binade_bounds nonzero).1.trans_lt small
  have binade_lt := (zpow_lt_zpow_iff_right₀ one_lt_two).mp powers
  unfold unitExponent
  omega

/-- Below the threshold no significand is rounded out of the range. -/
theorem fits_of_lt (small : |value| < overflowThreshold) (full : |scaled value| = 2 ^ 53) :
    unitExponent value ≠ 971 := by
  intro last
  have unit_last : unit value = lastUnit := by rw [unit_eq, last, lastUnit]
  have rounded : |round value| = overflowBound := by
    rw [round_eq, abs_mul, abs_of_pos (unit_pos value), ← Int.cast_abs, full, unit_last,
      overflowBound_eq]
  have reach := (abs_sub_abs_le_abs_sub (round value) value).trans
    ((abs_sub_comm _ _).trans_le (abs_sub_round_le value))
  rw [rounded, unit_last] at reach
  rw [overflowThreshold_eq] at small
  linarith

theorem exists_binary_of_lt (nonzero : value ≠ 0) (small : |value| < overflowThreshold) :
    ∃ significand exponent, Binary (round value) significand exponent ∧
      (2 ∣ scaled value → 2 ∣ significand) := by
  have exponent_le := unitExponent_le nonzero (small.trans overflowThreshold_lt)
  exact exists_binary_round nonzero exponent_le fun full =>
    lt_of_le_of_ne exponent_le (fits_of_lt small full)

theorem round_zero : round 0 = 0 := by
  have kept : round ((0 : Int) : Rat) = ((0 : Int) : Rat) := round_intCast (Nat.zero_le _)
  simpa using kept

theorem abs_round_lt (small : |value| < overflowThreshold) : |round value| < overflowBound := by
  by_cases zero : value = 0
  · rw [zero, round_zero, abs_zero]
    exact overflowBound_pos
  · obtain ⟨significand, exponent, binary, -⟩ := exists_binary_of_lt zero small
    exact binary.abs_lt_overflowBound

/-! ## Opposites and the threshold -/

theorem binade_neg (value : Rat) : binade (-value) = binade value := by
  rw [binade, binade, Rat.num_neg_eq_neg_num, Rat.neg_den, Int.natAbs_neg, ratAbs_eq_abs,
    ratAbs_eq_abs, abs_neg]

theorem unit_neg (value : Rat) : unit (-value) = unit value := by
  rw [unit, unit, binade_neg]

theorem round_neg (value : Rat) : round (-value) = -round value := by
  rw [round, round, unit_neg, neg_div, roundHalfEven_neg, Int.cast_neg, neg_mul]

/-- The threshold itself is a tie, and goes to what is beyond the range. -/
theorem round_overflowThreshold : round overflowThreshold = overflowBound := by
  have threshold_eq : overflowThreshold = ((2 ^ 53 : Int) : Rat) * lastUnit - lastUnit / 2 := by
    rw [overflowThreshold_eq, overflowBound_eq]
  have unit_pos := lastUnit_pos
  have above : (2 : Rat) ^ (1023 : Int) ≤ overflowThreshold := by
    have least : (2 : Rat) ^ (1023 : Int) = ((2 ^ 52 : Int) : Rat) * lastUnit := by
      rw [lastUnit, show (1023 : Int) = 52 + 971 by rfl, zpow_add₀ two_ne_zero]
      norm_num
    rw [least, threshold_eq]
    push_cast
    linarith
  have positive : 0 < overflowThreshold := lt_of_lt_of_le (by positivity) above
  obtain ⟨lower, upper⟩ := binade_bounds positive.ne'
  rw [abs_of_pos positive] at lower upper
  have binade_lt := (zpow_lt_zpow_iff_right₀ one_lt_two).mp (lower.trans_lt overflowThreshold_lt)
  have lt_binade := (zpow_lt_zpow_iff_right₀ one_lt_two).mp (above.trans_lt upper)
  have exponent_eq : unitExponent overflowThreshold = 971 := by
    unfold unitExponent
    omega
  have unit_last : unit overflowThreshold = lastUnit := by rw [unit_eq, exponent_eq, lastUnit]
  have quotient : overflowThreshold / unit overflowThreshold = 2 ^ 53 - 1 / 2 := by
    rw [unit_last, div_eq_iff unit_pos.ne', threshold_eq]
    push_cast
    ring
  have tie : roundHalfEven (2 ^ 53 - 1 / 2) = 2 ^ 53 := by decide +kernel
  rw [round, quotient, tie, unit_last, overflowBound_eq]

theorem le_abs_round (large : overflowThreshold ≤ |value|) : overflowBound ≤ |round value| := by
  rcases le_or_gt value 0 with nonpos | positive
  · rw [abs_of_nonpos nonpos] at large
    have rounded := round_mono large
    rw [round_overflowThreshold, round_neg] at rounded
    exact rounded.trans (neg_le_abs _)
  · rw [abs_of_pos positive] at large
    have rounded := round_mono large
    rw [round_overflowThreshold] at rounded
    exact rounded.trans (le_abs_self _)

/-! ## Nearest numbers -/

theorem nearest_of_lt (small : |value| < overflowThreshold) :
    nearest value = .finite (round value) := by
  rw [nearest, ratAbs_eq_abs, if_neg (not_le.mpr (abs_round_lt small))]

theorem nearest_of_threshold_le (large : overflowThreshold ≤ |value|) :
    nearest value = .infinite (value < 0) := by
  have rounded := le_abs_round large
  have nonzero : round value ≠ 0 := by
    rw [← abs_pos]
    exact overflowBound_pos.trans_le rounded
  have signs : round value < 0 ↔ value < 0 := by
    rcases lt_or_ge value 0 with negative | nonneg
    · exact iff_of_true (lt_of_le_of_ne (round_nonpos negative.le) nonzero) negative
    · exact iff_of_false (not_lt.mpr (round_nonneg nonneg)) (not_lt.mpr nonneg)
  rw [nearest, ratAbs_eq_abs, if_pos rounded]
  simp only [signs]

/-- What a rational is rounded to is the number nearest to it. -/
theorem isNearest_nearest (value : Rat) : IsNearest value (nearest value) := by
  rcases lt_or_ge |value| overflowThreshold with small | large
  · rw [nearest_of_lt small]
    by_cases zero : value = 0
    · subst zero
      rw [round_zero]
      refine .finite small binary_zero ?_ fun _ _ _ _ _ _ => dvd_zero 2
      intro other _ _ _
      rw [sub_zero, abs_zero]
      exact abs_nonneg _
    · obtain ⟨significand, exponent, binary, even⟩ := exists_binary_of_lt zero small
      exact .finite small binary (fun _ _ _ otherwise => round_closest zero otherwise)
        fun _ _ _ otherwise different tie => even (even_of_tie zero otherwise different tie)
  · rw [nearest_of_threshold_le large]
    exact .infinite large

/-- Two multiples of a unit that are equally near and both even are one. -/
theorem multiple_eq_round {count : Int} (even : 2 ∣ count)
    (tie : |value - count * unit value| = |value - round value|) :
    count * unit value = round value := by
  by_contra different
  have even' := even_scaled different tie
  have half : |value / unit value - scaled value| ≤ 1 / 2 := (roundHalfEven_spec _).1
  rw [round_eq, distance_eq, distance_eq] at tie
  have tie := mul_right_cancel₀ (unit_pos value).ne' tie
  have same : count = scaled value := eq_of_even_near (tie.trans_le half) half even even'
  exact different (by rw [same, round_eq])

/-- No other number is as near as what a value is rounded to, if it is as even. -/
theorem eq_round_of_even {significand exponent : Int} (nonzero : value ≠ 0)
    (binary : Binary other significand exponent)
    (tie : |value - other| = |value - round value|)
    (even : other ≠ round value → 2 ∣ significand) : other = round value := by
  by_contra different
  have even := even different
  rcases le_or_gt (unitExponent value) exponent with coarse | finer
  · have multiple := multiple_of_coarse binary coarse
    rw [multiple] at tie different
    exact different (multiple_eq_round (even.mul_right _) tie)
  · obtain ⟨count, nearer⟩ := exists_multiple_nearer nonzero binary finer
    rw [tie] at nearer
    exact absurd (round_closest_of_multiple value count) (not_le.mpr nearer)

/-- There is one number that is nearest to a rational. -/
theorem isNearest_iff {number : Number} : IsNearest value number ↔ number = nearest value := by
  constructor
  · intro near
    cases near with
    | infinite tooLarge => rw [nearest_of_threshold_le tooLarge]
    | @finite found significand exponent inRange binary closest even =>
        rw [nearest_of_lt inRange]
        by_cases zero : value = 0
        · have found_eq : found = 0 := by
            simpa [zero] using closest 0 0 (-1074) binary_zero
          rw [zero, round_zero, found_eq]
        · obtain ⟨significand', exponent', rounded, -⟩ := exists_binary_of_lt zero inRange
          have tie : |value - found| = |value - round value| :=
            le_antisymm (closest _ _ _ rounded) (round_closest zero binary)
          rw [eq_round_of_even zero binary tie fun different =>
            even _ _ _ rounded (Ne.symm different) tie.symm]
  · rintro rfl
    exact isNearest_nearest value

/-! ## Negation and order -/

/-- The opposite number. -/
def negated : Number → Number
  | .nan => .nan
  | .infinite negative => .infinite !negative
  | .finite value => .finite (-value)

theorem nearest_neg (value : Rat) : nearest (-value) = (nearest value).negated := by
  rcases lt_or_ge |value| overflowThreshold with small | large
  · rw [nearest_of_lt small, nearest_of_lt (by rwa [abs_neg]), round_neg, negated]
  · have nonzero : value ≠ 0 := by
      rintro rfl
      have bound := le_abs_round large
      rw [round_zero, abs_zero] at bound
      exact absurd bound (not_le.mpr overflowBound_pos)
    rw [nearest_of_threshold_le large, nearest_of_threshold_le (by rwa [abs_neg]), negated,
      ← decide_not]
    simp only [neg_lt_zero, not_lt, nonzero.symm.le_iff_lt]

/-- The order of numbers; what is not a number has no place in it. -/
inductive AtMost : Number → Number → Prop where
  | finite {value other : Rat} (le : value ≤ other) : AtMost (.finite value) (.finite other)
  | lowest (value : Rat) : AtMost (.infinite true) (.finite value)
  | highest (value : Rat) : AtMost (.finite value) (.infinite false)
  | infinite {negative negative' : Bool} (signs : negative' = true → negative = true) :
      AtMost (.infinite negative) (.infinite negative')

theorem nearest_mono (le : value ≤ other) : AtMost (nearest value) (nearest other) := by
  rcases lt_or_ge |value| overflowThreshold with small | large
  · rw [nearest_of_lt small]
    rcases lt_or_ge |other| overflowThreshold with small' | large'
    · rw [nearest_of_lt small']
      exact .finite (round_mono le)
    · have nonneg : ¬ other < 0 := by
        intro negative
        rw [abs_of_neg negative] at large'
        have below := (abs_lt.mp small).1
        linarith
      rw [nearest_of_threshold_le large', decide_eq_false nonneg]
      exact .highest _
  · rw [nearest_of_threshold_le large]
    rcases lt_or_ge |other| overflowThreshold with small' | large'
    · have negative : value < 0 := by
        by_contra nonneg
        rw [abs_of_nonneg (not_lt.mp nonneg)] at large
        have above := (abs_lt.mp small').2
        linarith
      rw [nearest_of_lt small', decide_eq_true negative]
      exact .lowest _
    · rw [nearest_of_threshold_le large']
      refine .infinite fun negative => ?_
      rw [decide_eq_true_eq] at negative ⊢
      exact le.trans_lt negative

end Number

end TapeDebugger
