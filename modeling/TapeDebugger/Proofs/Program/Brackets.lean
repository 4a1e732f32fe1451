import TapeDebugger.Program.Operator
import Mathlib.Data.List.Basic

/-!
# Brackets in a row of operators

The level in front of an operator is the number of opening brackets before it
less that of the closing ones.  Two brackets are partners if what stands between
them is balanced.  Partners are unique, and two pairs never cross.
-/

namespace TapeDebugger

namespace Brackets

/-! ## Levels -/

/-- The number of opening brackets less that of the closing ones. -/
def depth (row : List Operator) : Int :=
  row.count .loopStart - row.count .loopEnd

/-- The depth of what stands in front of an index. -/
def level (row : List Operator) (index : Nat) : Int :=
  depth (row.take index)

@[simp] theorem depth_nil : depth [] = 0 := rfl

@[simp] theorem depth_append (first second : List Operator) :
    depth (first ++ second) = depth first + depth second := by
  simp only [depth, List.count_append]
  omega

theorem depth_cons (operator : Operator) (row : List Operator) :
    depth (operator :: row) = depth [operator] + depth row :=
  depth_append [operator] row

@[simp] theorem depth_loopStart : depth [.loopStart] = 1 := rfl

@[simp] theorem depth_loopEnd : depth [.loopEnd] = -1 := rfl

/-- An operator that stands alone keeps the depth. -/
theorem depth_alone {operator : Operator} (notStart : operator ≠ .loopStart)
    (notEnd : operator ≠ .loopEnd) : depth [operator] = 0 := by
  cases operator <;> first | rfl | contradiction

@[simp] theorem level_zero (row : List Operator) : level row 0 = 0 := by
  simp [level]

theorem level_of_length_le {row : List Operator} {index : Nat} (h : row.length ≤ index) :
    level row index = depth row := by
  rw [level, List.take_of_length_le h]

theorem level_succ {row : List Operator} {index : Nat} {operator : Operator}
    (h : row[index]? = some operator) :
    level row (index + 1) = level row index + depth [operator] := by
  simp [level, List.take_add_one, h]

theorem level_append_of_le {row more : List Operator} {index : Nat} (h : index ≤ row.length) :
    level (row ++ more) index = level row index := by
  rw [level, level, List.take_append_of_le_length h]

/-- The levels of a second row go on from the depth of the first. -/
theorem level_append_add (row more : List Operator) (index : Nat) :
    level (row ++ more) (row.length + index) = depth row + level more index := by
  rw [level, List.take_length_add_append, depth_append, level]

/-- Behind the first operator of a row the levels are those of the rest, moved by its depth. -/
theorem level_cons_succ (operator : Operator) (row : List Operator) (index : Nat) :
    level (operator :: row) (index + 1) = depth [operator] + level row index := by
  have whole := level_append_add [operator] row index
  rw [List.length_singleton, Nat.add_comm] at whole
  exact whole

/-- The levels of a part of a row are those of the row less the level in front of the part. -/
theorem level_part {row : List Operator} {first last : Nat} (h : first ≤ last) (index : Nat) :
    level ((row.take last).drop first) index =
      level row (min (first + index) last) - level row first := by
  have bound : first ≤ min (first + index) last := by omega
  have whole := List.take_append_drop first (row.take (min (first + index) last))
  rw [List.take_take, Nat.min_eq_left bound] at whole
  have split := congrArg depth whole
  rw [depth_append] at split
  rw [level, List.take_drop, List.take_take, level, level]
  omega

theorem depth_part {row : List Operator} {first last : Nat} (h : first ≤ last) :
    depth ((row.take last).drop first) = level row last - level row first := by
  have inner : level ((row.take last).drop first) last =
      level row (min (first + last) last) - level row first := level_part h last
  have short : ((row.take last).drop first).length ≤ last := by
    rw [List.length_drop, List.length_take]
    omega
  rw [level_of_length_le short, Nat.min_eq_right (by omega)] at inner
  exact inner

/-! ## Balanced rows -/

/-- No bracket closes before one opens, and in the end none is open. -/
structure Balanced (row : List Operator) : Prop where
  nonneg : ∀ index, 0 ≤ level row index
  closed : depth row = 0

theorem Balanced.append {first second : List Operator} (left : Balanced first)
    (right : Balanced second) : Balanced (first ++ second) := by
  constructor
  · intro index
    rcases Nat.le_total index first.length with inside | behind
    · rw [level_append_of_le inside]
      exact left.nonneg index
    · obtain ⟨rest, rfl⟩ := Nat.exists_eq_add_of_le behind
      rw [level_append_add, left.closed, Int.zero_add]
      exact right.nonneg rest
  · rw [depth_append, left.closed, right.closed, Int.zero_add]

theorem Balanced.wrap {inner : List Operator} (balanced : Balanced inner) :
    Balanced (.loopStart :: (inner ++ [.loopEnd])) := by
  constructor
  · intro index
    cases index with
    | zero => simp
    | succ index =>
        rw [level_cons_succ, depth_loopStart]
        rcases Nat.lt_or_ge inner.length index with behind | inside
        · rw [level_of_length_le (by simp; omega), depth_append, balanced.closed, depth_loopEnd]
          decide
        · rw [level_append_of_le inside]
          have above := balanced.nonneg index
          omega
  · rw [depth_cons, depth_append, balanced.closed]
    decide

/-- A part of a row is balanced if the level comes back and is never below that in front of it. -/
theorem balanced_part_iff {row : List Operator} {first last : Nat} (h : first ≤ last) :
    Balanced ((row.take last).drop first) ↔
      (∀ index, first ≤ index → index ≤ last → level row first ≤ level row index) ∧
        level row last = level row first := by
  constructor
  · intro balanced
    constructor
    · intro index above below
      have inside := balanced.nonneg (index - first)
      rw [level_part h, show min (first + (index - first)) last = index by omega] at inside
      omega
    · have closed := balanced.closed
      rw [depth_part h] at closed
      omega
  · rintro ⟨above, back⟩
    constructor
    · intro index
      have inside := above (min (first + index) last) (by omega) (by omega)
      rw [level_part h]
      omega
    · rw [depth_part h]
      omega

/-! ## Pairs -/

/-- The brackets at two indices are partners. -/
structure Pair (row : List Operator) (first last : Nat) : Prop where
  lt : first < last
  opens : row[first]? = some .loopStart
  closes : row[last]? = some .loopEnd
  inner : Balanced ((row.take last).drop (first + 1))

namespace Pair

variable {row : List Operator} {first last other : Nat}

theorem last_lt (pair : Pair row first last) : last < row.length :=
  (List.getElem?_eq_some_iff.mp pair.closes).1

theorem level_lt (pair : Pair row first last) {index : Nat} (above : first < index)
    (below : index ≤ last) : level row first < level row index := by
  have within : first + 1 ≤ last := pair.lt
  have inside := ((balanced_part_iff within).mp pair.inner).1 index above below
  have entered := level_succ pair.opens
  rw [depth_loopStart] at entered
  omega

theorem level_behind (pair : Pair row first last) : level row (last + 1) = level row first := by
  have within : first + 1 ≤ last := pair.lt
  have back := ((balanced_part_iff within).mp pair.inner).2
  have entered := level_succ pair.opens
  have left := level_succ pair.closes
  rw [depth_loopStart] at entered
  rw [depth_loopEnd] at left
  omega

/-- The bracket where the level first comes back is the partner. -/
theorem of_levels (opens : row[first]? = some .loopStart) (closes : row[last]? = some .loopEnd)
    (lt : first < last)
    (above : ∀ index, first < index → index ≤ last → level row first < level row index)
    (back : level row (last + 1) = level row first) : Pair row first last := by
  have entered := level_succ opens
  have left := level_succ closes
  rw [depth_loopStart] at entered
  rw [depth_loopEnd] at left
  have within : first + 1 ≤ last := lt
  refine ⟨lt, opens, closes, (balanced_part_iff within).mpr ⟨?_, by omega⟩⟩
  intro index low high
  have inside := above index low high
  omega

theorem last_unique (pair : Pair row first last) (another : Pair row first other) :
    last = other := by
  rcases Nat.lt_trichotomy last other with before | same | behind
  · have inside := another.level_lt (Nat.lt_succ_of_lt pair.lt) before
    rw [pair.level_behind] at inside
    omega
  · exact same
  · have inside := pair.level_lt (Nat.lt_succ_of_lt another.lt) behind
    rw [another.level_behind] at inside
    omega

theorem first_unique (pair : Pair row first last) (another : Pair row other last) :
    first = other := by
  have behind := pair.level_behind
  rw [another.level_behind] at behind
  rcases Nat.lt_trichotomy first other with before | same | after
  · have inside := pair.level_lt before (Nat.le_of_lt another.lt)
    omega
  · exact same
  · have inside := another.level_lt after (Nat.le_of_lt pair.lt)
    omega

/-- Two pairs never cross: the one that opens later lies behind the other or within it. -/
theorem disjoint_or_nested {first' last' : Nat} (pair : Pair row first last)
    (another : Pair row first' last') (later : first < first') :
    last < first' ∨ last' < last := by
  by_contra crossing
  rw [not_or, Nat.not_lt, Nat.not_lt] at crossing
  have notSame : first' ≠ last := by
    intro same
    have opens := another.opens
    rw [same, pair.closes] at opens
    cases opens
  have lastNe : last ≠ last' := by
    intro same
    have firstSame := pair.first_unique (same ▸ another)
    omega
  -- The first pair would have to come back to its level inside the second one.
  have low := pair.level_lt later crossing.1
  have high : level row first' < level row (last + 1) := another.level_lt (by omega) (by omega)
  rw [pair.level_behind] at high
  omega

theorem append (pair : Pair row first last) (more : List Operator) :
    Pair (row ++ more) first last := by
  have bound := pair.last_lt
  have lt := pair.lt
  refine ⟨lt, ?_, ?_, ?_⟩
  · rw [List.getElem?_append_left (by omega)]
    exact pair.opens
  · rw [List.getElem?_append_left bound]
    exact pair.closes
  · rw [List.take_append_of_le_length (by omega)]
    exact pair.inner

theorem of_append {more : List Operator} (pair : Pair (row ++ more) first last)
    (bound : last < row.length) : Pair row first last := by
  have lt := pair.lt
  have opens := pair.opens
  have closes := pair.closes
  have inner := pair.inner
  rw [List.getElem?_append_left (by omega)] at opens
  rw [List.getElem?_append_left bound] at closes
  rw [List.take_append_of_le_length (by omega)] at inner
  exact ⟨lt, opens, closes, inner⟩

end Pair

end Brackets

end TapeDebugger
