import TapeDebugger.Proofs.Program.Brackets

/-!
# Brackets that wait for their partner

A stack holds the opening brackets of a row that are still open at its end.  An
opening bracket goes onto the stack, a closing one takes the top as its partner.
Beside the stack the targets of all brackets are kept: 0 for a bracket that
waits, the index of the partner for one that has been paired.
-/

namespace TapeDebugger

namespace Brackets

/-! ## Rows that grow at their end -/

variable {row : List Operator} {operator : Operator}

/-- An operator of a longer row is one of the row, or the one behind it. -/
theorem concat_cases {index : Nat} {found : Operator}
    (h : (row ++ [operator])[index]? = some found) :
    index < row.length ∧ row[index]? = some found ∨ index = row.length ∧ operator = found := by
  rcases Nat.lt_or_ge index row.length with inside | behind
  · rw [List.getElem?_append_left inside] at h
    exact Or.inl ⟨inside, h⟩
  · have bound := (List.getElem?_eq_some_iff.mp h).1
    have same : index = row.length := by simp at bound; omega
    subst same
    rw [List.getElem?_concat_length] at h
    exact Or.inr ⟨rfl, Option.some.inj h⟩

theorem level_concat (row : List Operator) (operator : Operator) :
    level (row ++ [operator]) (row.length + 1) = depth row + depth [operator] := by
  rw [level_of_length_le (by simp), depth_append]

theorem level_concat_cases (row : List Operator) (operator : Operator) (index : Nat) :
    level (row ++ [operator]) index = level row index ∨
      level (row ++ [operator]) index = depth row + depth [operator] := by
  rcases Nat.lt_or_ge row.length index with behind | inside
  · exact Or.inr (by rw [level_of_length_le (by simp; omega), depth_append])
  · exact Or.inl (level_append_of_le inside)

/-- An operator that closes nothing makes no pair. -/
theorem Pair.of_concat {first last : Nat} (pair : Pair (row ++ [operator]) first last)
    (notEnd : operator ≠ .loopEnd) : Pair row first last := by
  rcases concat_cases pair.closes with ⟨inside, _⟩ | ⟨_, same⟩
  · exact pair.of_append inside
  · exact absurd same notEnd

/-! ## Brackets that wait -/

/-- An opening bracket with `height` open ones around it, itself open to the end of the row. -/
structure Waits (row : List Operator) (height index : Nat) : Prop where
  opens : row[index]? = some .loopStart
  level_eq : level row index = height
  level_lt : ∀ later, index < later → later ≤ row.length → (height : Int) < level row later

namespace Waits

variable {height index : Nat}

theorem index_lt (waits : Waits row height index) : index < row.length :=
  (List.getElem?_eq_some_iff.mp waits.opens).1

theorem concat (waits : Waits row height index)
    (stays : (height : Int) < depth row + depth [operator]) :
    Waits (row ++ [operator]) height index := by
  have bound := waits.index_lt
  constructor
  · rw [List.getElem?_append_left bound]
    exact waits.opens
  · rw [level_append_of_le (Nat.le_of_lt bound)]
    exact waits.level_eq
  · intro later above below
    rcases Nat.lt_or_ge row.length later with behind | inside
    · rw [level_of_length_le (by simp; omega), depth_append]
      exact stays
    · rw [level_append_of_le inside]
      exact waits.level_lt later above inside

/-- A bracket that waits has no partner. -/
theorem not_pair (waits : Waits row height index) (last : Nat) : ¬ Pair row index last := by
  intro pair
  have bound := pair.last_lt
  have lt := pair.lt
  have above := waits.level_lt (last + 1) (by omega) (by omega)
  rw [pair.level_behind, waits.level_eq] at above
  omega

/-- At the top of the stack the closing bracket behind the row finds its partner. -/
theorem pair (waits : Waits row height index) (top : depth row = height + 1) :
    Pair (row ++ [.loopEnd]) index row.length := by
  have bound := waits.index_lt
  have start : level (row ++ [.loopEnd]) index = height := by
    rw [level_append_of_le (Nat.le_of_lt bound)]
    exact waits.level_eq
  refine Pair.of_levels ?_ List.getElem?_concat_length bound ?_ ?_
  · rw [List.getElem?_append_left bound]
    exact waits.opens
  · intro later above below
    rw [start, level_append_of_le below]
    exact waits.level_lt later above below
  · rw [level_concat, top, start, depth_loopEnd]
    omega

/-- Of two brackets that wait the one with more around it stands later. -/
theorem index_lt_of_height_lt {height' index' : Nat} (waits : Waits row height index)
    (another : Waits row height' index') (lt : height < height') : index < index' := by
  have bound := waits.index_lt
  rcases Nat.lt_trichotomy index index' with before | same | behind
  · exact before
  · have levels := another.level_eq
    rw [← same, waits.level_eq] at levels
    omega
  · have above := another.level_lt index behind (Nat.le_of_lt bound)
    rw [waits.level_eq] at above
    omega

end Waits

/-! ## The stack -/

/-- The stack of the brackets of a row that wait, the outermost first. -/
structure Pending (row : List Operator) (stack : List Nat) : Prop where
  length_eq : (stack.length : Int) = depth row
  nonneg : ∀ index, 0 ≤ level row index
  waits : ∀ height index, stack[height]? = some index → Waits row height index
  start_cases : ∀ index, row[index]? = some .loopStart →
    index ∈ stack ∨ ∃ last, Pair row index last
  end_paired : ∀ last, row[last]? = some .loopEnd → ∃ first, Pair row first last

namespace Pending

variable {stack : List Nat} {first : Nat}

theorem nil : Pending [] [] where
  length_eq := rfl
  nonneg := by simp [level]
  waits := by simp
  start_cases := by simp
  end_paired := by simp

theorem alone (pending : Pending row stack) (notStart : operator ≠ .loopStart)
    (notEnd : operator ≠ .loopEnd) : Pending (row ++ [operator]) stack := by
  have flat := depth_alone notStart notEnd
  have length_eq := pending.length_eq
  constructor
  · rw [depth_append, flat, length_eq, Int.add_zero]
  · intro index
    have end_nonneg := pending.nonneg row.length
    rw [level_of_length_le (Nat.le_refl _)] at end_nonneg
    rcases level_concat_cases row operator index with same | behind
    · exact same ▸ pending.nonneg index
    · omega
  · intro height index found
    have bound := (List.getElem?_eq_some_iff.mp found).1
    exact (pending.waits height index found).concat (by omega)
  · intro index found
    rcases concat_cases found with ⟨_, before⟩ | ⟨_, same⟩
    · rcases pending.start_cases index before with inside | ⟨last, pair⟩
      · exact Or.inl inside
      · exact Or.inr ⟨last, pair.append _⟩
    · exact absurd same notStart
  · intro last found
    rcases concat_cases found with ⟨_, before⟩ | ⟨_, same⟩
    · obtain ⟨first, pair⟩ := pending.end_paired last before
      exact ⟨first, pair.append _⟩
    · exact absurd same notEnd

theorem push (pending : Pending row stack) :
    Pending (row ++ [.loopStart]) (stack ++ [row.length]) := by
  have length_eq := pending.length_eq
  constructor
  · rw [depth_append, depth_loopStart, List.length_append, List.length_singleton]
    omega
  · intro index
    rcases level_concat_cases row .loopStart index with same | behind
    · exact same ▸ pending.nonneg index
    · rw [depth_loopStart] at behind
      omega
  · intro height index found
    rcases Nat.lt_or_ge height stack.length with inside | top
    · rw [List.getElem?_append_left inside] at found
      exact (pending.waits height index found).concat (by rw [depth_loopStart]; omega)
    · have bound := (List.getElem?_eq_some_iff.mp found).1
      have same : height = stack.length := by simp at bound; omega
      rw [same, List.getElem?_concat_length] at found
      cases found
      refine ⟨List.getElem?_concat_length, ?_, ?_⟩
      · rw [level_append_of_le (Nat.le_refl _), level_of_length_le (Nat.le_refl _)]
        omega
      · intro later above below
        rw [level_of_length_le (by simp; omega), depth_append, depth_loopStart]
        omega
  · intro index found
    rcases concat_cases found with ⟨_, before⟩ | ⟨same, _⟩
    · rcases pending.start_cases index before with inside | ⟨last, pair⟩
      · exact Or.inl (List.mem_append_left _ inside)
      · exact Or.inr ⟨last, pair.append _⟩
    · exact Or.inl (by simp [same])
  · intro last found
    rcases concat_cases found with ⟨_, before⟩ | ⟨_, same⟩
    · obtain ⟨first, pair⟩ := pending.end_paired last before
      exact ⟨first, pair.append _⟩
    · cases same

/-- The bracket at the top of the stack waits above all others. -/
theorem top_waits (pending : Pending row (stack ++ [first])) : Waits row stack.length first :=
  pending.waits stack.length first List.getElem?_concat_length

theorem depth_eq (pending : Pending row (stack ++ [first])) : depth row = stack.length + 1 := by
  have length_eq := pending.length_eq
  rw [List.length_append, List.length_singleton] at length_eq
  omega

/-- A closing bracket is the partner of the top of the stack. -/
theorem top_pair (pending : Pending row (stack ++ [first])) :
    Pair (row ++ [.loopEnd]) first row.length :=
  pending.top_waits.pair pending.depth_eq

/-- A closing bracket takes the top off the stack. -/
theorem pop (pending : Pending row (stack ++ [first])) :
    Pending (row ++ [.loopEnd]) stack := by
  have depth_eq := pending.depth_eq
  constructor
  · rw [depth_append, depth_loopEnd]
    omega
  · intro index
    rcases level_concat_cases row .loopEnd index with same | behind
    · exact same ▸ pending.nonneg index
    · rw [depth_loopEnd] at behind
      omega
  · intro height index found
    have bound := (List.getElem?_eq_some_iff.mp found).1
    have before : (stack ++ [first])[height]? = some index := by
      rw [List.getElem?_append_left bound]
      exact found
    exact (pending.waits height index before).concat (by rw [depth_loopEnd]; omega)
  · intro index found
    rcases concat_cases found with ⟨_, before⟩ | ⟨_, same⟩
    · rcases pending.start_cases index before with inside | ⟨last, pair⟩
      · rcases List.mem_append.mp inside with below | top
        · exact Or.inl below
        · rw [List.mem_singleton.mp top]
          exact Or.inr ⟨row.length, pending.top_pair⟩
      · exact Or.inr ⟨last, pair.append _⟩
    · cases same
  · intro last found
    rcases concat_cases found with ⟨_, before⟩ | ⟨same, _⟩
    · obtain ⟨first, pair⟩ := pending.end_paired last before
      exact ⟨first, pair.append _⟩
    · exact ⟨first, same ▸ pending.top_pair⟩

theorem ascending (pending : Pending row stack) : stack.Pairwise (· < ·) := by
  rw [List.pairwise_iff_getElem]
  intro height height' bound bound' lt
  exact (pending.waits height _ (List.getElem?_eq_getElem bound)).index_lt_of_height_lt
    (pending.waits height' _ (List.getElem?_eq_getElem bound')) lt

/-- A row is balanced if nothing waits at its end. -/
theorem balanced (pending : Pending row []) : Balanced row :=
  ⟨pending.nonneg, pending.length_eq.symm⟩

end Pending

/-! ## Targets -/

/-- Partners have each other as their target, and everything else has target 0. -/
structure Linked (row : List Operator) (targets : List Nat) : Prop where
  length_eq : targets.length = row.length
  paired : ∀ first last, Pair row first last →
    targets[first]? = some last ∧ targets[last]? = some first
  alone : ∀ index, index < row.length →
    (∀ other, ¬ Pair row index other ∧ ¬ Pair row other index) → targets[index]? = some 0

namespace Linked

variable {targets : List Nat} {first : Nat}

theorem nil : Linked [] [] where
  length_eq := rfl
  paired first last pair := by cases pair.opens
  alone index bound := by cases bound

/-- An operator that closes nothing has target 0 and changes no other. -/
theorem concat (linked : Linked row targets) (notEnd : operator ≠ .loopEnd) :
    Linked (row ++ [operator]) (targets ++ [0]) := by
  have length_eq := linked.length_eq
  refine ⟨by simp [length_eq], ?_, ?_⟩
  · intro first last pair
    have before := pair.of_concat notEnd
    have bound := before.last_lt
    have lt := before.lt
    rw [List.getElem?_append_left (by omega), List.getElem?_append_left (by omega)]
    exact linked.paired first last before
  · intro index bound alone
    rcases Nat.lt_or_ge index row.length with inside | behind
    · rw [List.getElem?_append_left (by omega)]
      apply linked.alone index inside
      intro other
      exact ⟨fun pair => (alone other).1 (pair.append _),
        fun pair => (alone other).2 (pair.append _)⟩
    · have same : index = targets.length := by simp at bound; omega
      rw [same, List.getElem?_concat_length]

/-- A closing bracket and its partner get each other as targets. -/
theorem close (linked : Linked row targets) (pair : Pair (row ++ [.loopEnd]) first row.length) :
    Linked (row ++ [.loopEnd]) (targets.set first row.length ++ [first]) := by
  have length_eq := linked.length_eq
  have firstBound := pair.lt
  refine ⟨by simp [length_eq], ?_, ?_⟩
  · intro first' last another
    have lt := another.lt
    rcases concat_cases another.closes with ⟨inside, _⟩ | ⟨same, _⟩
    · obtain ⟨atFirst, atLast⟩ := linked.paired first' last (another.of_append inside)
      have notFirst : first ≠ first' := by
        rintro rfl
        have := pair.last_unique another
        omega
      have notLast : first ≠ last := by
        rintro rfl
        have opens := pair.opens
        rw [another.closes] at opens
        cases opens
      rw [List.getElem?_append_left (by simp; omega), List.getElem?_append_left (by simp; omega),
        List.getElem?_set_ne notFirst, List.getElem?_set_ne notLast]
      exact ⟨atFirst, atLast⟩
    · subst same
      have same := another.first_unique pair
      subst same
      constructor
      · rw [List.getElem?_append_left (by simp; omega), List.getElem?_set_self (by omega)]
      · rw [← length_eq, List.getElem?_append_right (by simp)]
        simp
  · intro index bound alone
    have notFirst : first ≠ index := by
      rintro rfl
      exact (alone row.length).1 pair
    rcases Nat.lt_or_ge index row.length with inside | behind
    · rw [List.getElem?_append_left (by simp; omega), List.getElem?_set_ne notFirst]
      apply linked.alone index inside
      intro other
      exact ⟨fun pair => (alone other).1 (pair.append _),
        fun pair => (alone other).2 (pair.append _)⟩
    · have same : index = row.length := by simp at bound; omega
      subst same
      exact absurd pair (alone first).2

/-- A row of operators leaves no choice of targets. -/
theorem unique {targets' : List Nat} (linked : Linked row targets)
    (another : Linked row targets') : targets = targets' := by
  apply List.ext_getElem?
  intro index
  rcases Nat.lt_or_ge index row.length with inside | outside
  · by_cases paired : ∃ other, Pair row index other ∨ Pair row other index
    · obtain ⟨other, pair | pair⟩ := paired
      · rw [(linked.paired index other pair).1, (another.paired index other pair).1]
      · rw [(linked.paired other index pair).2, (another.paired other index pair).2]
    · have alone : ∀ other, ¬ Pair row index other ∧ ¬ Pair row other index := fun other =>
        not_or.mp fun pair => paired ⟨other, pair⟩
      rw [linked.alone index inside alone, another.alone index inside alone]
  · rw [List.getElem?_eq_none (linked.length_eq ▸ outside),
      List.getElem?_eq_none (another.length_eq ▸ outside)]

end Linked

end Brackets

end TapeDebugger
