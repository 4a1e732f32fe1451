import TapeDebugger.Proofs.Program.FirstOffence
import TapeDebugger.Proofs.Program.Linking

/-!
# The stack of a scan

Behind every character that a scan has taken in, its stack holds the opening brackets
without a partner, the outermost first, and their operands are still 0.  All other
brackets are linked with their partners in both directions.  A closing bracket takes the
latest of those that wait, so nothing that has been linked is ever linked anew.
-/

namespace TapeDebugger

namespace Program

open Brackets (depth Pair Waits)

/-! ## Brackets that a scan has emitted -/

/-- An opening bracket of a row that has no partner. -/
structure Unmatched (row : List Operator) (index : Nat) : Prop where
  opens : row[index]? = some .loopStart
  alone : ∀ last, ¬ Pair row index last

namespace Scan

variable {limits : Limits} {chars : List Char} {scan next : Scan} {index operand : Nat}
  {operator : Operator}

/-- The operators of the instructions that a scan has emitted. -/
def row (scan : Scan) : List Operator :=
  scan.instructions.toList.map Instruction.operator

/-- At an index stands an instruction with an operator and an operand. -/
def Has (scan : Scan) (index : Nat) (operator : Operator) (operand : Nat) : Prop :=
  ∃ location, scan.instructions[index]? = some ⟨operator, operand, location⟩

/-- An instruction is read off the operators and the operands. -/
theorem has_iff_of_columns (scan : Scan) (index : Nat) (operator : Operator) (operand : Nat) :
    scan.Has index operator operand ↔
      scan.row[index]? = some operator ∧
        (scan.instructions.toList.map Instruction.operand)[index]? = some operand :=
  Program.has_iff ⟨scan.instructions, 0⟩ index operator operand

namespace Sound

variable (sound : Sound chars scan)
include sound

/-- One instruction has been emitted for each operator. -/
theorem row_eq : scan.row = operators chars := by
  rw [row, ← map_operator_marks, ← sound.marks_eq, List.map_map]
  rfl

/-- What is on the stack waits for its partner, above all that is below it. -/
theorem exists_waits (mem : index ∈ scan.opens) :
    ∃ height, Waits (operators chars) height index := by
  obtain ⟨height, found⟩ := List.mem_iff_getElem?.mp (Array.mem_toList_iff.mpr mem)
  exact ⟨height, sound.pending.waits height index found⟩

theorem mem_opens_iff : index ∈ scan.opens ↔ Unmatched scan.row index := by
  rw [sound.row_eq]
  constructor
  · intro mem
    obtain ⟨height, waits⟩ := sound.exists_waits mem
    exact ⟨waits.opens, waits.not_pair⟩
  · rintro ⟨opens, alone⟩
    rcases sound.pending.start_cases index opens with inside | ⟨last, pair⟩
    · exact Array.mem_toList_iff.mp inside
    · exact absurd pair (alone last)

/-- The operand of a bracket that waits has not been set. -/
theorem has_of_mem_opens (mem : index ∈ scan.opens) : scan.Has index .loopStart 0 := by
  obtain ⟨height, waits⟩ := sound.exists_waits mem
  rw [has_iff_of_columns, sound.row_eq]
  refine ⟨waits.opens, sound.linked.alone index waits.index_lt fun other => ?_⟩
  refine ⟨waits.not_pair other, fun pair => ?_⟩
  have closes := pair.closes
  rw [waits.opens] at closes
  cases closes

/-- Partners have been linked in both directions. -/
theorem has_of_pair {first last : Nat} (pair : Pair scan.row first last) :
    scan.Has first .loopStart last ∧ scan.Has last .loopEnd first := by
  rw [sound.row_eq] at pair
  obtain ⟨atFirst, atLast⟩ := sound.linked.paired first last pair
  rw [has_iff_of_columns, has_iff_of_columns, sound.row_eq]
  exact ⟨⟨pair.opens, atFirst⟩, pair.closes, atLast⟩

/-- An opening bracket that does not wait has its partner as its operand. -/
theorem pair_of_has_loopStart {first : Nat} (has : scan.Has first .loopStart operand)
    (notWaiting : first ∉ scan.opens) : Pair scan.row first operand := by
  obtain ⟨opens, target⟩ := (has_iff_of_columns _ _ _ _).mp has
  rw [sound.row_eq] at opens ⊢
  rcases sound.pending.start_cases first opens with waits | ⟨last, pair⟩
  · exact absurd (Array.mem_toList_iff.mp waits) notWaiting
  · have partner := (sound.linked.paired first last pair).1
    rw [target] at partner
    exact Option.some.inj partner ▸ pair

theorem pair_of_has_loopEnd {last : Nat} (has : scan.Has last .loopEnd operand) :
    Pair scan.row operand last := by
  obtain ⟨closes, target⟩ := (has_iff_of_columns _ _ _ _).mp has
  rw [sound.row_eq] at closes ⊢
  obtain ⟨first, pair⟩ := sound.pending.end_paired last closes
  have partner := (sound.linked.paired first last pair).2
  rw [target] at partner
  exact Option.some.inj partner ▸ pair

end Sound

/-! ## Room -/

/-- What a scan has emitted leaves a slot for the end, if there is any. -/
theorem size_le_of_fine (sound : Sound chars scan)
    (fine : ∀ index, offenceAt? limits (operators chars) index = none) :
    (scan.instructions.size : Int) ≤ max (limits.programSize - 1) 0 := by
  rw [sound.size_eq]
  by_cases empty : operators chars = []
  · rw [empty]
    exact Int.le_max_right _ _
  · exact Int.le_trans (fits_of_offenceAt?_eq_none empty fine).1 (Int.le_max_left _ _)

/-- The stack of a scan is not higher than it may be. -/
theorem opens_size_le_of_fine (sound : Sound chars scan)
    (fine : ∀ index, offenceAt? limits (operators chars) index = none) :
    (scan.opens.size : Int) ≤ max limits.stackSize 0 := by
  rw [sound.opens_size_eq]
  by_cases empty : operators chars = []
  · rw [empty]
    exact Int.le_max_right _ _
  · have nested : NestedWithin (max limits.stackSize 0) (operators chars) := fun index opens =>
      Int.le_trans ((fits_of_offenceAt?_eq_none empty fine).2 index opens) (Int.le_max_left _ _)
    have levels := (nestedWithin_iff (Int.le_max_right _ _) _).mp nested (operators chars).length
    rwa [Brackets.level_of_length_le (Nat.le_refl _)] at levels

/-! ## The discipline -/

/-- What holds of a scan behind all characters that it has taken in. -/
structure Disciplined (limits : Limits) (chars : List Char) (scan : Scan) : Prop where
  row_eq : scan.row = operators chars
  size_eq : scan.instructions.size = (operators chars).length
  size_le : (scan.instructions.size : Int) ≤ max (limits.programSize - 1) 0
  ascending : scan.opens.toList.Pairwise (· < ·)
  mem_opens_iff : ∀ index, index ∈ scan.opens ↔ Unmatched scan.row index
  opens_size_eq : (scan.opens.size : Int) = depth (operators chars)
  opens_size_le : (scan.opens.size : Int) ≤ max limits.stackSize 0
  waiting : ∀ index ∈ scan.opens, scan.Has index .loopStart 0
  startLinked : ∀ first operand, scan.Has first .loopStart operand → first ∉ scan.opens →
    Pair scan.row first operand ∧ scan.Has operand .loopEnd first
  endLinked : ∀ last operand, scan.Has last .loopEnd operand →
    Pair scan.row operand last ∧ scan.Has operand .loopStart last

theorem Sound.disciplined (sound : Sound chars scan)
    (fine : ∀ index, offenceAt? limits (operators chars) index = none) :
    Disciplined limits chars scan where
  row_eq := sound.row_eq
  size_eq := sound.size_eq
  size_le := size_le_of_fine sound fine
  ascending := sound.pending.ascending
  mem_opens_iff _ := sound.mem_opens_iff
  opens_size_eq := sound.opens_size_eq
  opens_size_le := opens_size_le_of_fine sound fine
  waiting _ := sound.has_of_mem_opens
  startLinked _ _ has notWaiting :=
    have pair := sound.pair_of_has_loopStart has notWaiting
    ⟨pair, (sound.has_of_pair pair).2⟩
  endLinked _ _ has :=
    have pair := sound.pair_of_has_loopEnd has
    ⟨pair, (sound.has_of_pair pair).1⟩

/-- A scan goes on by linking a closing bracket with the latest opening one that waits. -/
structure Closes (scan : Scan) (partner : Nat) (next : Scan) : Prop where
  latest : LastUnmatched scan.row partner
  popped : scan.opens = next.opens.push partner
  fromStart : next.Has partner .loopStart scan.instructions.size
  fromEnd : next.Has scan.instructions.size .loopEnd partner

/-- A closing bracket that is taken in takes the top off the stack. -/
theorem exists_popped (stepped : scan.step limits ']' = .ok next) :
    ∃ partner, scan.opens = next.opens.push partner := by
  have opens_eq := opens_advance scan ']'
  rw [step, show Operator.ofChar? ']' = some .loopEnd from rfl] at stepped
  dsimp only [place] at stepped
  split at stepped
  · cases stepped
  cases top : (scan.advance ']').opens.back? with
  | none =>
      rw [closeLoop_of_empty (Array.back?_eq_none_iff.mp top)] at stepped
      cases stepped
  | some partner =>
      obtain ⟨below, split⟩ := Array.back?_eq_some_iff.mp top
      rw [closeLoop_of_push split] at stepped
      cases stepped
      exact ⟨partner, opens_eq.symm.trans split⟩

theorem closes_of_step (sound : Sound chars scan) (after : Sound (chars ++ [']']) next)
    (stepped : scan.step limits ']' = .ok next) : ∃ partner, scan.Closes partner next := by
  obtain ⟨partner, popped⟩ := exists_popped stepped
  have pending := sound.pending
  rw [popped, Array.toList_push] at pending
  have row_eq : next.row = operators chars ++ [.loopEnd] := by
    rw [after.row_eq, operators_append]
    rfl
  have linked := after.has_of_pair (row_eq ▸ pending.top_pair)
  rw [← sound.size_eq] at linked
  exact ⟨partner, sound.row_eq ▸ lastUnmatched_of_pending pending, popped, linked.1, linked.2⟩

/--
The stack discipline of a scan.  Behind any number of characters of a source that it has
taken in, the stack holds just the opening brackets without a partner, in their order,
with operands that are not set; it is as high as the nesting is deep, and within its
limit.  All other brackets are linked both ways.  One instruction has been emitted for
each operator, within the limit that leaves a slot for the end; and the next closing
bracket is linked with the latest opening one that waits.
-/
theorem stack_discipline (limits : Limits) (source : String) (count : Nat)
    (ran : run limits {} (source.toList.take count) = .ok scan) :
    Disciplined limits (source.toList.take count) scan ∧
      (source.toList[count]? = some ']' → ∀ next,
        run limits {} (source.toList.take (count + 1)) = .ok next →
          ∃ partner, scan.Closes partner next) := by
  obtain ⟨sound, fine⟩ := sound_of_run ran
  refine ⟨sound.disciplined fine, fun closing next ranOn => ?_⟩
  have longer : source.toList.take (count + 1) = source.toList.take count ++ [']'] := by
    rw [List.take_add_one, closing]
    rfl
  rw [longer] at ranOn
  have after := (sound_of_run ranOn).1
  rw [run_concat_of_ok ran] at ranOn
  exact closes_of_step sound after ranOn

/-- Behind a loop that is closed a second bracket waits, and the next one that closes takes it. -/
theorem stack_discipline_behind_loop :
    ∃ scan next, run ⟨8, 2⟩ {} ("[[]+[ ].]".toList.take 6) = .ok scan ∧
      run ⟨8, 2⟩ {} ("[[]+[ ].]".toList.take 7) = .ok next ∧
      scan.opens = #[0, 4] ∧ scan.instructions.toList.map Instruction.operand = [0, 2, 1, 0, 0] ∧
      Disciplined ⟨8, 2⟩ ("[[]+[ ].]".toList.take 6) scan ∧ scan.Closes 4 next := by
  have ran : run ⟨8, 2⟩ {} ("[[]+[ ].]".toList.take 6) =
      .ok
        { instructions :=
            #[⟨.loopStart, 0, ⟨1, 1⟩⟩, ⟨.loopStart, 2, ⟨1, 2⟩⟩, ⟨.loopEnd, 1, ⟨1, 3⟩⟩,
              ⟨.increment, 0, ⟨1, 4⟩⟩, ⟨.loopStart, 0, ⟨1, 5⟩⟩]
          opens := #[0, 4], line := 1, column := 6 } := by decide
  have ranOn : run ⟨8, 2⟩ {} ("[[]+[ ].]".toList.take 7) =
      .ok
        { instructions :=
            #[⟨.loopStart, 0, ⟨1, 1⟩⟩, ⟨.loopStart, 2, ⟨1, 2⟩⟩, ⟨.loopEnd, 1, ⟨1, 3⟩⟩,
              ⟨.increment, 0, ⟨1, 4⟩⟩, ⟨.loopStart, 5, ⟨1, 5⟩⟩, ⟨.loopEnd, 4, ⟨1, 7⟩⟩]
          opens := #[0], line := 1, column := 7 } := by decide
  obtain ⟨disciplined, closes⟩ := stack_discipline ⟨8, 2⟩ "[[]+[ ].]" 6 ran
  obtain ⟨partner, closed⟩ := closes (by decide) _ ranOn
  have popped : (#[0] : Array Nat).push 4 = (#[0] : Array Nat).push partner := closed.popped
  have partner_eq : 4 = partner := (Array.push_eq_push.mp popped).1
  exact ⟨_, _, ran, ranOn, rfl, rfl, disciplined, partner_eq ▸ closed⟩

end Scan

end Program

end TapeDebugger
