import TapeDebugger.Proofs.Machine.Intake
import TapeDebugger.Proofs.Number.Remainder

/-!
# Arithmetic on cells

A new value of a cell is computed on numbers: sums are rounded, and remainders have the
sign of what is divided.  What is computed is always the residue that is meant, so it is
in range before it is stored and the tape need not cut it.  Hence a cell that is counted
up and down holds the residue of all that was counted.
-/

namespace TapeDebugger

namespace Machine

open Number (remainder wrapped)

variable {program : Program} {eofValue : Number} {machine next final : Machine} {halt : Halt}
  {index value : Nat}

/-! ## Stored values -/

/-- A value in range is stored as it is. -/
theorem Tape.write_of_lt {tape : Tape} (inRange : value < tape.modulus) (index : Nat) :
    tape.write index value = { tape with cells := tape.cells.setIfInBounds index value } := by
  rw [Tape.modulus] at inRange
  rw [write, Nat.mod_eq_of_lt inRange]

/--
The machine goes on with a number stored in a cell as it was computed: it is in range
before it is stored, and it is the residue of what is meant.
-/
structure StoresExactly (machine : Machine) (index : Nat) (result : Outcome × Machine)
    (computed : Rat) (meant : Int) : Prop where
  continued : result.1 = .continued
  exists_stored : ∃ stored : Nat, stored = computed ∧
    (stored : Int) = meant % machine.runtime.tape.modulus ∧
    stored < machine.runtime.tape.modulus ∧
    result.2.runtime.tape =
      { machine.runtime.tape with cells := machine.runtime.tape.cells.setIfInBounds index stored }

theorem storesExactly_of_residue {stored : Nat} {result : Outcome × Machine} {computed : Rat}
    {meant : Int} (result_eq : result = (.continued, machine.storedAt index stored))
    (residue : (stored : Int) = meant % machine.runtime.tape.modulus)
    (computed_eq : computed = (meant % machine.runtime.tape.modulus : Int)) :
    StoresExactly machine index result computed meant := by
  have positive : (0 : Int) < machine.runtime.tape.modulus :=
    Int.natCast_pos.mpr machine.runtime.tape.modulus_pos
  have inRange : stored < machine.runtime.tape.modulus := by
    have bound := Int.emod_lt_of_pos meant positive
    omega
  subst result_eq
  refine ⟨rfl, stored, ?_, residue, inRange, Tape.write_of_lt inRange index⟩
  rw [computed_eq, ← residue, Int.cast_natCast]

/-! ## Single instructions -/

/-- The sums that occur on cells are far below the integers that need rounding. -/
theorem Tape.two_mul_modulus_le (tape : Tape) : 2 * tape.modulus ≤ Number.exactIntegerBound := by
  rw [Tape.modulus]
  cases tape.cellSize <;> decide

theorem storesExactly_increment (pointer_eq : machine.runtime.pointer = .index index)
    (cell_eq : machine.runtime.tape.cell? index = some value)
    (inRange : value < machine.runtime.tape.modulus) (target : Position) :
    StoresExactly machine index (machine.step eofValue .increment target)
      (remainder (Number.round (value + 1)) machine.runtime.tape.modulus) (value + 1) := by
  have small := machine.runtime.tape.two_mul_modulus_le
  refine storesExactly_of_residue (step_increment pointer_eq cell_eq) rfl ?_
  have sum : (value : Rat) + 1 = ((value + 1 : Int) : Rat) := by push_cast; rfl
  rw [sum]
  exact Number.remainder_round_intCast machine.runtime.tape.modulus_pos (by omega) (by omega)

theorem storesExactly_decrement (pointer_eq : machine.runtime.pointer = .index index)
    (cell_eq : machine.runtime.tape.cell? index = some value)
    (inRange : value < machine.runtime.tape.modulus) (target : Position) :
    StoresExactly machine index (machine.step eofValue .decrement target)
      (remainder (Number.round (Number.round (value - 1) + machine.runtime.tape.modulus))
        machine.runtime.tape.modulus) (value - 1) := by
  have small := machine.runtime.tape.two_mul_modulus_le
  have positive := machine.runtime.tape.modulus_pos
  have moved : ((value - 1 : Int) + machine.runtime.tape.modulus) % machine.runtime.tape.modulus =
      (value - 1) % machine.runtime.tape.modulus := Int.add_emod_right ..
  refine storesExactly_of_residue (step_decrement pointer_eq cell_eq) ?_ ?_
  · have sum : ((value + machine.runtime.tape.modulus - 1 : Nat) : Int) =
        (value - 1 : Int) + machine.runtime.tape.modulus := by omega
    rw [Int.natCast_emod, sum, moved]
  · -- one below 0 is in range of the numbers, and moved up it is not negative
    have first : (value : Rat) - 1 = ((value - 1 : Int) : Rat) := by push_cast; rfl
    have second : ((value - 1 : Int) : Rat) + machine.runtime.tape.modulus =
        ((value - 1 : Int) + machine.runtime.tape.modulus : Int) := by push_cast; rfl
    rw [first, Number.round_intCast (by omega), second,
      Number.remainder_round_intCast positive (by omega) (by omega), moved]

/-- At the end of the input a cell takes the residue of the set value, whatever its size. -/
theorem storesExactly_input (pointer_eq : machine.runtime.pointer = .index index)
    (ended : machine.channel.pending = []) (atEnd : Int) (target : Position) :
    StoresExactly machine index (machine.step (.finite atEnd) .input target)
      (wrapped atEnd machine.runtime.tape.modulus) atEnd := by
  have small := machine.runtime.tape.two_mul_modulus_le
  have positive := machine.runtime.tape.modulus_pos
  have wrapped_eq := Number.wrapped_intCast atEnd positive small
  refine storesExactly_of_residue (step_input_nil pointer_eq ended) ?_ wrapped_eq
  rw [Number.residue_eq_floor_wrapped atEnd positive small, wrapped_eq, Rat.floor_intCast]

/-- The low byte of a cell is what a mask leaves of its signed 32-bit word. -/
theorem toInt_and_mask (value : Nat) :
    (BitVec.ofInt 32 value &&& 255#32).toInt = (value % 256 : Nat) := by
  have masked : (BitVec.ofInt 32 value &&& 255#32).toNat = value % 256 := by
    rw [BitVec.ofInt_natCast, BitVec.toNat_and, BitVec.toNat_ofNat, BitVec.toNat_ofNat]
    change value % 2 ^ 32 &&& (2 ^ 8 - 1) = value % 2 ^ 8
    rw [Nat.and_two_pow_sub_one_eq_mod, Nat.mod_mod_of_dvd value (by decide)]
  rw [BitVec.toInt_eq_toNat_of_lt (by rw [masked]; omega), masked]

theorem output_step (pointer_eq : machine.runtime.pointer = .index index)
    (cell_eq : machine.runtime.tape.cell? index = some value) (target : Position) :
    (machine.step eofValue .output target).2.channel.output =
      machine.channel.output.push value.toUInt8 := by
  rw [Machine.step_output pointer_eq cell_eq]
  rfl

/-! ## Runs -/

/-- How often one of the executed instructions is an operator at an index of the tape. -/
def tally (operator : Operator) (index : Nat) (executions : List Execution) : Nat :=
  executions.countP fun execution =>
    execution.instruction.operator = operator ∧ execution.before.runtime.pointer = .index index

theorem tally_append (operator : Operator) (index : Nat) (first rest : List Execution) :
    tally operator index (first ++ rest) = tally operator index first + tally operator index rest :=
  List.countP_append

theorem tally_of_here (here : machine.runtime.pointer = .index index) (operator : Operator) :
    tally operator index [machine.execution program eofValue] =
      if (machine.runtime.instruction program).operator = operator then 1 else 0 := by
  simp [tally, execution, here, List.countP_singleton]

theorem tally_of_elsewhere (elsewhere : machine.runtime.pointer ≠ .index index)
    (operator : Operator) : tally operator index [machine.execution program eofValue] = 0 := by
  simp [tally, execution, elsewhere]

/--
A cell that held a value holds the residue of that value with all that the executed
instructions counted up and down there.
-/
def Counted (machine : Machine) (index value : Nat) (executions : List Execution)
    (after : Machine) : Prop :=
  ∃ held : Nat, after.runtime.tape.cell? index = some held ∧
    (held : Int) = (value + tally .increment index executions -
      tally .decrement index executions) % machine.runtime.tape.modulus

theorem StoresExactly.exists_held {result : Outcome × Machine} {computed : Rat} {meant : Int}
    (stores : StoresExactly machine index result computed meant)
    (onTape : index < machine.runtime.tape.length) :
    ∃ held : Nat, result.2.runtime.tape.cell? index = some held ∧
      (held : Int) = meant % machine.runtime.tape.modulus := by
  obtain ⟨stored, -, residue, -, tape_eq⟩ := stores.exists_stored
  refine ⟨stored, ?_, residue⟩
  rw [tape_eq]
  exact Array.getElem?_setIfInBounds_self_of_lt onTape

/-- A cell that keeps its value while nothing is counted there holds its residue. -/
theorem counted_of_kept {executions : List Execution} {after : Machine}
    (cell_eq : machine.runtime.tape.cell? index = some value)
    (inRange : value < machine.runtime.tape.modulus)
    (kept : after.runtime.tape.cell? index = machine.runtime.tape.cell? index)
    (ups : tally .increment index executions = 0)
    (downs : tally .decrement index executions = 0) :
    machine.Counted index value executions after := by
  refine ⟨value, kept.trans cell_eq, ?_⟩
  rw [ups, downs]
  have residue : (value : Int) % machine.runtime.tape.modulus = value :=
    Int.emod_eq_of_lt (by omega) (by omega)
  simpa using residue.symm

/-- One instruction that stores no input in a cell counts it up, down or not at all. -/
theorem counted_stepIn (cell_eq : machine.runtime.tape.cell? index = some value)
    (inRange : value < machine.runtime.tape.modulus)
    (unread : tally .input index [machine.execution program eofValue] = 0) :
    machine.Counted index value [machine.execution program eofValue]
      (machine.stepIn program eofValue).2 := by
  by_cases here : machine.runtime.pointer = .index index
  · have onTape := Tape.lt_length_of_cell? cell_eq
    rw [tally_of_here here] at unread
    cases kind : (machine.runtime.instruction program).operator with
    | increment =>
        rw [Counted, tally_of_here here, tally_of_here here, stepIn, kind]
        simpa using (storesExactly_increment here cell_eq inRange _).exists_held onTape
    | decrement =>
        rw [Counted, tally_of_here here, tally_of_here here, stepIn, kind]
        simpa using (storesExactly_decrement here cell_eq inRange _).exists_held onTape
    | input =>
        rw [kind] at unread
        cases unread
    | _ =>
        refine counted_of_kept cell_eq inRange ?_ ?_ ?_
        · rw [stepIn, kind, tape_step_of_not_storing eofValue _ (by decide) (by decide) (by decide)]
        · rw [tally_of_here here, kind]
          rfl
        · rw [tally_of_here here, kind]
          rfl
  · exact counted_of_kept cell_eq inRange (cell_step_of_elsewhere eofValue _ _ here)
      (tally_of_elsewhere here _) (tally_of_elsewhere here _)

theorem modulus_stepIn (program : Program) (eofValue : Number) (machine : Machine) :
    (machine.stepIn program eofValue).2.runtime.tape.modulus = machine.runtime.tape.modulus :=
  congrArg (fun sizes => sizes.1.modulus) (sizes_step eofValue _ _)

/-- What is counted in two parts is counted together. -/
theorem counted_append {between after : Machine} {held : Nat} {first rest : List Execution}
    (modulus_eq : between.runtime.tape.modulus = machine.runtime.tape.modulus)
    (held_eq : (held : Int) = (value + tally .increment index first -
      tally .decrement index first) % machine.runtime.tape.modulus)
    (counted : between.Counted index held rest after) :
    machine.Counted index value (first ++ rest) after := by
  obtain ⟨last, cell_eq, last_eq⟩ := counted
  refine ⟨last, cell_eq, ?_⟩
  rw [last_eq, modulus_eq, held_eq, Int.add_sub_assoc, Int.emod_add_emod, tally_append,
    tally_append]
  congr 1
  push_cast
  ring

/-- A run that stores no input in a cell leaves the residue of all that was counted there. -/
theorem counted_run {count : Nat} (cell_eq : machine.runtime.tape.cell? index = some value)
    (inRange : value < machine.runtime.tape.modulus)
    (unread : tally .input index (machine.executions program eofValue count) = 0) :
    machine.Counted index value (machine.executions program eofValue count)
      (machine.run program eofValue count).2 := by
  induction count, machine using count_induction program eofValue generalizing value with
  | zero machine => exact counted_of_kept cell_eq inRange rfl rfl rfl
  | continued count machine next stepped ih =>
      rw [executions_succ_of_continued stepped, ← List.singleton_append] at unread ⊢
      rw [tally_append, Nat.add_eq_zero_iff] at unread
      obtain ⟨held, cell_eq', held_eq⟩ := counted_stepIn cell_eq inRange unread.1
      have modulus_eq := modulus_stepIn program eofValue machine
      rw [stepped] at cell_eq' modulus_eq
      have positive : (0 : Int) < machine.runtime.tape.modulus :=
        Int.natCast_pos.mpr machine.runtime.tape.modulus_pos
      have inRange' : held < next.runtime.tape.modulus := by
        have bound : (held : Int) < machine.runtime.tape.modulus :=
          held_eq ▸ Int.emod_lt_of_pos _ positive
        rw [modulus_eq]
        exact_mod_cast bound
      rw [run_succ_of_continued stepped]
      exact counted_append modulus_eq held_eq (ih cell_eq' inRange' unread.2)
  | halted count machine halt final stepped =>
      rw [executions_succ_of_halted stepped] at unread ⊢
      have counted := counted_stepIn cell_eq inRange unread
      rw [stepped] at counted
      rw [run_succ_of_halted stepped]
      exact counted

/-! ## The rule -/

/--
Arithmetic on cells is exact.  At a cell in range, counting up, counting down and the end
of the input store a number that was computed with remainders and rounded sums; it is
the residue that is meant and in range before it is stored.  What is written is the low
byte of the cell, which a mask leaves of its 32-bit word.  And a run that stores no input
in the cell leaves the residue of what it held with all counts up and down.
-/
theorem arithmetic_is_exact {machine : Machine} {index value : Nat}
    (pointer_eq : machine.runtime.pointer = .index index)
    (cell_eq : machine.runtime.tape.cell? index = some value)
    (fits : machine.runtime.tape.Fits) (target : Position) (atEnd : Int) :
    StoresExactly machine index (machine.step (.finite atEnd) .increment target)
      (remainder (Number.round (value + 1)) machine.runtime.tape.modulus) (value + 1) ∧
    StoresExactly machine index (machine.step (.finite atEnd) .decrement target)
      (remainder (Number.round (Number.round (value - 1) + machine.runtime.tape.modulus))
        machine.runtime.tape.modulus) (value - 1) ∧
    (machine.channel.pending = [] →
      StoresExactly machine index (machine.step (.finite atEnd) .input target)
        (wrapped atEnd machine.runtime.tape.modulus) atEnd) ∧
    (∃ byte : UInt8, (machine.step (.finite atEnd) .output target).2.channel.output =
        machine.channel.output.push byte ∧
      byte.toNat = value % 256 ∧ (BitVec.ofInt 32 value &&& 255#32).toInt = byte.toNat) ∧
    ∀ program eofValue count,
      tally .input index (machine.executions program eofValue count) = 0 →
      machine.Counted index value (machine.executions program eofValue count)
        (machine.run program eofValue count).2 := by
  have inRange := fits index value cell_eq
  refine ⟨storesExactly_increment pointer_eq cell_eq inRange target,
    storesExactly_decrement pointer_eq cell_eq inRange target,
    fun ended => storesExactly_input pointer_eq ended atEnd target,
    ⟨value.toUInt8, output_step pointer_eq cell_eq target, UInt8.toNat_ofNat, ?_⟩,
    fun program eofValue count unread => counted_run cell_eq inRange unread⟩
  rw [toInt_and_mask]
  rfl

/-- A machine at the greatest value of its largest cells. -/
def brim : Machine :=
  ⟨{ tape := ⟨.bits32, #[7, 4294967295]⟩, pointer := .index 1 }, {}⟩

/-- The program counts in one cell, and in the one to its left. -/
def countAround : Program where
  instructions :=
    #[⟨.increment, 0, ⟨1, 1⟩⟩, ⟨.increment, 0, ⟨1, 2⟩⟩, ⟨.decrement, 0, ⟨1, 3⟩⟩,
      ⟨.moveLeft, 0, ⟨1, 4⟩⟩, ⟨.increment, 0, ⟨1, 5⟩⟩, ⟨.finish, 0, ⟨1, 6⟩⟩]
  capacity := 4096

/-- At the brim a cell is counted over it, and takes an end of the input far below 0. -/
theorem arithmetic_is_exact_at_the_brim :
    brim.runtime.tape.Fits ∧
      StoresExactly brim 1 (brim.step (.finite (-1152921504606847232 : Int)) .input (.index 0))
        (wrapped (-1152921504606847232 : Int) 4294967296) (-1152921504606847232) ∧
      (∃ byte : UInt8,
        (brim.step (.finite (-1152921504606847232 : Int)) .output (.index 0)).2.channel.output =
          #[].push byte ∧
        byte.toNat = 4294967295 % 256) ∧
      tally .increment 1 (brim.executions countAround (.finite 0) 5) = 2 ∧
      brim.Counted 1 4294967295 (brim.executions countAround (.finite 0) 5)
        (brim.run countAround (.finite 0) 5).2 := by
  have fits : brim.runtime.tape.Fits := by
    intro index value found
    have mem : value ∈ brim.runtime.tape.cells := Array.mem_of_getElem? found
    rcases List.mem_cons.mp (Array.mem_def.mp mem) with rfl | last
    · decide
    · rw [List.mem_singleton.mp last]
      decide
  have pointer_eq : brim.runtime.pointer = .index 1 := rfl
  have cell_eq : brim.runtime.tape.cell? 1 = some 4294967295 := rfl
  obtain ⟨-, -, ended, ⟨byte, written, low, -⟩, runs⟩ :=
    arithmetic_is_exact pointer_eq cell_eq fits (.index 0) (-1152921504606847232)
  exact ⟨fits, ended rfl, ⟨byte, written, low⟩, by decide,
    runs countAround (.finite 0) 5 (by decide)⟩

end Machine

end TapeDebugger
