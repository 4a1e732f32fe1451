import TapeDebugger.Proofs.Machine.Counting
import TapeDebugger.Proofs.Machine.Step

/-!
# Staying in range

The program counter of a runtime is in range if it is at an instruction of the
program, its pointer if it is at a cell of the tape, and its tape if every cell
holds a value of the cell size.  One instruction of a compiled program keeps all
three, wherever the program counter stands, and so does every run.
-/

namespace TapeDebugger

namespace Machine

/-! ## Tapes -/

namespace Tape

theorem modulus_pos (tape : Tape) : 0 < tape.modulus :=
  tape.cellSize.modulus_pos

/-- Every cell of the tape holds one of the values of its cell size. -/
def Fits (tape : Tape) : Prop :=
  ∀ index value, tape.cell? index = some value → value < tape.modulus

theorem fits_blank (cellSize : CellSize) (length : Nat) : (blank cellSize length).Fits := by
  intro index value found
  have zero : value = 0 := by
    simp only [cell?, blank, Array.getElem?_replicate] at found
    split at found
    · exact (Option.some.inj found).symm
    · cases found
  rw [zero]
  exact cellSize.modulus_pos

/-- Whatever is stored, only its residue gets into the cell. -/
theorem Fits.write {tape : Tape} (fits : tape.Fits) (index value : Nat) :
    (tape.write index value).Fits := by
  intro other stored found
  by_cases same : index = other
  · subst same
    have inside : index < tape.length :=
      length_write tape index value ▸ lt_length_of_cell? found
    rw [cell?_write_self value inside] at found
    rw [← Option.some.inj found]
    exact Nat.mod_lt _ tape.modulus_pos
  · rw [cell?_write_of_ne value same] at found
    exact fits other stored found

/-- A tape is created as long as its length is not too great, and it is blank then. -/
theorem create_natCast (cellSize : CellSize) (length : Nat) :
    create cellSize (.finite length) =
      if length ≤ maxLength then .ok (blank cellSize length)
      else .error (.invalidLength (.finite length)) := by
  have truncated : (Number.finite length).truncated = length := by
    have nonneg : ¬ (length : Rat) < 0 := by
      rw [Rat.not_lt]
      exact_mod_cast Nat.zero_le length
    rw [Number.truncated, if_neg nonneg, ← Rat.intCast_natCast, Rat.floor_intCast]
  by_cases fits : length ≤ maxLength
  · simp [create, lengthOf?, truncated, fits]
  · simp [create, lengthOf?, truncated, fits]

/-- A tape of given sizes is blank, of a cell size with as many values, and that long. -/
theorem exists_blank_of_ofSizes {values length : Number} {tape : Tape}
    (created : ofSizes values length = .ok tape) :
    ∃ cellSize cells, values = .finite (CellSize.modulus cellSize) ∧
      lengthOf? length = some cells ∧ tape = blank cellSize cells := by
  unfold ofSizes at created
  cases size_eq : CellSize.ofNumber? values with
  | none =>
      rw [size_eq] at created
      cases created
  | some cellSize =>
      have values_eq : values = .finite cellSize.modulus := by
        have found := List.find?_some size_eq
        exact of_decide_eq_true found
      rw [size_eq] at created
      change create cellSize length = .ok tape at created
      unfold create at created
      cases length_eq : lengthOf? length with
      | none =>
          rw [length_eq] at created
          cases created
      | some cells =>
          rw [length_eq] at created
          exact ⟨cellSize, cells, values_eq, rfl, (Except.ok.inj created).symm⟩

end Tape

/-! ## Runtimes -/

/-- The program counter is in the program, the pointer on the tape, and every cell fits. -/
structure Runtime.InRange (program : Program) (runtime : Runtime) : Prop where
  pc : ∃ index, runtime.pc = .index index ∧ index < program.count
  pointer : ∃ index, runtime.pointer = .index index ∧ index < runtime.tape.length
  cells : runtime.tape.Fits

namespace Runtime.InRange

variable {program : Program} {runtime : Runtime} {machine : Machine} {index : Nat}

theorem blank (nonempty : 0 < program.count) (cellSize : CellSize) {length : Nat}
    (positive : 0 < length) : ({ tape := .blank cellSize length } : Runtime).InRange program :=
  ⟨⟨0, rfl, nonempty⟩, ⟨0, rfl, by simpa using positive⟩, Tape.fits_blank cellSize length⟩

theorem stop (inRange : runtime.InRange program) : runtime.stop.InRange program :=
  ⟨inRange.pc, inRange.pointer, inRange.cells⟩

theorem jump (inRange : runtime.InRange program) (inside : index < program.count) :
    { runtime with pc := .index index }.InRange program :=
  ⟨⟨index, rfl, inside⟩, inRange.pointer, inRange.cells⟩

theorem exists_cell (inRange : runtime.InRange program) :
    ∃ pointer value, runtime.pointer = .index pointer ∧
      runtime.tape.cell? pointer = some value ∧ value < runtime.tape.modulus := by
  obtain ⟨pointer, pointer_eq, inside⟩ := inRange.pointer
  obtain ⟨value, found⟩ := Option.isSome_iff_exists.mp
    ((runtime.tape.cell?_isSome_iff pointer).mpr inside)
  exact ⟨pointer, value, pointer_eq, found, inRange.cells pointer value found⟩

theorem instruction (inRange : runtime.InRange program) :
    ∃ pc, runtime.pc = .index pc ∧
      program.instructions[pc]? = some (runtime.instruction program) := by
  obtain ⟨pc, pc_eq, inside⟩ := inRange.pc
  refine ⟨pc, pc_eq, ?_⟩
  rw [Runtime.instruction, pc_eq]
  exact Program.getElem?_eq_some_fetch inside

/-! ### Steps -/

theorem goneTo (inRange : machine.runtime.InRange program) (inside : index < program.count) :
    (machine.goneTo (.index index)).runtime.InRange program :=
  inRange.jump inside

theorem storedAt (inRange : machine.runtime.InRange program) {pc : Nat}
    (pc_eq : machine.runtime.pc = .index pc) (inside : pc + 1 < program.count) (value : Nat) :
    (machine.storedAt index value).runtime.InRange program := by
  obtain ⟨pointer, pointer_eq, onTape⟩ := inRange.pointer
  refine ⟨⟨pc + 1, ?_, inside⟩, ⟨pointer, pointer_eq, ?_⟩, inRange.cells.write index value⟩
  · show machine.runtime.pc.next = .index (pc + 1)
    rw [pc_eq, Position.next_index]
  · exact (Tape.length_write _ _ _).symm ▸ onTape

theorem movedTo (inRange : machine.runtime.InRange program) {pc : Nat}
    (pc_eq : machine.runtime.pc = .index pc) (inside : pc + 1 < program.count)
    (onTape : index < machine.runtime.tape.length) :
    (machine.movedTo index).runtime.InRange program := by
  refine ⟨⟨pc + 1, ?_, inside⟩, ⟨index, rfl, onTape⟩, inRange.cells⟩
  show machine.runtime.pc.next = .index (pc + 1)
  rw [pc_eq, Position.next_index]

/--
An instruction of a compiled program leaves the machine in range.  The program
counter goes on or behind an operand, and what stands there is an instruction,
because the last one is the end and never goes on.
-/
theorem stepIn {row : List Operator} (encodes : program.Encodes row)
    (inRange : machine.runtime.InRange program) (eofValue : Number) :
    (machine.stepIn program eofValue).2.runtime.InRange program := by
  obtain ⟨pc, pc_eq, pc_lt⟩ := inRange.pc
  obtain ⟨pointer, value, pointer_eq, cell_eq, -⟩ := inRange.exists_cell
  have onTape := Tape.lt_length_of_cell? cell_eq
  have has := Program.has_fetch pc_lt
  generalize (program.fetch pc).operator = operator, (program.fetch pc).operand = operand at has
  rw [stepIn_of_has pc_eq has]
  by_cases atEnd : operator = .finish
  · subst atEnd
    exact inRange.stop
  have behind := encodes.succ_lt has atEnd
  have target := encodes.operand_succ_lt has atEnd
  cases operator with
  | finish => exact absurd rfl atEnd
  | moveRight =>
      rcases Nat.lt_or_ge (pointer + 1) machine.runtime.tape.length with inside | last
      · rw [step_moveRight pointer_eq inside]
        exact inRange.movedTo pc_eq behind inside
      · rw [step_moveRight_last pointer_eq last]
        exact inRange.stop
  | moveLeft =>
      cases pointer with
      | zero =>
          rw [step_moveLeft_first pointer_eq]
          exact inRange.stop
      | succ left =>
          rw [step_moveLeft pointer_eq]
          exact inRange.movedTo pc_eq behind (by omega)
  | increment =>
      rw [step_increment pointer_eq cell_eq]
      exact inRange.storedAt pc_eq behind _
  | decrement =>
      rw [step_decrement pointer_eq cell_eq]
      exact inRange.storedAt pc_eq behind _
  | output =>
      rw [step_output pointer_eq cell_eq, pc_eq]
      exact inRange.jump behind
  | input =>
      cases pending_eq : machine.channel.pending with
      | nil =>
          rw [step_input_nil pointer_eq pending_eq]
          exact inRange.storedAt pc_eq behind _
      | cons byte rest =>
          rw [step_input_cons pointer_eq pending_eq]
          have taken : ({ machine with channel.pending := rest } : Machine).runtime.InRange
              program := inRange
          exact taken.storedAt pc_eq behind _
  | loopStart =>
      rw [step_loopStart pointer_eq cell_eq, pc_eq]
      split
      · exact inRange.goneTo target
      · exact inRange.goneTo behind
  | loopEnd =>
      rw [step_loopEnd pointer_eq cell_eq, pc_eq]
      split
      · exact inRange.goneTo behind
      · exact inRange.goneTo target

/-! ### Runs -/

theorem run {row : List Operator} (encodes : program.Encodes row)
    (inRange : machine.runtime.InRange program) (eofValue : Number) (count : Nat) :
    (machine.run program eofValue count).2.runtime.InRange program :=
  run_induction (motive := fun machine => machine.runtime.InRange program)
    (fun _ inRange => inRange.stepIn encodes eofValue) inRange count

theorem isInside (inRange : runtime.InRange program) : runtime.isInside program = true := by
  obtain ⟨pc, pc_eq, inside⟩ := inRange.pc
  rw [Runtime.isInside, pc_eq]
  exact decide_eq_true inside

/-- A machine in range of a compiled program never misses an instruction. -/
theorem staysInside {row : List Operator} (encodes : program.Encodes row)
    (inRange : machine.runtime.InRange program) (eofValue : Number) :
    machine.StaysInside program eofValue := by
  intro count reached ran
  have kept := inRange.run encodes eofValue count
  rw [ran] at kept
  exact kept.isInside

end Runtime.InRange

end Machine

end TapeDebugger
