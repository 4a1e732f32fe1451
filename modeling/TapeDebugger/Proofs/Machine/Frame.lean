import TapeDebugger.Proofs.Machine.Runs

/-!
# What an instruction leaves alone

No instruction changes the sizes of the tape, and only those for output and for
input touch the channel.  This holds of every machine, also of one whose pointer
is off the tape.
-/

namespace TapeDebugger

namespace Machine

variable {machine : Machine} {operator : Operator}

/-! ## The tape -/

/-- The cell size and the length of a tape. -/
def Tape.sizes (tape : Tape) : CellSize × Nat :=
  (tape.cellSize, tape.length)

@[simp] theorem Runtime.sizes_store (runtime : Runtime) (value : Nat) :
    (runtime.store value).tape.sizes = runtime.tape.sizes := by
  unfold store
  split
  · simp only [Tape.sizes, Tape.cellSize_write, Tape.length_write]
  · rfl

theorem sizes_proceedChanging (change : Nat → Nat) :
    (machine.proceedChanging change).2.runtime.tape.sizes = machine.runtime.tape.sizes := by
  unfold proceedChanging
  split
  · exact machine.runtime.sizes_store _
  · rfl

theorem sizes_step (eofValue : Number) (operator : Operator) (target : Position) :
    (machine.step eofValue operator target).2.runtime.tape.sizes = machine.runtime.tape.sizes := by
  cases operator with
  | finish | output => rfl
  | moveRight | moveLeft | loopStart | loopEnd =>
      simp only [step]
      split <;> rfl
  | increment | decrement => exact sizes_proceedChanging _
  | input => exact machine.runtime.sizes_store _

/-- A run goes on with a tape of the same sizes. -/
theorem sizes_run (machine : Machine) (program : Program) (eofValue : Number) (count : Nat) :
    (machine.run program eofValue count).2.runtime.tape.sizes = machine.runtime.tape.sizes :=
  run_induction (motive := fun reached => reached.runtime.tape.sizes = machine.runtime.tape.sizes)
    (fun _ same => (sizes_step eofValue _ _).trans same) rfl count

/-- Only the instructions that store a value change the tape. -/
theorem tape_step_of_not_storing (eofValue : Number) (target : Position)
    (notIncrement : operator ≠ .increment) (notDecrement : operator ≠ .decrement)
    (notInput : operator ≠ .input) :
    (machine.step eofValue operator target).2.runtime.tape = machine.runtime.tape := by
  cases operator with
  | finish | output => rfl
  | moveRight | moveLeft | loopStart | loopEnd =>
      simp only [step]
      split <;> rfl
  | increment => exact absurd rfl notIncrement
  | decrement => exact absurd rfl notDecrement
  | input => exact absurd rfl notInput

theorem Runtime.cell_store_of_elsewhere (runtime : Runtime) {index : Nat} (value : Nat)
    (elsewhere : runtime.pointer ≠ .index index) :
    (runtime.store value).tape.cell? index = runtime.tape.cell? index := by
  unfold store
  split
  case h_1 other pointer_eq =>
    apply Tape.cell?_write_of_ne
    rintro rfl
    exact elsewhere pointer_eq
  case h_2 => rfl

/-- No instruction changes a cell that the pointer is not at. -/
theorem cell_step_of_elsewhere {index : Nat} (eofValue : Number) (operator : Operator)
    (target : Position) (elsewhere : machine.runtime.pointer ≠ .index index) :
    (machine.step eofValue operator target).2.runtime.tape.cell? index =
      machine.runtime.tape.cell? index := by
  have changing (change : Nat → Nat) :
      (machine.proceedChanging change).2.runtime.tape.cell? index =
        machine.runtime.tape.cell? index := by
    unfold proceedChanging
    split
    · exact machine.runtime.cell_store_of_elsewhere _ elsewhere
    · rfl
  cases operator with
  | increment | decrement => exact changing _
  | input => exact machine.runtime.cell_store_of_elsewhere _ elsewhere
  | _ => rw [tape_step_of_not_storing eofValue target (by decide) (by decide) (by decide)]

/-! ## The channel -/

theorem channel_proceedChanging (change : Nat → Nat) :
    (machine.proceedChanging change).2.channel = machine.channel := by
  unfold proceedChanging
  split <;> rfl

theorem channel_step_of_silent (eofValue : Number) (target : Position)
    (notOutput : operator ≠ .output) (notInput : operator ≠ .input) :
    (machine.step eofValue operator target).2.channel = machine.channel := by
  cases operator with
  | finish => rfl
  | moveRight | moveLeft | loopStart | loopEnd =>
      simp only [step]
      split <;> rfl
  | increment | decrement => exact channel_proceedChanging _
  | output => exact absurd rfl notOutput
  | input => exact absurd rfl notInput

/-- Whatever is not for input leaves alone what is pending. -/
theorem pending_step_of_not_input (eofValue : Number) (target : Position)
    (notInput : operator ≠ .input) :
    (machine.step eofValue operator target).2.channel.pending = machine.channel.pending := by
  by_cases output : operator = .output
  · subst output
    rfl
  · rw [channel_step_of_silent eofValue target output notInput]

end Machine

end TapeDebugger
