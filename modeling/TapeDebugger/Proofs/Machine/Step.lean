import TapeDebugger.Machine.Basic

/-!
# One instruction

What each operator does to a machine whose pointer is on the tape, one equation
for each way it can go.
-/

namespace TapeDebugger

namespace Machine

variable {eofValue : Number} {target : Position} {machine : Machine} {index value : Nat}

/-- The machine with a value stored at an index, gone on to the next instruction. -/
def storedAt (machine : Machine) (index value : Nat) : Machine :=
  { machine with
    runtime :=
      { machine.runtime with
        tape := machine.runtime.tape.write index value
        pc := machine.runtime.pc.next } }

/-- The machine with its pointer at another index, gone on to the next instruction. -/
def movedTo (machine : Machine) (index : Nat) : Machine :=
  { machine with
    runtime := { machine.runtime with pointer := .index index, pc := machine.runtime.pc.next } }

def goneTo (machine : Machine) (pc : Position) : Machine :=
  { machine with runtime := { machine.runtime with pc } }

def stopped (machine : Machine) : Machine :=
  { machine with runtime := machine.runtime.stop }

/-- The error that a fault of an operator is reported with. -/
def errorOf (machine : Machine) (operator : Operator) (fault : Fault) : RuntimeError where
  fault := fault
  operator := operator
  pc := machine.runtime.pc
  pointer := machine.runtime.pointer
  cell? := machine.runtime.cell?

/-! ## Cells -/

theorem cell?_eq_of_index (pointer_eq : machine.runtime.pointer = .index index) :
    machine.runtime.cell? = machine.runtime.tape.cell? index := by
  rw [Runtime.cell?, pointer_eq]
  rfl

theorem proceedWith_eq (pointer_eq : machine.runtime.pointer = .index index) (value : Nat) :
    machine.proceedWith value = (.continued, machine.storedAt index value) := by
  obtain ⟨⟨running, pc, pointer, tape⟩, channel⟩ := machine
  cases pointer_eq
  rfl

theorem proceedChanging_eq (pointer_eq : machine.runtime.pointer = .index index)
    (cell_eq : machine.runtime.tape.cell? index = some value) (change : Nat → Nat) :
    machine.proceedChanging change = (.continued, machine.storedAt index (change value)) := by
  rw [proceedChanging, cell?_eq_of_index pointer_eq, cell_eq]
  exact proceedWith_eq pointer_eq _

/-! ## Operators -/

theorem step_finish : machine.step eofValue .finish target = (.halted .normal, machine.stopped) :=
  rfl

theorem step_moveRight (pointer_eq : machine.runtime.pointer = .index index)
    (inside : index + 1 < machine.runtime.tape.length) :
    machine.step eofValue .moveRight target = (.continued, machine.movedTo (index + 1)) := by
  have notBehind : ¬ machine.runtime.tape.length ≤ index + 1 := by omega
  simp [step, pointer_eq, notBehind, proceedAt, proceed, Runtime.advance, movedTo]

/-- At the last cell a move to the right halts with an error. -/
theorem step_moveRight_last (pointer_eq : machine.runtime.pointer = .index index)
    (last : machine.runtime.tape.length ≤ index + 1) :
    machine.step eofValue .moveRight target =
      (.halted (.error (machine.errorOf .moveRight
        (.pointerOverflow machine.runtime.tape.length))), machine.stopped) := by
  have behind : machine.runtime.pointer.next.isBehind machine.runtime.tape.length = true := by
    simp [pointer_eq, last]
  simp only [step, behind, if_true]
  rfl

theorem step_moveLeft (pointer_eq : machine.runtime.pointer = .index (index + 1)) :
    machine.step eofValue .moveLeft target = (.continued, machine.movedTo index) := by
  simp [step, pointer_eq, proceedAt, proceed, Runtime.advance, movedTo]

/-- At the first cell a move to the left halts with an error. -/
theorem step_moveLeft_first (pointer_eq : machine.runtime.pointer = .index 0) :
    machine.step eofValue .moveLeft target =
      (.halted (.error (machine.errorOf .moveLeft .pointerUnderflow)), machine.stopped) := by
  simp only [step, pointer_eq, if_true]
  rfl

theorem step_increment (pointer_eq : machine.runtime.pointer = .index index)
    (cell_eq : machine.runtime.tape.cell? index = some value) :
    machine.step eofValue .increment target =
      (.continued, machine.storedAt index ((value + 1) % machine.runtime.tape.modulus)) :=
  proceedChanging_eq pointer_eq cell_eq _

theorem step_decrement (pointer_eq : machine.runtime.pointer = .index index)
    (cell_eq : machine.runtime.tape.cell? index = some value) :
    machine.step eofValue .decrement target =
      (.continued, machine.storedAt index
        ((value + machine.runtime.tape.modulus - 1) % machine.runtime.tape.modulus)) :=
  proceedChanging_eq pointer_eq cell_eq _

theorem step_output (pointer_eq : machine.runtime.pointer = .index index)
    (cell_eq : machine.runtime.tape.cell? index = some value) :
    machine.step eofValue .output target =
      (.continued,
        { machine with channel := machine.channel.write value.toUInt8 }.goneTo
          machine.runtime.pc.next) := by
  simp only [step, cell?_eq_of_index pointer_eq, cell_eq, Option.getD_some]
  rfl

theorem step_input_cons {byte : UInt8} {rest : List UInt8}
    (pointer_eq : machine.runtime.pointer = .index index)
    (pending_eq : machine.channel.pending = byte :: rest) :
    machine.step eofValue .input target =
      (.continued,
        { machine with channel := { machine.channel with pending := rest } }.storedAt index
          byte.toNat) := by
  have read_eq : machine.channel.read = (some byte, { machine.channel with pending := rest }) := by
    rw [Channel.read, pending_eq]
  simp only [step, read_eq]
  exact proceedWith_eq (by exact pointer_eq) _

/-- At the end of the input the residue of the set value is stored. -/
theorem step_input_nil (pointer_eq : machine.runtime.pointer = .index index)
    (pending_eq : machine.channel.pending = []) :
    machine.step eofValue .input target =
      (.continued,
        machine.storedAt index (eofValue.residue machine.runtime.tape.modulus)) := by
  have read_eq : machine.channel.read = (none, machine.channel) := by
    rw [Channel.read, pending_eq]
  simp only [step, read_eq]
  exact proceedWith_eq (by exact pointer_eq) _

/-- An opening bracket goes behind its target at a cell that is 0, and on at any other. -/
theorem step_loopStart (pointer_eq : machine.runtime.pointer = .index index)
    (cell_eq : machine.runtime.tape.cell? index = some value) :
    machine.step eofValue .loopStart target =
      (.continued,
        machine.goneTo (if value = 0 then target.next else machine.runtime.pc.next)) := by
  simp only [step, cell?_eq_of_index pointer_eq, cell_eq, Option.some.injEq]
  split <;> rfl

/-- A closing bracket goes on at a cell that is 0, and behind its target at any other. -/
theorem step_loopEnd (pointer_eq : machine.runtime.pointer = .index index)
    (cell_eq : machine.runtime.tape.cell? index = some value) :
    machine.step eofValue .loopEnd target =
      (.continued,
        machine.goneTo (if value = 0 then machine.runtime.pc.next else target.next)) := by
  simp only [step, cell?_eq_of_index pointer_eq, cell_eq, Option.some.injEq]
  split <;> rfl

end Machine

end TapeDebugger
