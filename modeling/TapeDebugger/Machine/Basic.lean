import TapeDebugger.Machine.Channel
import TapeDebugger.Machine.Position
import TapeDebugger.Machine.Tape
import TapeDebugger.Program.Basic

/-!
# The machine

A machine executes one instruction at a time on a runtime and a channel.  An
instruction that fails leaves the program counter and the pointer where they
were, so that the report of the error can tell them.

A pointer at no index of the tape meets no cell.  Nothing can be stored there, the byte
written from there is 0, and a bracket takes it for a cell that is not 0.
-/

namespace TapeDebugger

open Program (Instruction)

namespace Machine

/-! ## States -/

/-- A run of a program: whether it goes on, the next instruction, the pointer and the tape. -/
structure Runtime where
  running : Bool := true
  pc : Position := .index 0
  pointer : Position := .index 0
  tape : Tape
  deriving DecidableEq, Repr

namespace Runtime

/-- The value of the cell at the pointer, if the pointer is on the tape. -/
def cell? (runtime : Runtime) : Option Nat :=
  runtime.pointer.index?.bind runtime.tape.cell?

def stop (runtime : Runtime) : Runtime :=
  { runtime with running := false }

/-- Stores a value in the cell at the pointer, if there is one. -/
def store (runtime : Runtime) (value : Nat) : Runtime :=
  match runtime.pointer with
  | .index index => { runtime with tape := runtime.tape.write index value }
  | .stray _ => runtime

def goBehind (runtime : Runtime) (position : Position) : Runtime :=
  { runtime with pc := position.next }

def advance (runtime : Runtime) : Runtime :=
  { runtime with pc := runtime.pc.next }

/-- Whether the program counter is at an instruction of the program. -/
def isInside (runtime : Runtime) (program : Program) : Bool :=
  runtime.pc.index?.any fun index => index < program.count

/-- The next instruction, for a program counter that is at one. -/
def instruction (runtime : Runtime) (program : Program) : Instruction :=
  program.fetch (runtime.pc.index?.getD program.count)

end Runtime

/-! ## Errors and outcomes -/

inductive Fault where
  | pointerOverflow (length : Nat)
  | pointerUnderflow
  deriving DecidableEq, Repr

namespace Fault

def name : Fault → String
  | pointerOverflow _ => "pointer_overflow"
  | pointerUnderflow => "pointer_underflow"

def message : Fault → String
  | pointerOverflow length =>
      s!"trying to increment the data pointer out of range ({length})"
  | pointerUnderflow => "trying to decrement the data pointer below 0"

end Fault

/-- A fault with the instruction that met it and the state it was met in. -/
structure RuntimeError where
  fault : Fault
  pc : Position
  operator : Operator
  pointer : Position
  cell? : Option Nat
  deriving DecidableEq, Repr

/-- How a run ends. -/
inductive Halt where
  | normal
  | error (error : RuntimeError)
  deriving DecidableEq, Repr

/-- What comes of an instruction. -/
inductive Outcome where
  | continued
  | halted (halt : Halt)
  deriving DecidableEq, Repr

end Machine

/-- A run of a program together with the channel it uses. -/
structure Machine where
  runtime : Machine.Runtime
  channel : Machine.Channel
  deriving DecidableEq, Repr

namespace Machine

/-! ## One instruction -/

def halt (machine : Machine) (halt : Halt) : Outcome × Machine :=
  (.halted halt, { machine with runtime := machine.runtime.stop })

/-- Ends the run because of a fault in an instruction. -/
def fail (machine : Machine) (operator : Operator) (fault : Fault) : Outcome × Machine :=
  let error : RuntimeError :=
    { fault
      operator
      pc := machine.runtime.pc
      pointer := machine.runtime.pointer
      cell? := machine.runtime.cell? }
  machine.halt (.error error)

def proceed (machine : Machine) : Outcome × Machine :=
  (.continued, { machine with runtime := machine.runtime.advance })

def proceedWith (machine : Machine) (value : Nat) : Outcome × Machine :=
  proceed { machine with runtime := machine.runtime.store value }

/-- Changes the value of the cell at the pointer, if there is one, and goes on. -/
def proceedChanging (machine : Machine) (change : Nat → Nat) : Outcome × Machine :=
  match machine.runtime.cell? with
  | some value => machine.proceedWith (change value)
  | none => machine.proceed

def proceedAt (machine : Machine) (pointer : Position) : Outcome × Machine :=
  proceed { machine with runtime := { machine.runtime with pointer } }

def proceedBehind (machine : Machine) (position : Position) : Outcome × Machine :=
  (.continued, { machine with runtime := machine.runtime.goBehind position })

/--
Executes an operator; a bracket that jumps goes on behind its target.  At the
end of the input a cell takes the residue of `eofValue`.
-/
@[inline] def step (eofValue : Number) (operator : Operator) (target : Position)
    (machine : Machine) : Outcome × Machine :=
  match operator with
  | .finish => machine.halt .normal
  | .moveRight =>
      let next := machine.runtime.pointer.next
      let length := machine.runtime.tape.length
      if next.isBehind length then machine.fail operator (.pointerOverflow length)
      else machine.proceedAt next
  | .moveLeft =>
      if machine.runtime.pointer = .index 0 then machine.fail operator .pointerUnderflow
      else machine.proceedAt machine.runtime.pointer.previous
  | .increment =>
      let modulus := machine.runtime.tape.modulus
      machine.proceedChanging fun value => (value + 1) % modulus
  | .decrement =>
      let modulus := machine.runtime.tape.modulus
      machine.proceedChanging fun value => (value + modulus - 1) % modulus
  | .output =>
      let byte := (machine.runtime.cell?.getD 0).toUInt8
      proceed { machine with channel := machine.channel.write byte }
  | .input =>
      let (byte?, channel) := machine.channel.read
      let value :=
        match byte? with
        | some byte => byte.toNat
        | none => eofValue.residue machine.runtime.tape.modulus
      proceedWith { machine with channel } value
  | .loopStart =>
      if machine.runtime.cell? = some 0 then machine.proceedBehind target
      else machine.proceed
  | .loopEnd =>
      if machine.runtime.cell? = some 0 then machine.proceed
      else machine.proceedBehind target

end Machine

end TapeDebugger
