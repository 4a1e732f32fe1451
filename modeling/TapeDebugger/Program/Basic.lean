import TapeDebugger.Program.Operator
import TapeDebugger.Number.Decimal

/-!
# Programs

A compiled program is a row of instructions.  An instruction keeps the place of
its character in the source; the two brackets of a loop point at each other.
-/

namespace TapeDebugger

namespace Program

/-- A place in a source; lines and columns are counted from 1. -/
structure Location where
  line : Nat
  column : Nat
  deriving DecidableEq, Repr

/-- One instruction; `operand` is the index of the partner of a bracket, and 0 otherwise. -/
structure Instruction where
  operator : Operator
  operand : Nat
  location : Location
  deriving DecidableEq, Repr

structure Limits where
  programSize : Int := 4096
  stackSize : Int := 512
  deriving DecidableEq, Repr

inductive Fault where
  | programTooLarge (programSize : Int)
  | tooManyOpens (stackSize : Int)
  | unmatchedOpen
  | unmatchedClose
  deriving DecidableEq, Repr

namespace Fault

def name : Fault → String
  | programTooLarge _ => "program_too_large"
  | tooManyOpens _ => "too_many_opens"
  | unmatchedOpen => "unmatched_open"
  | unmatchedClose => "unmatched_close"

def message : Fault → String
  | programTooLarge programSize =>
      s!"program exceeds {Number.integerText (programSize - 1)} instructions"
  | tooManyOpens stackSize => s!"more than {Number.integerText stackSize} nested '['"
  | unmatchedOpen => "unmatched '['"
  | unmatchedClose => "unmatched ']'"

end Fault

structure CompileError where
  fault : Fault
  location : Location
  deriving DecidableEq, Repr

end Program

/-- A compiled program; `capacity` is the program size it was compiled for. -/
structure Program where
  instructions : Array Program.Instruction
  capacity : Int
  deriving DecidableEq, Repr

namespace Program

/-- How many instructions a program has, its end among them. -/
def count (program : Program) : Nat :=
  program.instructions.size

/-- The instruction at an index; past its last instruction a program reads as its end. -/
def fetch (program : Program) (index : Nat) : Instruction :=
  program.instructions.getD index ⟨.finish, 0, ⟨0, 0⟩⟩

/-- Inside the program an instruction is fetched as it stands. -/
theorem getElem?_eq_some_fetch {program : Program} {index : Nat} (h : index < program.count) :
    program.instructions[index]? = some (program.fetch index) := by
  simp [fetch, count] at h ⊢
  simp [h]

end Program

end TapeDebugger
