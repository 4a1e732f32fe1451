import TapeDebugger.Session.Operations

/-!
# Looking into a run

Reports on the pointer, the cells and the next instruction of the current run.
None of them changes anything, and none has an answer unless the session runs.
-/

namespace TapeDebugger

open Machine (Runtime)

namespace Session

/-- A report on a position of the tape; a position between two cells has no value. -/
structure CellReport where
  index : Rat
  value? : Option Nat
  current : Bool
  deriving DecidableEq, Repr

namespace CellReport

/-- The value of a cell as a character, if it is printable. -/
def char? (report : CellReport) : Option Char :=
  report.value?.bind fun value =>
    if Machine.isPrintable (.finite value) then some (Char.ofNat value) else none

end CellReport

/-- A report on an instruction; the index is counted from 1. -/
structure InstructionReport where
  index : Machine.Position
  operator : Operator
  deriving DecidableEq, Repr

/-- Why no instruction is shown. -/
inductive InstructionError where
  | user (error : UserError)
  | missing
  deriving DecidableEq, Repr

def reportAt (runtime : Runtime) (position : Rat) : CellReport :=
  { index := position
    value? :=
      (Number.toNat? (.finite position)).bind runtime.tape.cell?
    current := position = runtime.pointer.value }

def dataPointer (session : Session) : Except UserError Machine.Position := do
  let (_, runtime) ← session.execution
  pure runtime.pointer

def cellAt (runtime : Runtime) (index : Number) : Except UserError CellReport :=
  let outOfRange := .error (.cellOutOfRange index runtime.tape.length)
  match index.toNat? with
  | some cell => if cell < runtime.tape.length then .ok (reportAt runtime cell) else outOfRange
  | none => outOfRange

/-- The report on the cell of an index, or on the one at the pointer. -/
def cell (session : Session) (index? : Option Number) : Except UserError CellReport := do
  let (_, runtime) ← session.execution
  cellAt runtime (index?.getD (.finite runtime.pointer.value))

/-- The positions from `first` to `last` in steps of 1, at most `budget` of them. -/
def positionsFrom (last : Rat) : (budget : Nat) → (first : Rat) → List Rat
  | 0, _ => []
  | budget + 1, first =>
      if first ≤ last then first :: positionsFrom last budget (Number.round (first + 1)) else []

/--
The positions within a radius of the pointer that are on the tape.  They start
at the lower end of the radius, wherever that is.
-/
def windowPositions (length : Nat) (pointer : Rat) : Number → List Rat
  | .nan => []
  | .infinite negative =>
      if negative then [] else positionsFrom (length - 1) length 0
  | .finite radius =>
      let lower := Number.round (pointer - radius)
      let upper := Number.round (pointer + radius)
      let first := if lower < 0 then 0 else lower
      let last := if upper < length - 1 then upper else length - 1
      positionsFrom last length first

/-- The reports on the tape within a radius of the pointer, or within the radius that is set. -/
def tapeWindow (session : Session) (radius? : Option Number) :
    Except UserError (List CellReport) := do
  let (_, runtime) ← session.execution
  let radius := radius?.getD (.finite session.settings.windowRadius)
  pure ((windowPositions runtime.tape.length runtime.pointer.value radius).map (reportAt runtime))

/-- The report on the instruction at the program counter. -/
def currentInstruction (session : Session) : Except InstructionError InstructionReport :=
  match session.execution with
  | .error error => .error (.user error)
  | .ok (program, runtime) =>
      if runtime.isInside program then
        .ok ⟨runtime.pc.next, (runtime.instruction program).operator⟩
      else .error .missing

end Session

end TapeDebugger
