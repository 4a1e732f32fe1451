import TapeDebugger.Machine.Tape
import TapeDebugger.Program.Basic

/-!
# Settings

What can be set, and the values in force when nothing is.
-/

namespace TapeDebugger

/-- The settings of the debugger; a step limit of 0 is none. -/
structure Settings where
  tapeSize : Nat := 65535
  cellSize : Machine.CellSize := .bits16
  eofValue : Int := 0
  limits : Program.Limits := {}
  windowRadius : Nat := 4
  continueStepLimit : Nat := 0
  verbose : Bool := false
  deriving DecidableEq, Repr

namespace Settings

def fileName : String := ".tapedbrc.json"

end Settings

end TapeDebugger
