import TapeDebugger.Command.Basic
import TapeDebugger.Log
import TapeDebugger.Machine.Run
import TapeDebugger.Settings.Basic

/-!
# Sessions

A session debugs one program at a time: it is loaded, run and run again.  The
phase says how far it has come and holds just what that phase has.  What a
session does shows in its answer and in the signals it gives, in their order.
-/

namespace TapeDebugger

open Machine (Halt Channel Runtime TapeError)

namespace Session

/-! ## States -/

/-- How far a session has come. -/
inductive Phase where
  | unloaded
  | loaded (program : Program)
  | running (program : Program) (runtime : Runtime)
  | halted (program : Program) (runtime : Runtime) (halt : Halt)
  deriving DecidableEq, Repr

/-- A phase by its name alone. -/
inductive Status where
  | unloaded
  | loaded
  | running
  | halted
  deriving DecidableEq, Repr

def Status.name : Status → String
  | unloaded => "unloaded"
  | loaded => "loaded"
  | running => "running"
  | halted => "halted"

namespace Phase

def status : Phase → Status
  | unloaded => .unloaded
  | loaded _ => .loaded
  | running _ _ => .running
  | halted _ _ _ => .halted

def program? : Phase → Option Program
  | unloaded => none
  | loaded program | running program _ | halted program _ _ => some program

def runtime? : Phase → Option Runtime
  | unloaded | loaded _ => none
  | running _ runtime | halted _ runtime _ => some runtime

/-- How the current run has ended. -/
def halt? : Phase → Option Halt
  | halted _ _ halt => some halt
  | _ => none

/-- Changes the runtime, if there is one. -/
def mapRuntime (change : Runtime → Runtime) : Phase → Phase
  | running program runtime => running program (change runtime)
  | halted program runtime halt => halted program (change runtime) halt
  | phase => phase

/-- The phase with its program alone. -/
def withoutRuntime (phase : Phase) : Phase :=
  match phase.program? with
  | some program => loaded program
  | none => unloaded

end Phase

end Session

/--
A session; `retired` holds the runtimes of earlier runs, the first one first,
as whoever started them may still look at them.
-/
structure Session where
  settings : Settings := {}
  channel : Channel := {}
  phase : Session.Phase := .unloaded
  sourceName? : Option String := none
  retired : List Runtime := []
  deriving DecidableEq, Repr

namespace Session

def status (session : Session) : Status :=
  session.phase.status

/-- The runtimes of all runs so far, the first one first. -/
def runs (session : Session) : List Runtime :=
  session.retired ++ session.phase.runtime?.toList

/-! ## Errors of the user -/

/-- What is wrong with what the user asks for. -/
inductive UserError where
  | noProgram
  | notRunning
  | badCount (text : String)
  | badInstructionIndex (text : String)
  | badCellIndex (text : String)
  | instructionOutOfRange (index? : Option Number) (count : Nat)
  | cellOutOfRange (index : Number) (length : Nat)
  | missingArgument (command : Command)
  deriving DecidableEq, Repr

/-- The kinds of what is wrong with what the user asks for. -/
inductive UserError.Kind where
  | noProgramLoaded
  | notRunning
  | invalidCount
  | invalidIndex
  | missingArgument
  deriving DecidableEq, Repr

def UserError.Kind.name : UserError.Kind → String
  | noProgramLoaded => "no_program_loaded"
  | notRunning => "not_running"
  | invalidCount => "invalid_count"
  | invalidIndex => "invalid_index"
  | missingArgument => "missing_argument"

def UserError.kind : UserError → UserError.Kind
  | noProgram => .noProgramLoaded
  | notRunning => .notRunning
  | badCount _ => .invalidCount
  | badInstructionIndex _ | badCellIndex _ => .invalidIndex
  | instructionOutOfRange _ _ | cellOutOfRange _ _ => .invalidIndex
  | missingArgument _ => .missingArgument

def UserError.message : UserError → String
  | noProgram => "No program loaded, use 'file'."
  | notRunning => "The program is not being run."
  | badCount text => s!"{text}: Not a valid instruction count."
  | badInstructionIndex text => s!"{text}: Not a valid instruction index."
  | badCellIndex text => s!"{text}: Not a valid cell index."
  | instructionOutOfRange index? count =>
      let index := (index?.map Number.text).getD "undefined"
      s!"{index}: Not in range of program's instructions [1..{count}]"
  | cellOutOfRange index length => s!"{index.text}: Not in range [0..{length})."
  | missingArgument command =>
      let argument := command.argument?.getD ""
      s!"error: '{command.name}' takes exactly one {argument} argument."

/-- Why a run does not start. -/
inductive RunError where
  | user (error : UserError)
  | tape (error : TapeError)
  deriving DecidableEq, Repr

/-! ## Signals -/

/-- What happens to the program of a session. -/
inductive Event where
  | loaded (program : Program) (sourceName? : Option String)
  | loadFailed (error : Program.CompileError) (sourceName? : Option String)
  | started (runtime : Runtime)
  | halted (halt : Halt)
  deriving DecidableEq, Repr

/-- What a session lets others know while it works. -/
inductive Signal where
  | wrote (byte : UInt8)
  | noted (entry : Log.Entry)
  | published (status : Status)
  | event (event : Event)
  deriving DecidableEq, Repr

/-- What comes of an operation: its answer, the session after it, and the signals it gave. -/
structure Reply (α : Type) where
  answer : α
  session : Session
  signals : List Signal := []
  deriving Repr

end Session

end TapeDebugger
