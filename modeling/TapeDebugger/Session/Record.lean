import TapeDebugger.Session.Operations

/-!
# The record of a session

What a session publishes is a record whose fields are set one by one.  Loading, running and
discarding build it anew; stepping and jumping copy the one before and replace some of its
fields; a runtime that is stopped or goes on changes inside the record that holds it.  So
nothing but the operations themselves makes the fields of a record agree.
-/

namespace TapeDebugger

open Machine (Outcome Runtime RuntimeError)

namespace Session

/-! ## Records -/

inductive HaltReason where
  | normal
  | error
  deriving DecidableEq, Repr

def HaltReason.name : HaltReason → String
  | normal => "normal"
  | error => "error"

/-- What a session publishes; the last two fields are for a run that has halted. -/
structure State where
  status : Status
  program? : Option Program
  runtime? : Option Runtime
  sourceName? : Option String := none
  haltReason? : Option HaltReason := none
  runtimeError? : Option RuntimeError := none
  deriving DecidableEq, Repr

namespace State

/-- The record of a session that nothing has been done with. -/
def initial : State :=
  { status := .unloaded, program? := none, runtime? := none }

/-- The program and the runtime, while running and if both are there. -/
def execution (state : State) : Except UserError (Program × Runtime) :=
  match state.status, state.runtime?, state.program? with
  | .running, some runtime, some program => .ok (program, runtime)
  | _, _, _ => .error .notRunning

/-- The runtime has changed inside the record, if there is one. -/
def mapRuntime (state : State) (change : Runtime → Runtime) : State :=
  { state with runtime? := state.runtime?.map change }

def stopRuntime (state : State) : State :=
  state.mapRuntime Runtime.stop

def load (limits : Program.Limits) (source : String) (sourceName? : Option String) : State :=
  match Program.compile limits source with
  | .error _ => { status := .unloaded, program? := none, runtime? := none, sourceName? }
  | .ok program =>
      { status := .loaded, program? := some program, runtime? := none, sourceName? }

def discardRuntime (state : State) : State :=
  let stopped := state.stopRuntime
  { status := if stopped.program?.isSome then .loaded else .unloaded
    program? := stopped.program?
    runtime? := none
    sourceName? := stopped.sourceName? }

/-- A start that finds no tape has stopped the runtime before, and leaves all else. -/
def run (state : State) (settings : Settings) : State :=
  match state.program? with
  | none => state
  | some program =>
      let stopped := state.stopRuntime
      match newTape settings with
      | .error _ => stopped
      | .ok tape =>
          { status := .running
            program? := some program
            runtime? := some { tape }
            sourceName? := state.sourceName? }

/-- A copy of the record before, with what a halt sets; an error of an earlier run is not unset. -/
def settle (state : State) : Outcome → State
  | .continued => { state with }
  | .halted .normal => { state with status := .halted, haltReason? := some .normal }
  | .halted (.error error) =>
      { state with
        status := .halted
        haltReason? := some .error
        runtimeError? := some error }

def jump (state : State) (index? : Option Number) : State :=
  match state.execution with
  | .error _ => state
  | .ok (program, runtime) =>
      match index?.bind Number.toNat? with
      | some (pc + 1) =>
          if pc < program.count then
            let moved := state.mapRuntime fun _ => { runtime with pc := .index pc }
            { moved with }
          else state
      | _ => state

end State

/-! ## Sessions by their records -/

/-- A session with the record that its operations build. -/
structure Recorded where
  settings : Settings := {}
  channel : Machine.Channel := {}
  state : State := .initial
  deriving DecidableEq, Repr

namespace Recorded

/-- The runtime has gone on inside the record, and then the outcome is settled. -/
def settle (recorded : Recorded) (outcome : Outcome) (machine : Machine) : Recorded :=
  let changed := recorded.state.mapRuntime fun _ => machine.runtime
  { recorded with state := changed.settle outcome, channel := machine.channel }

def load (recorded : Recorded) (source : String) (sourceName? : Option String) : Recorded :=
  { recorded with state := .load recorded.settings.limits source sourceName? }

def discardRuntime (recorded : Recorded) : Recorded :=
  { recorded with state := recorded.state.discardRuntime }

def run (recorded : Recorded) : Recorded :=
  { recorded with state := recorded.state.run recorded.settings }

def next (recorded : Recorded) (count : Number) (patience : Nat) : Option Recorded :=
  match recorded.state.execution with
  | .error _ => some recorded
  | .ok (program, runtime) =>
      match count.toNat? with
      | none => some recorded
      | some _ =>
          let machine : Machine := ⟨runtime, recorded.channel⟩
          let eofValue := .finite recorded.settings.eofValue
          (machine.runNumber program eofValue count patience).toOption.map
            fun (outcome, machine) => recorded.settle outcome machine

def resume (recorded : Recorded) (patience : Nat) : Option Recorded :=
  match recorded.state.execution with
  | .error _ => some recorded
  | .ok (program, runtime) =>
      let machine : Machine := ⟨runtime, recorded.channel⟩
      let eofValue := .finite recorded.settings.eofValue
      let limit := recorded.settings.continueStepLimit
      (machine.resume program eofValue limit patience).toOption.map fun
        | (.paused _, machine) => recorded.settle .continued machine
        | (.halted halt, machine) => recorded.settle (.halted halt) machine

def jump (recorded : Recorded) (index? : Option Number) : Recorded :=
  { recorded with state := recorded.state.jump index? }

def withSettings (recorded : Recorded) (settings : Settings) : Recorded :=
  { recorded with settings }

def queueInput (recorded : Recorded) (text : String) : Recorded :=
  { recorded with channel := (recorded.channel.queue text).2 }

def clearOutput (recorded : Recorded) : Recorded :=
  { recorded with channel := recorded.channel.clearOutput }

end Recorded

end Session

end TapeDebugger
