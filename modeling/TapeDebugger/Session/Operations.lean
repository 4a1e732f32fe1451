import TapeDebugger.Program.Scan
import TapeDebugger.Session.Basic

/-!
# Working with a session

Loading, running, stepping, jumping and stopping.  An error of the user leaves
the session as it is and gives no signal.
-/

namespace TapeDebugger

open Machine (Outcome Resumption Runtime Tape TapeError)

namespace Session

/-! ## Ending a run -/

def mapRuntime (session : Session) (change : Runtime → Runtime) : Session :=
  { session with phase := session.phase.mapRuntime change }

def stop (session : Session) : Session :=
  session.mapRuntime Runtime.stop

/-- The session with its current runtime, if any, stopped and dropped. -/
def retire (session : Session) : Session :=
  let stopped := session.stop
  { stopped with retired := stopped.runs, phase := stopped.phase.withoutRuntime }

/-- Stops the current run and keeps the program. -/
def discard (session : Session) : Reply Unit :=
  let session := session.retire
  ⟨(), session, [.published session.status]⟩

/-! ## Loading -/

/--
Compiles a source and makes it the current program.  The program before it is
dropped first, so that a source that does not compile leaves none.
-/
def load (session : Session) (source : String) (sourceName? : Option String) :
    Reply (Except Program.CompileError Program) :=
  let session := { session.retire with phase := .unloaded, sourceName? }
  let shownName := sourceName?.getD "source"
  match Program.compile session.settings.limits source with
  | .error error =>
      { answer := .error error
        session
        signals :=
          [.published .unloaded,
            .noted (Log.debug s!"Compilation of {shownName} failed: {error.fault.name}"),
            .event (.loadFailed error sourceName?)] }
  | .ok program =>
      { answer := .ok program
        session := { session with phase := .loaded program }
        signals :=
          [.published .unloaded,
            .noted (Log.debug s!"Compiled {shownName}: {program.count} instructions"),
            .published .loaded,
            .event (.loaded program sourceName?)] }

/-! ## Running -/

/-- A new tape of the sizes that are set. -/
def newTape (settings : Settings) : Except TapeError Tape :=
  Tape.create settings.cellSize (.finite settings.tapeSize)

/--
Starts the program anew on a blank tape.  The run before it is stopped even if
there is no tape of the size that is set, and then nothing takes its place.
-/
def run (session : Session) : Reply (Except RunError Runtime) :=
  match session.phase.program? with
  | none => { answer := .error (.user .noProgram), session }
  | some program =>
      match newTape session.settings with
      | .error error => { answer := .error (.tape error), session := session.stop }
      | .ok tape =>
          let runtime : Runtime := { tape }
          let cells := Number.integerText session.settings.tapeSize
          let values := session.settings.cellSize.modulus
          { answer := .ok runtime
            session := { session.retire with phase := .running program runtime }
            signals :=
              [.noted (Log.debug s!"Starting run with {cells} cells of {values} values"),
                .published .running,
                .event (.started runtime)] }

/-- The program and the runtime, while running. -/
def execution (session : Session) : Except UserError (Program × Runtime) :=
  match session.phase with
  | .running program runtime => .ok (program, runtime)
  | _ => .error .notRunning

/-! ## Stepping -/

def eofValue (session : Session) : Number :=
  .finite session.settings.eofValue

def haltNote : Machine.Halt → Log.Entry
  | .normal => Log.debug "Program halted normally"
  | .error error => Log.debug s!"Program halted with {error.fault.name}"

/-- The signals for the bytes that were written since there were only `before` of them. -/
def wroteSince (before : Nat) (channel : Machine.Channel) : List Signal :=
  (channel.output.toList.drop before).map Signal.wrote

/-- Takes over a machine that has not halted. -/
def pauseAt {α : Type} (session : Session) (program : Program) (machine : Machine)
    (answer : α) (notes : List Signal) : Reply α :=
  { answer
    session :=
      { session with phase := .running program machine.runtime, channel := machine.channel }
    signals :=
      wroteSince session.channel.output.size machine.channel ++ notes ++ [.published .running] }

/-- Takes over a machine that has halted. -/
def haltAt {α : Type} (session : Session) (program : Program) (machine : Machine)
    (halt : Machine.Halt) (answer : α) : Reply α :=
  { answer
    session :=
      { session with phase := .halted program machine.runtime halt, channel := machine.channel }
    signals :=
      wroteSince session.channel.output.size machine.channel ++
        [.noted (haltNote halt), .published .halted, .event (.halted halt)] }

/-- The reply that takes over what comes of a count, and answers how it went. -/
def settle (session : Session) (program : Program) :
    Outcome × Machine → Reply (Except UserError Outcome)
  | (.continued, machine) => session.pauseAt program machine (.ok .continued) []
  | (.halted halt, machine) => session.haltAt program machine halt (.ok (.halted halt))

/-- The reply that takes over what comes of going on without a count. -/
def settleResumption (session : Session) (program : Program) :
    Resumption × Machine → Reply (Except UserError Resumption)
  | (.paused steps, machine) =>
      session.pauseAt program machine (.ok (.paused steps))
        [.noted (Log.debug s!"continue paused after {Number.integerText steps} instructions")]
  | (.halted halt, machine) => session.haltAt program machine halt (.ok (.halted halt))

/--
Executes up to `count` instructions.  There is no answer if they are interrupted; only
a count that no counter reaches lets patience be spent.
-/
def next (session : Session) (count : Number) (patience : Nat) :
    Option (Reply (Except UserError Outcome)) :=
  match session.execution with
  | .error error => some { answer := .error error, session }
  | .ok (program, runtime) =>
      match count.toNat? with
      | none => some { answer := .error (.badCount count.text), session }
      | some _ =>
          let machine : Machine := ⟨runtime, session.channel⟩
          (machine.runNumber program session.eofValue count patience).toOption.map
            (session.settle program)

/--
Executes instructions until the program halts or the step limit is reached.  There is no
answer if they are interrupted; only without a limit that a counter reaches patience can
be spent.
-/
def resume (session : Session) (patience : Nat) :
    Option (Reply (Except UserError Resumption)) :=
  match session.execution with
  | .error error => some { answer := .error error, session }
  | .ok (program, runtime) =>
      let limit := session.settings.continueStepLimit
      let machine : Machine := ⟨runtime, session.channel⟩
      (machine.resume program session.eofValue limit patience).toOption.map
        (session.settleResumption program)

/-- Goes to the instruction of an index counted from 1; no index is out of every range. -/
def jump (session : Session) (index? : Option Number) : Reply (Except UserError Nat) :=
  match session.execution with
  | .error error => { answer := .error error, session }
  | .ok (program, runtime) =>
      match index?.bind Number.toNat? with
      | some (pc + 1) =>
          if pc < program.count then
            { answer := .ok pc
              session := { session with phase := .running program { runtime with pc := .index pc } }
              signals := [.published .running] }
          else { answer := .error (.instructionOutOfRange index? program.count), session }
      | _ => { answer := .error (.instructionOutOfRange index? program.count), session }

/-! ## The channel -/

/-- Queues a text as input; the answer is the number of its bytes. -/
def queueInput (session : Session) (text : String) : Reply Nat :=
  let (count, channel) := session.channel.queue text
  { answer := count, session := { session with channel } }

def clearOutput (session : Session) : Session :=
  { session with channel := session.channel.clearOutput }

/-- The session under other settings, which hold from the next operation on. -/
def withSettings (session : Session) (settings : Settings) : Session :=
  { session with settings }

end Session

end TapeDebugger
