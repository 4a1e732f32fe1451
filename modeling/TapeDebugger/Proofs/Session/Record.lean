import TapeDebugger.Proofs.Session.Invariant

/-!
# Records

Nothing but the operations makes the fields of a record agree.  Each of them keeps the
record consistent: what it builds anew is so by itself, and a copy is because the record
before was.  A history of a session by its record goes with the same history of the session,
and so the record that is left shows how far the session has come.
-/

namespace TapeDebugger

open Machine (Outcome Runtime)

namespace Session

/-! ## Consistent records -/

namespace State.Consistent

variable {state : State} {program : Program} {runtime : Runtime}

theorem initial : State.initial.Consistent where
  unloaded_iff := iff_of_true rfl rfl
  unloaded _ := rfl
  loaded := nofun
  running := nofun
  halted := nofun
  haltReason_iff := iff_of_false nofun nofun
  runtimeError_iff := iff_of_false nofun nofun

/-- A runtime that changes inside the record is still there. -/
theorem mapRuntime (consistent : state.Consistent) (change : Runtime → Runtime) :
    (state.mapRuntime change).Consistent where
  unloaded_iff := consistent.unloaded_iff
  unloaded unloaded := by rw [State.mapRuntime, consistent.unloaded unloaded]; rfl
  loaded loaded := by
    obtain ⟨present, none_eq⟩ := consistent.loaded loaded
    exact ⟨present, by rw [State.mapRuntime, none_eq]; rfl⟩
  running running := by
    obtain ⟨present, started⟩ := consistent.running running
    exact ⟨present, by rwa [State.mapRuntime, Option.isSome_map]⟩
  halted halted := by
    obtain ⟨present, started⟩ := consistent.halted halted
    exact ⟨present, by rwa [State.mapRuntime, Option.isSome_map]⟩
  haltReason_iff := consistent.haltReason_iff
  runtimeError_iff := consistent.runtimeError_iff

/-- A record without a program, a runtime or a halt. -/
theorem of_unloaded (sourceName? : Option String) :
    State.Consistent
      { status := .unloaded, program? := none, runtime? := none, sourceName? } where
  unloaded_iff := iff_of_true rfl rfl
  unloaded _ := rfl
  loaded := nofun
  running := nofun
  halted := nofun
  haltReason_iff := iff_of_false nofun nofun
  runtimeError_iff := iff_of_false nofun nofun

theorem of_loaded (program : Program) (sourceName? : Option String) :
    State.Consistent
      { status := .loaded, program? := some program, runtime? := none, sourceName? } where
  unloaded_iff := iff_of_false nofun nofun
  unloaded := nofun
  loaded _ := ⟨rfl, rfl⟩
  running := nofun
  halted := nofun
  haltReason_iff := iff_of_false nofun nofun
  runtimeError_iff := iff_of_false nofun nofun

theorem of_running (program : Program) (runtime : Runtime) (sourceName? : Option String) :
    State.Consistent
      { status := .running, program? := some program, runtime? := some runtime,
        sourceName? } where
  unloaded_iff := iff_of_false nofun nofun
  unloaded := nofun
  loaded := nofun
  running _ := ⟨rfl, rfl⟩
  halted := nofun
  haltReason_iff := iff_of_false nofun nofun
  runtimeError_iff := iff_of_false nofun nofun

theorem load (limits : Program.Limits) (source : String) (sourceName? : Option String) :
    (State.load limits source sourceName?).Consistent := by
  unfold State.load
  split
  · exact of_unloaded sourceName?
  · exact of_loaded _ sourceName?

theorem discardRuntime (state : State) : state.discardRuntime.Consistent := by
  obtain ⟨status, program?, runtime?, sourceName?, haltReason?, runtimeError?⟩ := state
  cases program? with
  | none => exact of_unloaded sourceName?
  | some program => exact of_loaded program sourceName?

theorem run (consistent : state.Consistent) (settings : Settings) :
    (state.run settings).Consistent := by
  unfold State.run
  split
  · exact consistent
  · dsimp only
    split
    · exact consistent.mapRuntime Runtime.stop
    · exact of_running _ _ _

theorem running_of_execution (executing : state.execution = .ok (program, runtime)) :
    state.status = .running ∧ state.program? = some program ∧ state.runtime? = some runtime := by
  unfold State.execution at executing
  split at executing
  · rename_i status_eq started present
    cases executing
    exact ⟨status_eq, present, started⟩
  · cases executing

/-- A run that halts has not halted before, so there is no error of an earlier halt to show. -/
theorem settle (consistent : state.Consistent) (running : state.status = .running)
    (outcome : Outcome) : (state.settle outcome).Consistent := by
  obtain ⟨present, started⟩ := consistent.running running
  have loaded : state.program? ≠ none := Option.isSome_iff_ne_none.mp present
  have noReason : state.haltReason? = none := by
    rw [← Option.not_isSome_iff_eq_none, consistent.haltReason_iff, running]
    exact nofun
  have noError : state.runtimeError? = none := by
    rw [← Option.not_isSome_iff_eq_none, consistent.runtimeError_iff, noReason]
    exact nofun
  rcases outcome with _ | _ | error
  · exact consistent
  · exact
      { unloaded_iff := iff_of_false nofun loaded
        unloaded := nofun
        loaded := nofun
        running := nofun
        halted := fun _ => ⟨present, started⟩
        haltReason_iff := iff_of_true rfl rfl
        runtimeError_iff := iff_of_false (by rw [State.settle, noError]; exact nofun) nofun }
  · exact
      { unloaded_iff := iff_of_false nofun loaded
        unloaded := nofun
        loaded := nofun
        running := nofun
        halted := fun _ => ⟨present, started⟩
        haltReason_iff := iff_of_true rfl rfl
        runtimeError_iff := iff_of_true rfl rfl }

theorem jump (consistent : state.Consistent) (index? : Option Number) :
    (state.jump index?).Consistent := by
  unfold State.jump
  split
  · exact consistent
  · split
    · split
      · exact consistent.mapRuntime _
      · exact consistent
    · exact consistent

end State.Consistent

/-! ## Histories of records -/

namespace Recorded

/-- A new session by its record, under the settings of a storage. -/
def start (storage : Settings.Storage) : Recorded :=
  { settings := (Settings.load storage).value }

/-- What an operation leaves; an execution that is interrupted leaves nothing. -/
def perform (recorded : Recorded) : Operation → Option Recorded
  | .load source sourceName? => some (recorded.load source sourceName?)
  | .run => some recorded.run
  | .next count patience => recorded.next count patience
  | .resume patience => recorded.resume patience
  | .jump index? => some (recorded.jump index?)
  | .discard => some recorded.discardRuntime
  | .reload storage => some (recorded.withSettings (Settings.load storage).value)
  | .queueInput text => some (recorded.queueInput text)
  | .clearOutput => some recorded.clearOutput

def performAll (recorded : Recorded) (operations : List Operation) : Option Recorded :=
  operations.foldlM perform recorded

variable {recorded next : Recorded} {operation : Operation} {operations : List Operation}

theorem consistent_settle {program : Program} {runtime : Runtime}
    (consistent : recorded.state.Consistent)
    (executing : recorded.state.execution = .ok (program, runtime)) (outcome : Outcome)
    (machine : Machine) : (recorded.settle outcome machine).state.Consistent :=
  (consistent.mapRuntime fun _ => machine.runtime).settle
    (State.Consistent.running_of_execution executing).1 outcome

theorem consistent_next {count : Number} {patience : Nat} (consistent : recorded.state.Consistent)
    (answered : recorded.next count patience = some next) : next.state.Consistent := by
  unfold Recorded.next at answered
  split at answered
  · cases answered
    exact consistent
  · rename_i executing
    split at answered
    · cases answered
      exact consistent
    · obtain ⟨⟨outcome, machine⟩, -, rfl⟩ := Option.map_eq_some_iff.mp answered
      exact consistent_settle consistent executing outcome machine

theorem consistent_resume {patience : Nat} (consistent : recorded.state.Consistent)
    (resumed : recorded.resume patience = some next) : next.state.Consistent := by
  unfold Recorded.resume at resumed
  split at resumed
  · cases resumed
    exact consistent
  · rename_i executing
    obtain ⟨⟨resumption, machine⟩, -, rfl⟩ := Option.map_eq_some_iff.mp resumed
    cases resumption with
    | paused steps => exact consistent_settle consistent executing .continued machine
    | halted halt => exact consistent_settle consistent executing (.halted halt) machine

/-- Every operation keeps the record consistent. -/
theorem consistent_perform (consistent : recorded.state.Consistent)
    (performed : recorded.perform operation = some next) : next.state.Consistent := by
  cases operation with
  | load source sourceName? =>
      cases performed
      exact .load _ source sourceName?
  | run =>
      cases performed
      exact consistent.run _
  | next count patience => exact consistent_next consistent performed
  | resume patience => exact consistent_resume consistent performed
  | jump index? =>
      cases performed
      exact consistent.jump index?
  | discard =>
      cases performed
      exact .discardRuntime _
  | reload | queueInput | clearOutput =>
      cases performed
      exact consistent

/-- So does every history. -/
theorem consistent_performAll (consistent : recorded.state.Consistent)
    (performed : recorded.performAll operations = some next) : next.state.Consistent := by
  induction operations generalizing recorded with
  | nil =>
      cases performed
      exact consistent
  | cons operation rest ih =>
      obtain ⟨middle, first, others⟩ := Option.bind_eq_some_iff.mp performed
      exact ih (consistent_perform consistent first) others

end Recorded

/-! ## The session and its record -/

variable {session : Session}

/-- The session by the record of how far it has come. -/
def recorded (session : Session) : Recorded where
  settings := session.settings
  channel := session.channel
  state := session.state

theorem execution_state (session : Session) : session.state.execution = session.execution := by
  obtain ⟨_, _, phase, _, _⟩ := session
  cases phase <;> rfl

theorem state_stop (session : Session) : session.stop.state = session.state.stopRuntime := by
  obtain ⟨_, _, phase, _, _⟩ := session
  cases phase <;> rfl

theorem recorded_load (session : Session) (source : String) (sourceName? : Option String) :
    (session.load source sourceName?).session.recorded =
      session.recorded.load source sourceName? := by
  have retired_eq : session.retire.settings = session.settings := rfl
  have settings_eq : session.recorded.settings = session.settings := rfl
  simp only [load, Recorded.load, State.load, retired_eq, settings_eq]
  cases Program.compile session.settings.limits source <;> rfl

theorem recorded_discard (session : Session) :
    session.discard.session.recorded = session.recorded.discardRuntime := by
  obtain ⟨_, _, phase, _, _⟩ := session
  cases phase <;> rfl

theorem recorded_run (session : Session) :
    session.run.session.recorded = session.recorded.run := by
  have present_eq : session.recorded.state.program? = session.phase.program? := rfl
  have settings_eq : session.recorded.settings = session.settings := rfl
  simp only [run, Recorded.run, State.run, present_eq, settings_eq]
  cases session.phase.program? with
  | none => rfl
  | some program =>
      cases newTape session.settings with
      | ok tape => rfl
      | error error => rw [recorded, state_stop]; rfl

/-- What a run has come to is settled in the record as in the session. -/
theorem recorded_settle {program : Program} {runtime : Runtime}
    (running : session.phase = .running program runtime) (outcome : Outcome) (machine : Machine) :
    (session.settle program (outcome, machine)).session.recorded =
      session.recorded.settle outcome machine := by
  obtain ⟨_, _, phase, _, _⟩ := session
  cases running
  rcases outcome with _ | _ | error <;> rfl

theorem recorded_next (session : Session) (count : Number) (patience : Nat) :
    session.recorded.next count patience =
      (session.next count patience).map fun reply => reply.session.recorded := by
  have executing_eq : session.recorded.state.execution = session.execution :=
    session.execution_state
  rw [Recorded.next, executing_eq]
  cases executing : session.execution with
  | error error =>
      simp only [next, executing]
      rfl
  | ok found =>
      obtain ⟨program, runtime⟩ := found
      have running := phase_of_execution executing
      cases counted : count.toNat? with
      | none =>
          simp only [next, executing, counted]
          rfl
      | some number =>
          rw [next_of_running executing counted, Option.map_map]
          refine congrArg (Option.map · _) (funext fun result => ?_)
          exact (recorded_settle running result.1 result.2).symm

theorem recorded_resume (session : Session) (patience : Nat) :
    session.recorded.resume patience =
      (session.resume patience).map fun reply => reply.session.recorded := by
  have executing_eq : session.recorded.state.execution = session.execution :=
    session.execution_state
  rw [Recorded.resume, executing_eq]
  cases executing : session.execution with
  | error error =>
      simp only [resume, executing]
      rfl
  | ok found =>
      obtain ⟨program, runtime⟩ := found
      have running := phase_of_execution executing
      rw [resume_of_running executing, Option.map_map]
      refine congrArg (Option.map · _) (funext fun answer => ?_)
      obtain ⟨resumption, machine⟩ := answer
      cases resumption with
      | paused steps => exact (recorded_settle running .continued machine).symm
      | halted halt => exact (recorded_settle running (.halted halt) machine).symm

theorem recorded_jump (session : Session) (index? : Option Number) :
    (session.jump index?).session.recorded = session.recorded.jump index? := by
  have executing_eq : session.recorded.state.execution = session.execution :=
    session.execution_state
  simp only [jump, Recorded.jump, State.jump, executing_eq]
  cases executing : session.execution with
  | error error => rfl
  | ok found =>
      obtain ⟨program, runtime⟩ := found
      have running := phase_of_execution executing
      obtain ⟨_, _, phase, _, _⟩ := session
      cases running
      rcases index?.bind Number.toNat? with _ | _ | pc
      · rfl
      · rfl
      · dsimp only
        split <;> rfl

/-- An operation leaves the record that shows what it leaves of the session. -/
theorem recorded_perform (session : Session) (operation : Operation) :
    session.recorded.perform operation =
      (session.perform operation).map fun reply => reply.session.recorded := by
  cases operation with
  | load source sourceName? =>
      exact congrArg some (session.recorded_load source sourceName?).symm
  | run => exact congrArg some session.recorded_run.symm
  | next count patience =>
      rw [perform, Option.map_map]
      exact session.recorded_next count patience
  | resume patience =>
      rw [perform, Option.map_map]
      exact session.recorded_resume patience
  | jump index? => exact congrArg some (session.recorded_jump index?).symm
  | discard => exact congrArg some session.recorded_discard.symm
  | reload | queueInput | clearOutput => rfl

/-- A history leaves the record that shows what it leaves of the session. -/
theorem recorded_performAll (session : Session) (operations : List Operation) :
    session.recorded.performAll operations =
      (session.performAll operations).map fun reply => reply.session.recorded := by
  induction operations generalizing session with
  | nil => rfl
  | cons operation rest ih =>
      rw [Recorded.performAll, List.foldlM_cons, recorded_perform, performAll]
      cases session.perform operation with
      | none => rfl
      | some first =>
          rw [Option.map_map]
          exact ih first.session

/-! ## What is in range -/

/--
The runtime of a session is in range of its program, and every access is.  The session
comes to a machine if it can execute some number of instructions without a halt before; there
the next instruction is fetched and its cell used.  So no instruction is ever missing.
-/
structure InRange (session : Session) : Prop where
  runtime : ∀ program runtime, session.state.program? = some program →
    session.state.runtime? = some runtime → runtime.InRange program
  fetched : ∀ program runtime count machine, session.execution = .ok (program, runtime) →
    Machine.run program session.eofValue count ⟨runtime, session.channel⟩ =
      (.continued, machine) →
    ∃ pc, machine.runtime.pc = .index pc ∧
      program.instructions[pc]? = some (machine.runtime.instruction program)
  accessed : ∀ program runtime count machine, session.execution = .ok (program, runtime) →
    Machine.run program session.eofValue count ⟨runtime, session.channel⟩ =
      (.continued, machine) →
    ∃ pointer value, machine.runtime.pointer = .index pointer ∧
      machine.runtime.tape.cell? pointer = some value ∧ value < machine.runtime.tape.modulus
  shown : ∀ report, session.currentInstruction = .ok report →
    ∃ program runtime pc instruction, session.execution = .ok (program, runtime) ∧
      runtime.pc = .index pc ∧ program.instructions[pc]? = some instruction ∧
      report = ⟨.index (pc + 1), instruction.operator⟩
  notMissing : session.currentInstruction ≠ .error .missing ∧
    ∀ program runtime count patience, session.execution = .ok (program, runtime) →
      Machine.runNumber program session.eofValue count patience ⟨runtime, session.channel⟩ ≠
        .error .missingInstruction

theorem Sound.inRange {session : Session} (sound : session.Sound) : session.InRange := by
  have visited : ∀ program runtime count machine,
      session.execution = .ok (program, runtime) →
      Machine.run program session.eofValue count ⟨runtime, session.channel⟩ =
        (.continued, machine) →
      machine.runtime.InRange program := by
    intro program runtime count machine executing ran
    have kept := sound.phase.run (phase_of_execution executing) count
    rw [ran] at kept
    exact kept
  refine ⟨?_, ?_, ?_, ?_, ?_, ?_⟩
  · intro program runtime present started
    exact sound.phase.inRange present started
  · intro program runtime count machine executing ran
    exact (visited program runtime count machine executing ran).instruction
  · intro program runtime count machine executing ran
    exact (visited program runtime count machine executing ran).exists_cell
  · intro report reported
    unfold currentInstruction at reported
    cases executing : session.execution with
    | error error =>
        rw [executing] at reported
        cases reported
    | ok found =>
        obtain ⟨program, runtime⟩ := found
        have inRange := visited program runtime 0 _ executing rfl
        simp only [executing, inRange.isInside, if_true] at reported
        cases reported
        obtain ⟨pc, pc_eq, fetched⟩ := inRange.instruction
        refine ⟨program, runtime, pc, _, rfl, pc_eq, fetched, ?_⟩
        rw [show runtime.pc = .index pc from pc_eq, Machine.Position.next_index]
  · unfold currentInstruction
    split
    · exact nofun
    · rename_i program runtime executing
      rw [if_pos (visited program runtime 0 _ executing rfl).isInside]
      exact nofun
  · intro program runtime count patience executing
    exact Machine.runFrom_ne_missing (sound.phase.staysInside executing) _ _

/--
Whatever history a new session has, the record that its operations build is consistent and
is the one of the session that is left, and that session is in range.
-/
theorem inRange_of_reachable {storage : Settings.Storage} {operations : List Operation}
    {reply : Reply Unit} (performed : (start storage).performAll operations = some reply) :
    ∃ recorded, (Recorded.start storage).performAll operations = some recorded ∧
      recorded.state.Consistent ∧ recorded.state = reply.session.state ∧
      reply.session.InRange := by
  have kept : (Recorded.start storage).performAll operations = some reply.session.recorded := by
    have shown := (start storage).recorded_performAll operations
    rwa [performed] at shown
  have reachable : reply.session.Reachable :=
    ⟨storage, operations, by rw [performed]; rfl⟩
  exact ⟨_, kept, Recorded.consistent_performAll .initial kept, rfl, reachable.sound.inRange⟩

/-- A session whose second start found no tape and that was put inside a loop then. -/
def insideLoop : Session where
  settings := { tapeSize := 9007199254740992 }
  phase :=
    .running
      { instructions :=
          #[⟨.loopStart, 3, ⟨1, 1⟩⟩, ⟨.moveRight, 0, ⟨1, 2⟩⟩, ⟨.increment, 0, ⟨1, 3⟩⟩,
            ⟨.loopEnd, 0, ⟨1, 4⟩⟩, ⟨.finish, 0, ⟨1, 5⟩⟩]
        capacity := 4096 }
      { running := false, pc := .index 3, tape := ⟨.bits16, #[1, 0]⟩ }
  sourceName? := some "loop"

/-- What has been done to come there. -/
def intoLoop : List Operation :=
  [.load "[>+]" (some "loop"), .run,
    .reload (.ofTexts [("interpreterTapeSize", "9007199254740992")]), .run,
    .jump (some (.finite 3)), .next (.finite 1) 0]

/-- A start without a tape and a jump into a loop that was not entered leave a session in range. -/
theorem inRange_insideLoop :
    ∃ recorded, (Recorded.start (.ofTexts [("interpreterTapeSize", "2")])).performAll intoLoop =
        some recorded ∧
      recorded.state.Consistent ∧ recorded.state = insideLoop.state ∧ insideLoop.InRange := by
  have led : ((start (.ofTexts [("interpreterTapeSize", "2")])).performAll intoLoop).map
      Reply.session = some insideLoop := by decide +kernel
  obtain ⟨reply, performed, left⟩ := Option.map_eq_some_iff.mp led
  obtain ⟨recorded, kept, consistent, state_eq, inRange⟩ := inRange_of_reachable performed
  rw [left] at state_eq inRange
  exact ⟨recorded, kept, consistent, state_eq, inRange⟩

end Session

end TapeDebugger
