import TapeDebugger.Proofs.Machine.Range
import TapeDebugger.Proofs.Session.Effect
import TapeDebugger.Proofs.Settings.Keys
import TapeDebugger.Session.Record

/-!
# What holds of every reachable session

The settings are valid, the program has been compiled, and the runtime is in
range of it.  Every operation keeps all three, also a start that finds no tape and
a jump to any instruction.  So whatever a session goes on with is in range.
-/

namespace TapeDebugger

open Machine (Halt Runtime RuntimeError)

namespace Session

/-! ## What a session shows -/

/-- The way in which a run ends with a halt. -/
def HaltReason.ofHalt : Halt → HaltReason
  | .normal => normal
  | .error _ => error

def errorOfHalt? : Halt → Option RuntimeError
  | .normal => none
  | .error error => some error

/-- The record of how far a session has come. -/
def state (session : Session) : State where
  status := session.status
  program? := session.phase.program?
  runtime? := session.phase.runtime?
  sourceName? := session.sourceName?
  haltReason? := session.phase.halt?.map HaltReason.ofHalt
  runtimeError? := session.phase.halt?.bind errorOfHalt?

/-- The status tells what else is shown. -/
structure State.Consistent (state : State) : Prop where
  unloaded_iff : state.status = .unloaded ↔ state.program? = none
  unloaded : state.status = .unloaded → state.runtime? = none
  loaded : state.status = .loaded → state.program?.isSome ∧ state.runtime? = none
  running : state.status = .running → state.program?.isSome ∧ state.runtime?.isSome
  halted : state.status = .halted → state.program?.isSome ∧ state.runtime?.isSome
  haltReason_iff : state.haltReason?.isSome ↔ state.status = .halted
  runtimeError_iff : state.runtimeError?.isSome ↔ state.haltReason? = some .error

theorem errorOfHalt?_isSome_iff (halt : Halt) :
    (errorOfHalt? halt).isSome ↔ HaltReason.ofHalt halt = .error := by
  cases halt with
  | normal => simp [errorOfHalt?, HaltReason.ofHalt]
  | error error => simp [errorOfHalt?, HaltReason.ofHalt]

/-- A phase holds just what its status tells. -/
theorem consistent_state (session : Session) : session.state.Consistent := by
  obtain ⟨_, _, phase, _, _⟩ := session
  cases phase
  all_goals
    constructor <;>
      simp [state, status, Phase.status, Phase.program?, Phase.runtime?, Phase.halt?,
        errorOfHalt?_isSome_iff]

/-! ## The invariant -/

/-- The program of a phase has been compiled and its runtime is in range of it. -/
def Phase.Sound : Phase → Prop
  | unloaded => True
  | loaded program => program.Compiled
  | running program runtime | halted program runtime _ =>
      program.Compiled ∧ runtime.InRange program

/-- The settings of a session are valid and its phase is sound. -/
structure Sound (session : Session) : Prop where
  settings : session.settings.Valid
  phase : session.phase.Sound

namespace Phase.Sound

variable {phase : Phase} {program : Program} {runtime : Runtime}

theorem compiled (sound : phase.Sound) (present : phase.program? = some program) :
    program.Compiled := by
  cases phase with
  | unloaded => cases present
  | loaded =>
      cases present
      exact sound
  | running =>
      cases present
      exact sound.1
  | halted =>
      cases present
      exact sound.1

theorem inRange (sound : phase.Sound) (present : phase.program? = some program)
    (started : phase.runtime? = some runtime) : runtime.InRange program := by
  cases phase with
  | unloaded => cases started
  | loaded => cases started
  | running =>
      cases present
      cases started
      exact sound.2
  | halted =>
      cases present
      cases started
      exact sound.2

theorem stop (sound : phase.Sound) : (phase.mapRuntime Runtime.stop).Sound := by
  cases phase with
  | unloaded => exact sound
  | loaded => exact sound
  | running => exact ⟨sound.1, sound.2.stop⟩
  | halted => exact ⟨sound.1, sound.2.stop⟩

theorem withoutRuntime (sound : phase.Sound) : phase.withoutRuntime.Sound := by
  cases phase with
  | unloaded => exact sound
  | loaded => exact sound
  | running => exact sound.1
  | halted => exact sound.1

theorem running {session : Session} (sound : session.phase.Sound)
    (running : session.phase = .running program runtime) :
    program.Compiled ∧ runtime.InRange program := by
  rwa [running] at sound

/-- However many instructions are executed, the runtime stays in range. -/
theorem run {session : Session} (sound : session.phase.Sound)
    (running : session.phase = .running program runtime) (count : Nat) :
    (Machine.run program session.eofValue count
      ⟨runtime, session.channel⟩).2.runtime.InRange program := by
  obtain ⟨compiled, inRange⟩ := sound.running running
  obtain ⟨row, encodes⟩ := compiled.encodes
  have ready : (Machine.mk runtime session.channel).runtime.InRange program := inRange
  exact ready.run encodes session.eofValue count

/-- The program counter of a session never leaves the program. -/
theorem staysInside {session : Session} (sound : session.phase.Sound)
    (executing : session.execution = .ok (program, runtime)) :
    Machine.StaysInside program session.eofValue ⟨runtime, session.channel⟩ := by
  obtain ⟨compiled, inRange⟩ := sound.running (phase_of_execution executing)
  obtain ⟨row, encodes⟩ := compiled.encodes
  exact Machine.Runtime.InRange.staysInside encodes inRange session.eofValue

end Phase.Sound

/-! ## Operations keep it -/

namespace Sound

variable {session next : Session} {program : Program} {runtime : Runtime}

theorem start (storage : Settings.Storage) : (Session.start storage).Sound :=
  ⟨Settings.valid_load storage, trivial⟩

/-- A program that is started stands at its first instruction and at a cell. -/
theorem started (sound : session.Sound) (present : session.phase.program? = some program)
    {tape : Machine.Tape} (created : newTape session.settings = .ok tape) :
    program.Compiled ∧ ({ tape } : Runtime).InRange program := by
  have compiled := sound.phase.compiled present
  obtain ⟨row, encodes⟩ := compiled.encodes
  have nonempty : 0 < program.count := by
    rw [encodes.count_eq]
    exact Nat.succ_pos _
  rw [newTape, Machine.Tape.create_natCast] at created
  split at created
  · cases created
    exact ⟨compiled, .blank nonempty _ sound.settings.tapeSize⟩
  · cases created

/-- Every change of a session keeps it sound. -/
theorem performs (sound : session.Sound) {operation : Operation} {events : List Event}
    (performs : session.Performs operation next events) : next.Sound := by
  cases performs with
  | refused => exact sound
  | loadFailed => exact ⟨sound.settings, trivial⟩
  | loaded compiled => exact ⟨sound.settings, _, _, compiled⟩
  | notStarted => exact ⟨sound.settings, sound.phase.stop⟩
  | started present created => exact ⟨sound.settings, sound.started present created⟩
  | @paused _ program _ count _ _ running ran =>
      have kept := sound.phase.run running count
      rw [ran] at kept
      exact ⟨sound.settings, (sound.phase.running running).1, kept⟩
  | @halted _ program _ count _ _ _ running ran =>
      have kept := sound.phase.run running count
      rw [ran] at kept
      exact ⟨sound.settings, (sound.phase.running running).1, kept⟩
  | jumped running inside =>
      obtain ⟨compiled, inRange⟩ := sound.phase.running running
      exact ⟨sound.settings, compiled, inRange.jump inside⟩
  | discarded => exact ⟨sound.settings, sound.phase.stop.withoutRuntime⟩
  | reloaded storage => exact ⟨Settings.valid_load storage, sound.phase⟩
  | queued => exact ⟨sound.settings, sound.phase⟩
  | cleared => exact ⟨sound.settings, sound.phase⟩

end Sound

theorem Reachable.sound {session : Session} (reachable : session.Reachable) : session.Sound :=
  reachable.induction Sound.start fun _ _ _ sound performed =>
    sound.performs (performs_of_perform performed)

end Session

end TapeDebugger
