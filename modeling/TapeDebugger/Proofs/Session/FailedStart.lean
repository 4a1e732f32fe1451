import TapeDebugger.Proofs.Session.Live

/-!
# Starts that find no tape

A start that finds no tape puts nothing in the place of the run before it, gives
no signal and says why it failed.  It leaves the session as it was, with one
exception: a live run is stopped, although the session still counts as running.
-/

namespace TapeDebugger

open Machine (Runtime TapeError)

namespace Session

/-- Stopping changes nothing exactly if there is no live run to stop. -/
theorem stop_eq_self_iff (session : Session) :
    session.stop = session ↔
      ∀ runtime, session.phase.runtime? = some runtime → runtime.running = false := by
  obtain ⟨settings, channel, phase, sourceName?, retired⟩ := session
  have stop_iff : ∀ runtime : Runtime, runtime.stop = runtime ↔ runtime.running = false := by
    rintro ⟨running, pc, pointer, tape⟩
    simp [Runtime.stop, eq_comm]
  cases phase with
  | unloaded => simp [stop, mapRuntime, Phase.mapRuntime, Phase.runtime?]
  | loaded program => simp [stop, mapRuntime, Phase.mapRuntime, Phase.runtime?]
  | running program runtime =>
      simp [stop, mapRuntime, Phase.mapRuntime, Phase.runtime?, stop_iff]
  | halted program runtime halt =>
      simp [stop, mapRuntime, Phase.mapRuntime, Phase.runtime?, stop_iff]

/-- In a tidy session there is a live run to stop exactly while it runs. -/
theorem Tidy.stop_eq_self_iff {session : Session} (tidy : session.Tidy) :
    session.stop = session ↔ session.status ≠ .running := by
  rw [Session.stop_eq_self_iff]
  constructor
  · intro dead running
    obtain ⟨runtime, current⟩ :=
      Option.isSome_iff_exists.mp ((consistent_state session).running running).2
    have live := (tidy.current runtime current).mpr running
    rw [dead runtime current] at live
    cases live
  · intro notRunning runtime current
    exact Bool.eq_false_iff.mpr fun live => notRunning ((tidy.current runtime current).mp live)

/--
A start for which there is no tape stops the current run and does nothing else.
So it leaves the session as it was exactly if the run it is at, if any, is not
live; when all starts before have found a tape, exactly if the session is not running.
-/
theorem failed_start_stops_current {session : Session} {program : Program} {error : TapeError}
    (present : session.phase.program? = some program)
    (notCreated : newTape session.settings = .error error) :
    session.run.answer = .error (.tape error) ∧ session.run.signals = [] ∧
      session.run.session = session.mapRuntime Runtime.stop ∧
      session.run.session.status = session.status ∧
      (session.run.session = session ↔
        ∀ runtime, session.phase.runtime? = some runtime → runtime.running = false) ∧
      (session.Tidy → (session.run.session = session ↔ session.status ≠ .running)) := by
  have status_eq : session.stop.status = session.status := by
    show (session.phase.mapRuntime Runtime.stop).status = session.phase.status
    cases session.phase <;> rfl
  rw [run_of_notCreated present notCreated]
  exact ⟨rfl, rfl, rfl, status_eq, session.stop_eq_self_iff, Tidy.stop_eq_self_iff⟩

/-- A session at a live run, under settings that were reloaded since and have no tape. -/
def widened : Session where
  settings := { tapeSize := 9007199254740992 }
  phase :=
    .running
      { instructions := #[⟨.increment, 0, ⟨1, 1⟩⟩, ⟨.finish, 0, ⟨1, 2⟩⟩], capacity := 4096 }
      { tape := ⟨.bits16, #[0, 0]⟩ }

/-- A session that has halted is left as it was by a start without a tape. -/
theorem failed_start_keeps_halted :
    ∃ reply, widened.next (.finite 2) 0 = some reply ∧ reply.session.status = .halted ∧
      newTape reply.session.settings = .error (.invalidLength (.finite 9007199254740992)) ∧
      reply.session.run.session = reply.session := by
  have facts : (widened.next (.finite 2) 0).map (fun reply => (reply.session.status,
      newTape reply.session.settings, reply.session.phase.program?.isSome,
      reply.session.phase.runtime?.map Runtime.running)) =
      some (.halted, .error (.invalidLength (.finite 9007199254740992)), true, some false) := by
    decide +kernel
  obtain ⟨reply, answered, facts⟩ := Option.map_eq_some_iff.mp facts
  obtain ⟨halted, facts⟩ := Prod.mk.inj facts
  obtain ⟨notCreated, facts⟩ := Prod.mk.inj facts
  obtain ⟨present, stopped⟩ := Prod.mk.inj facts
  obtain ⟨program, present⟩ := Option.isSome_iff_exists.mp present
  obtain ⟨-, -, -, -, same_iff, -⟩ := failed_start_stops_current present notCreated
  refine ⟨reply, answered, halted, notCreated, same_iff.mpr ?_⟩
  intro runtime current
  rw [current] at stopped
  exact Option.some.inj stopped

/--
A start without a tape does not leave a session as it was whose run is live: the
session is still running, and its only run is not.
-/
theorem failed_start_stops_widened :
    widened.Reachable ∧ widened.status = .running ∧
      widened.run.answer =
        .error (.tape (.invalidLength (.finite 9007199254740992))) ∧
      widened.runs.map Runtime.running = [true] ∧ widened.run.session ≠ widened ∧
      widened.run.session.status = .running ∧
      widened.run.session.runs.map Runtime.running = [false] := by
  refine ⟨⟨.ofTexts [("interpreterTapeSize", "2")], [.load "+" none, .run,
    .reload (.ofTexts [("interpreterTapeSize", "9007199254740992")])], ?_⟩, ?_⟩
  · decide +kernel
  · decide +kernel

end Session

end TapeDebugger
