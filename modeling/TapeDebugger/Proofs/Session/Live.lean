import TapeDebugger.Proofs.Machine.Flag
import TapeDebugger.Proofs.Session.Effect
import TapeDebugger.Proofs.Session.Invariant

/-!
# Live runs

Whoever starts a run may keep its runtime, so a run that was dropped can still
be looked at.  As long as every start finds a tape, no run is live except the
current one of a session that is running.  A run that is not live never is
again, whatever is done with the session.
-/

namespace TapeDebugger

open Machine (Halt Runtime)

namespace Session

variable {session next : Session} {operation : Operation} {events : List Event}

/-! ## The runs of a session -/

theorem Phase.runtime?_withoutRuntime (phase : Phase) : phase.withoutRuntime.runtime? = none := by
  unfold withoutRuntime
  split <;> rfl

theorem Phase.runtime?_mapRuntime (phase : Phase) (change : Runtime → Runtime) :
    (phase.mapRuntime change).runtime? = phase.runtime?.map change := by
  cases phase <;> rfl

theorem Phase.program?_mapRuntime (phase : Phase) (change : Runtime → Runtime) :
    (phase.mapRuntime change).program? = phase.program? := by
  cases phase <;> rfl

theorem Phase.status_mapRuntime (phase : Phase) (change : Runtime → Runtime) :
    (phase.mapRuntime change).status = phase.status := by
  cases phase <;> rfl

theorem Phase.program?_withoutRuntime (phase : Phase) :
    phase.withoutRuntime.program? = phase.program? := by
  cases phase <;> rfl

/-- Without its runtime a phase is loaded if it has a program, and unloaded if it has none. -/
theorem Phase.status_withoutRuntime (phase : Phase) :
    phase.withoutRuntime.status = if phase.program?.isSome then .loaded else .unloaded := by
  cases phase <;> rfl

theorem program?_stop (session : Session) : session.stop.phase.program? = session.phase.program? :=
  session.phase.program?_mapRuntime Runtime.stop

theorem status_stop (session : Session) : session.stop.status = session.status :=
  session.phase.status_mapRuntime Runtime.stop

theorem program?_retire (session : Session) :
    session.retire.phase.program? = session.phase.program? :=
  (Phase.program?_withoutRuntime _).trans session.program?_stop

theorem status_retire (session : Session) :
    session.retire.status = if session.phase.program?.isSome then .loaded else .unloaded := by
  rw [← session.program?_stop]
  exact Phase.status_withoutRuntime _

theorem runs_of_runtime? {runtime : Runtime} (current : session.phase.runtime? = some runtime) :
    session.runs = session.retired ++ [runtime] := by
  rw [runs, current]
  rfl

theorem runs_of_running {program : Program} {runtime : Runtime}
    (running : session.phase = .running program runtime) :
    session.runs = session.retired ++ [runtime] :=
  runs_of_runtime? (by rw [running]; rfl)

theorem runs_stop (session : Session) :
    session.stop.runs = session.retired ++ (session.phase.runtime?.map Runtime.stop).toList := by
  rw [← session.phase.runtime?_mapRuntime]
  rfl

/-- Retiring the current run keeps all runs, and the current one among them is stopped. -/
theorem runs_retire (session : Session) : session.retire.runs = session.stop.runs := by
  show session.stop.runs ++ session.stop.phase.withoutRuntime.runtime?.toList = _
  rw [Phase.runtime?_withoutRuntime]
  exact List.append_nil _

theorem length_runs_stop (session : Session) : session.stop.runs.length = session.runs.length := by
  rw [runs_stop, runs]
  cases session.phase.runtime? <;> simp

/-- The runtime that a start gives has its place behind those of all earlier runs. -/
theorem getElem?_runs_run {runtime : Runtime} (started : session.run.answer = .ok runtime) :
    session.run.session.runs[session.runs.length]? = some runtime := by
  unfold run at started ⊢
  split at started
  · cases started
  · split at started
    · cases started
    · cases started
      show (session.stop.runs ++ [_])[session.runs.length]? = _
      rw [← length_runs_stop]
      exact List.getElem?_concat_length

/-- Whether an event is the start of a run. -/
def Event.isStart : Event → Bool
  | .started _ => true
  | .loaded _ _ | .loadFailed _ _ | .halted _ => false

/-- There is one more run for every start, and every earlier one stays. -/
theorem Performs.length_runs (performs : session.Performs operation next events) :
    next.runs.length = session.runs.length + events.countP Event.isStart := by
  have stopped := session.length_runs_stop
  cases performs with
  | refused => rfl
  | loadFailed | loaded =>
      show (session.stop.runs ++ []).length = session.runs.length
      rw [List.append_nil, stopped]
  | notStarted => exact stopped
  | started =>
      show (session.stop.runs ++ [_]).length = session.runs.length + 1
      rw [List.length_append, stopped, List.length_singleton]
  | paused goesOn running ran => simp [runs, running, Phase.runtime?]
  | halted goesOn running ran => simp [runs, running, Phase.runtime?, Event.isStart]
  | jumped running inside => simp [runs, running, Phase.runtime?]
  | discarded =>
      show session.retire.runs.length = session.runs.length
      rw [runs_retire, stopped]
  | reloaded => rfl
  | queued => rfl
  | cleared => rfl

/-! ## Runs that are not live -/

/-- The run of a number is there and is not live. -/
def Dead (session : Session) (number : Nat) : Prop :=
  ∃ runtime, session.runs[number]? = some runtime ∧ runtime.running = false

/-- The runtimes of a row are in another at their places, and none has come to life there. -/
def KeepsDead (before after : List Runtime) : Prop :=
  ∀ (number : Nat) (runtime : Runtime), before[number]? = some runtime →
    ∃ later : Runtime, after[number]? = some later ∧
      (runtime.running = false → later.running = false)

namespace KeepsDead

theorem refl (row : List Runtime) : KeepsDead row row :=
  fun _ runtime found => ⟨runtime, found, id⟩

theorem append {before after : List Runtime} (keeps : KeepsDead before after)
    (more : List Runtime) : KeepsDead before (after ++ more) := by
  intro number runtime found
  obtain ⟨later, present, dead⟩ := keeps number runtime found
  obtain ⟨inside, -⟩ := List.getElem?_eq_some_iff.mp present
  exact ⟨later, by rw [List.getElem?_append_left inside, present], dead⟩

/-- Only the last runtime is exchanged, and a dead one for a dead one. -/
theorem concat (front : List Runtime) {last later : Runtime}
    (dead : last.running = false → later.running = false) :
    KeepsDead (front ++ [last]) (front ++ [later]) := by
  intro number runtime found
  rcases Nat.lt_or_ge number front.length with inside | behind
  · rw [List.getElem?_append_left inside] at found
    exact ⟨runtime, by rw [List.getElem?_append_left inside, found], id⟩
  · have number_eq : number = front.length := by
      have bound := (List.getElem?_eq_some_iff.mp found).1
      rw [List.length_append, List.length_singleton] at bound
      omega
    subst number_eq
    rw [List.getElem?_concat_length] at found
    cases found
    exact ⟨later, List.getElem?_concat_length, dead⟩

end KeepsDead

theorem keepsDead_stop (session : Session) : KeepsDead session.runs session.stop.runs := by
  rw [runs_stop, runs]
  cases session.phase.runtime? with
  | none => exact .refl _
  | some runtime => exact .concat session.retired fun _ => rfl

/-- Whatever is done with a session, its runs stay in their places and the dead ones dead. -/
theorem Performs.keepsDead (performs : session.Performs operation next events) :
    KeepsDead session.runs next.runs := by
  have stopped := session.keepsDead_stop
  cases performs with
  | refused => exact .refl _
  | loadFailed => exact stopped.append []
  | loaded => exact stopped.append []
  | notStarted => exact stopped
  | started => exact stopped.append _
  | paused goesOn running ran =>
      rw [runs_of_running running]
      exact .concat session.retired fun dead => (Machine.running_of_continued ran).trans dead
  | halted goesOn running ran =>
      rw [runs_of_running running]
      exact .concat session.retired fun _ => Machine.running_of_halted ran
  | jumped running inside =>
      rw [runs_of_running running]
      exact .concat session.retired id
  | discarded =>
      rw [runs_retire]
      exact stopped
  | reloaded => exact .refl _
  | queued => exact .refl _
  | cleared => exact .refl _

theorem Dead.of_keepsDead {number : Nat} (dead : session.Dead number)
    (keeps : KeepsDead session.runs next.runs) : next.Dead number := by
  obtain ⟨runtime, found, notRunning⟩ := dead
  obtain ⟨later, present, stays⟩ := keeps number runtime found
  exact ⟨later, present, stays notRunning⟩

/-- A dead run is dead for ever, also if a start finds no tape. -/
theorem Dead.performAll {number : Nat} (dead : session.Dead number) {later : List Operation}
    {final : Reply Unit} (performed : session.performAll later = some final) :
    final.session.Dead number := by
  apply @performAll_induction fun session => session.Dead number
  · intro session operation reply dead performed
    exact dead.of_keepsDead (performs_of_perform performed).keepsDead
  · exact dead
  · exact performed

/-! ## Starts that find no tape -/

/-- Whether an operation is a start that finds no tape. -/
def startFails (session : Session) : Operation → Bool
  | .run =>
      match session.run.answer with
      | .error (.tape _) => true
      | _ => false
  | _ => false

/-- Whether a history has a start that finds no tape. -/
def someStartFails (session : Session) : List Operation → Bool
  | [] => false
  | operation :: rest =>
      session.startFails operation ||
        match session.perform operation with
        | some reply => reply.session.someStartFails rest
        | none => false

theorem startFails_run {program : Program} {error : Machine.TapeError}
    (present : session.phase.program? = some program)
    (notCreated : newTape session.settings = .error error) :
    session.startFails .run = true := by
  rw [startFails, run_of_notCreated present notCreated]

/-! ## One live run -/

/-- No retired run is live, and the current one is just while the session runs. -/
structure Tidy (session : Session) : Prop where
  retired : ∀ runtime ∈ session.retired, runtime.running = false
  current : ∀ runtime, session.phase.runtime? = some runtime →
    (runtime.running = true ↔ session.status = .running)

namespace Tidy

theorem start (storage : Settings.Storage) : (Session.start storage).Tidy :=
  ⟨fun _ found => (nomatch found), fun _ found => (nomatch found)⟩

theorem live {program : Program} {runtime : Runtime} (tidy : session.Tidy)
    (running : session.phase = .running program runtime) : runtime.running = true := by
  apply (tidy.current runtime _).mpr
  · rw [status, running]
    rfl
  · rw [running]
    rfl

/-- Stopping the current run leaves no live one. -/
theorem stop (tidy : session.Tidy) : ∀ runtime ∈ session.stop.runs, runtime.running = false := by
  intro runtime found
  rw [runs_stop] at found
  rcases List.mem_append.mp found with retired | current
  · exact tidy.retired runtime retired
  · obtain ⟨before, _, rfl⟩ := Option.map_eq_some_iff.mp (Option.mem_toList.mp current)
    rfl

theorem performs (tidy : session.Tidy) (performs : session.Performs operation next events)
    (starts : session.startFails operation = false) : next.Tidy := by
  cases performs with
  | refused => exact tidy
  | loadFailed => exact ⟨tidy.stop, fun _ found => nomatch found⟩
  | loaded => exact ⟨tidy.stop, fun _ found => nomatch found⟩
  | notStarted present notCreated =>
      rw [startFails_run present notCreated] at starts
      cases starts
  | started =>
      refine ⟨tidy.stop, fun runtime found => ?_⟩
      cases found
      exact ⟨fun _ => rfl, fun _ => rfl⟩
  | paused goesOn running ran =>
      refine ⟨tidy.retired, fun runtime found => ?_⟩
      cases found
      exact ⟨fun _ => rfl, fun _ => (Machine.running_of_continued ran).trans (tidy.live running)⟩
  | halted goesOn running ran =>
      refine ⟨tidy.retired, fun runtime found => ?_⟩
      cases found
      rw [Machine.running_of_halted ran]
      exact ⟨fun live => (nomatch live), fun running => (nomatch running)⟩
  | jumped running inside =>
      refine ⟨tidy.retired, fun runtime found => ?_⟩
      cases found
      have live := tidy.live running
      exact ⟨fun _ => rfl, fun _ => live⟩
  | discarded =>
      refine ⟨tidy.stop, fun runtime found => ?_⟩
      have absent : session.retire.phase.runtime? = none := Phase.runtime?_withoutRuntime _
      rw [absent] at found
      cases found
  | reloaded => exact ⟨tidy.retired, tidy.current⟩
  | queued => exact ⟨tidy.retired, tidy.current⟩
  | cleared => exact ⟨tidy.retired, tidy.current⟩

theorem performAll {operations : List Operation} {reply : Reply Unit} (tidy : session.Tidy)
    (starts : session.someStartFails operations = false)
    (performed : session.performAll operations = some reply) : reply.session.Tidy := by
  induction operations generalizing session reply with
  | nil =>
      cases performed
      exact tidy
  | cons operation rest ih =>
      obtain ⟨first, others, performedFirst, performedRest, rfl⟩ := performAll_cons performed
      rw [someStartFails, performedFirst, Bool.or_eq_false_iff] at starts
      have kept := tidy.performs (performs_of_perform performedFirst) starts.1
      show others.session.Tidy
      exact ih kept starts.2 performedRest

end Tidy

/-- The number of the run that the session is at, if it is at one; the first run has number 0. -/
def current? (session : Session) : Option Nat :=
  session.phase.runtime?.map fun _ => session.retired.length

/-- Of all runs so far just the current one is live, and only while the session runs. -/
structure OneLive (session : Session) : Prop where
  current : ∀ number, session.current? = some number →
    session.runs[number]? = session.state.runtime?
  live_iff : ∀ number runtime, session.runs[number]? = some runtime →
    (runtime.running = true ↔ session.current? = some number ∧ session.status = .running)

theorem getElem?_runs_current {number : Nat} (current : session.current? = some number) :
    session.runs[number]? = session.phase.runtime? := by
  obtain ⟨runtime, found, rfl⟩ := Option.map_eq_some_iff.mp current
  rw [runs_of_runtime? found, found]
  exact List.getElem?_concat_length

theorem Tidy.oneLive (tidy : session.Tidy) : session.OneLive := by
  refine ⟨fun number => getElem?_runs_current, ?_⟩
  intro number runtime found
  rcases Nat.lt_or_ge number session.retired.length with inside | behind
  · -- an earlier run
    rw [runs, List.getElem?_append_left inside] at found
    have dead := tidy.retired runtime (List.mem_of_getElem? found)
    refine ⟨fun live => absurd live (by rw [dead]; decide), ?_⟩
    rintro ⟨current, -⟩
    obtain ⟨_, -, rfl⟩ := Option.map_eq_some_iff.mp current
    exact absurd inside (Nat.lt_irrefl _)
  · -- the run the session is at
    rw [runs, List.getElem?_append_right behind] at found
    obtain ⟨last, found⟩ : number - session.retired.length = 0 ∧
        session.phase.runtime? = some runtime := by
      cases present : session.phase.runtime? with
      | none => simp [present] at found
      | some current => simpa [present, List.getElem?_singleton] using found
    have number_eq : session.current? = some number := by
      rw [current?, found, Option.map_some, Option.some.injEq]
      omega
    rw [tidy.current runtime found]
    exact ⟨fun running => ⟨number_eq, running⟩, And.right⟩

/-! ## What ends a run -/

/-- An operation that is to leave no earlier run live. -/
inductive EndsRuns : Operation → List Event → Prop where
  | load (source : String) (sourceName? : Option String) (events : List Event) :
      EndsRuns (.load source sourceName?) events
  | restart (runtime : Runtime) : EndsRuns .run [.started runtime]
  | discard (events : List Event) : EndsRuns .discard events
  | halt (operation : Operation) (halt : Halt) : EndsRuns operation [.halted halt]

theorem dead_of_append {row more : List Runtime} (runs_eq : next.runs = row ++ more)
    (dead : ∀ runtime ∈ row, runtime.running = false) {number : Nat} (inside : number < row.length) :
    next.Dead number := by
  refine ⟨row[number], ?_, dead _ (List.getElem_mem inside)⟩
  rw [runs_eq, List.getElem?_append_left inside, List.getElem?_eq_getElem inside]

/-- An operation that ends runs leaves all runs before it dead. -/
theorem Tidy.dead_of_endsRuns (tidy : session.Tidy)
    (performs : session.Performs operation next events) (ends : EndsRuns operation events)
    {number : Nat} (inside : number < session.runs.length) : next.Dead number := by
  have stopped : number < session.stop.runs.length := by rwa [length_runs_stop]
  cases performs with
  | refused request =>
      cases ends with
      | load => cases request
      | discard => cases request
  | loadFailed => exact dead_of_append rfl tidy.stop stopped
  | loaded => exact dead_of_append rfl tidy.stop stopped
  | notStarted => cases ends
  | started => exact dead_of_append rfl tidy.stop stopped
  | paused goesOn =>
      cases ends with
      | load => cases goesOn
      | discard => cases goesOn
  | halted goesOn running ran =>
      cases ends with
      | load => cases goesOn
      | discard => cases goesOn
      | halt =>
          -- the retired runs stay as they are, and the halt clears the flag of the current one
          rw [runs_of_running running, List.length_append] at inside
          refine dead_of_append (List.append_nil _).symm ?_ (List.length_append ▸ inside)
          intro runtime found
          rcases List.mem_append.mp found with retired | current
          · exact tidy.retired runtime retired
          · rw [List.eq_of_mem_singleton current]
            exact Machine.running_of_halted ran
  | jumped => cases ends
  | discarded => exact dead_of_append rfl tidy.stop stopped
  | reloaded => cases ends
  | queued => cases ends
  | cleared => cases ends

/-- A history adds one run for every start among its events. -/
theorem length_runs_of_performAll {operations : List Operation} {reply : Reply Unit}
    (performed : session.performAll operations = some reply) :
    reply.session.runs.length = session.runs.length + reply.events.countP Event.isStart := by
  induction operations generalizing session reply with
  | nil =>
      cases performed
      rfl
  | cons operation rest ih =>
      obtain ⟨first, others, performedFirst, performedRest, rfl⟩ := performAll_cons performed
      show others.session.runs.length = _
      have events_eq : Reply.events ⟨(), others.session, first.signals ++ others.signals⟩ =
          first.events ++ others.events := List.filterMap_append
      rw [ih performedRest, (performs_of_perform performedFirst).length_runs, events_eq,
        List.countP_append, Nat.add_assoc]

/--
As long as every start finds a tape, of all the runtimes that starts have given
only the current one of a running session is live.  A start, a load, a discard
and a halt leave all runs before them dead, whatever is done later.
-/
theorem one_live_run {storage : Settings.Storage} {operations : List Operation}
    {reply : Reply Unit} (performed : (start storage).performAll operations = some reply)
    (starts : (start storage).someStartFails operations = false) :
    reply.session.runs.length = reply.events.countP Event.isStart ∧
      (∀ runtime, reply.session.run.answer = .ok runtime →
        reply.session.run.session.runs[reply.session.runs.length]? = some runtime) ∧
      reply.session.OneLive ∧
      ∀ operation after, reply.session.perform operation = some after →
        EndsRuns operation after.events →
        ∀ later final, after.session.performAll later = some final →
          ∀ number < reply.session.runs.length, final.session.Dead number := by
  have tidy := (Tidy.start storage).performAll starts performed
  refine ⟨?_, fun _ => getElem?_runs_run, tidy.oneLive, ?_⟩
  · have counted := length_runs_of_performAll performed
    rwa [show (start storage).runs.length = 0 from rfl, Nat.zero_add] at counted
  · intro operation after performedNext ends later final performedLater number inside
    have dead := tidy.dead_of_endsRuns (performs_of_perform performedNext) ends inside
    exact dead.performAll performedLater

/-- A history with a run that is restarted, one that a load drops, and one that runs off the tape. -/
def restarts : List Operation :=
  [.load "+[>+]" none, .run, .next (.finite 3) 0, .run, .load "[" none, .load ">>" (some "right"),
    .run, .next (.finite 5) 0, .run, .jump (some (.finite 2))]

/-- Of four runs on a tape of two cells the last is live, and a discard ends it for good. -/
theorem one_live_run_of_four :
    ∃ reply after final,
      (start (.ofTexts [("interpreterTapeSize", "2")])).performAll restarts = some reply ∧
      (start (.ofTexts [("interpreterTapeSize", "2")])).someStartFails restarts = false ∧
      reply.session.runs.map Runtime.running = [false, false, false, true] ∧
      reply.session.OneLive ∧ reply.session.perform .discard = some after ∧
      after.session.performAll [.run] = some final ∧ final.session.Dead 3 := by
  have flags : ((start (.ofTexts [("interpreterTapeSize", "2")])).performAll restarts).map
      (fun reply => reply.session.runs.map Runtime.running) =
        some [false, false, false, true] := by decide +kernel
  have starts : (start (.ofTexts [("interpreterTapeSize", "2")])).someStartFails restarts =
      false := by decide +kernel
  obtain ⟨reply, performed, flags⟩ := Option.map_eq_some_iff.mp flags
  obtain ⟨-, -, oneLive, ended⟩ := one_live_run performed starts
  have four : 3 < reply.session.runs.length := by
    rw [← List.length_map (f := Runtime.running), flags]
    decide
  exact ⟨reply, _, _, performed, starts, flags, oneLive, rfl, rfl,
    ended .discard _ rfl (.discard _) [.run] _ rfl 3 four⟩

end Session

end TapeDebugger
