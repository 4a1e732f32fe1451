import TapeDebugger.Proofs.Row
import TapeDebugger.Proofs.Session.Live

/-!
# What the events tell

A session gives an event for every load, every start and every halt, and for
nothing else.  Whoever follows the events alone knows how far the session has
come: each of them can stand where it stands, describes the session that it
leaves, and a halt is always told of right behind the start of its run.
-/

namespace TapeDebugger

open Machine (Halt Outcome Resumption Runtime)

namespace Session

variable {session next : Session} {operation : Operation} {told events : List Event}

/-! ## The row of events -/

/-- Whether an event tells of a load, be it one that failed. -/
def Event.isLoad : Event → Bool
  | .loaded _ _ | .loadFailed _ _ => true
  | .started _ | .halted _ => false

/-- The program that an event of a load leaves. -/
def Event.program? : Event → Option Program
  | .loaded program _ => some program
  | .loadFailed _ _ | .started _ | .halted _ => none

/-- The most recent event of a load. -/
def lastLoad? (events : List Event) : Option Event :=
  (events.filter Event.isLoad).getLast?

/-- The events that can be told next, by those that were told before. -/
inductive Follows (told : List Event) : Event → Prop where
  | loaded (program : Program) (sourceName? : Option String) :
      Follows told (.loaded program sourceName?)
  | loadFailed (error : Program.CompileError) (sourceName? : Option String) :
      Follows told (.loadFailed error sourceName?)
  | started {program : Program} {sourceName? : Option String} (runtime : Runtime)
      (load : lastLoad? told = some (.loaded program sourceName?)) :
      Follows told (.started runtime)
  | halted {runtime : Runtime} (halt : Halt) (last : told.getLast? = some (.started runtime)) :
      Follows told (.halted halt)

/-- Every event of a row can follow those before it. -/
def Orderly (events : List Event) : Prop :=
  ∀ before event rest, events = before ++ event :: rest → Follows before event

theorem lastLoad?_of_isLoad {event : Event} (told : List Event) (load : event.isLoad = true) :
    lastLoad? (told ++ [event]) = some event := by
  simp [lastLoad?, List.filter_append, load]

theorem lastLoad?_of_not_isLoad {event : Event} (told : List Event)
    (other : event.isLoad = false) : lastLoad? (told ++ [event]) = lastLoad? told := by
  simp [lastLoad?, List.filter_append, other]

theorem orderly_nil : Orderly [] :=
  Row.lawful_nil

theorem Orderly.concat {event : Event} (orderly : Orderly told) (follows : Follows told event) :
    Orderly (told ++ [event]) :=
  Row.Lawful.concat orderly follows

/-! ## Each event by itself -/

/-- The session is as an event says that it is. -/
def Event.Describes (session : Session) : Event → Prop
  | .loaded program sourceName? =>
      session.state.status = .loaded ∧ session.state.program? = some program ∧
        session.sourceName? = sourceName?
  | .loadFailed _ sourceName? =>
      session.state.status = .unloaded ∧ session.state.program? = none ∧
        session.sourceName? = sourceName?
  | .started runtime =>
      session.state.status = .running ∧ session.state.runtime? = some runtime
  | .halted halt =>
      session.state.status = .halted ∧ session.state.haltReason? = some (.ofHalt halt) ∧
        session.state.runtimeError? = errorOfHalt? halt

theorem Performs.length_events_le_one (performs : session.Performs operation next events) :
    events.length ≤ 1 := by
  cases performs <;> simp

/-- What an event says of the session is so behind the operation that gave it. -/
theorem Performs.describes (performs : session.Performs operation next events) {event : Event}
    (told : event ∈ events) : event.Describes next := by
  cases performs with
  | refused | notStarted | paused | jumped | discarded | reloaded | queued | cleared => cases told
  | loadFailed | loaded | halted =>
      cases List.eq_of_mem_singleton told
      exact ⟨rfl, rfl, rfl⟩
  | started =>
      cases List.eq_of_mem_singleton told
      exact ⟨rfl, rfl⟩

/-- The session stops running by itself just when a halt is told of. -/
theorem Performs.halts_iff (performs : session.Performs operation next events) :
    (session.status = .running ∧ next.status = .halted) ↔ ∃ halt, .halted halt ∈ events := by
  constructor
  · rintro ⟨running, halted⟩
    cases performs with
    | refused | reloaded | queued | cleared => cases running.symm.trans halted
    | loadFailed | loaded | started | paused | jumped => cases halted
    | notStarted =>
        rw [status_stop] at halted
        cases running.symm.trans halted
    | halted => exact ⟨_, List.mem_singleton_self _⟩
    | discarded =>
        rw [status_retire] at halted
        split at halted <;> cases halted
  · rintro ⟨halt, told⟩
    cases performs with
    | refused | notStarted | paused | jumped | discarded | reloaded | queued | cleared =>
        cases told
    | loadFailed | loaded | started => cases List.eq_of_mem_singleton told
    | halted goesOn running =>
        refine ⟨?_, rfl⟩
        rw [status, running]
        rfl

/-! ## The session behind a row of events -/

/-- What the events told so far say of the session. -/
structure Told (told : List Event) (session : Session) : Prop where
  orderly : Orderly told
  starts : session.runs.length = told.countP Event.isStart
  load : session.phase.program? = (lastLoad? told).bind Event.program?
  running : session.status = .running → ∃ front runtime, told = front ++ [.started runtime]

namespace Told

theorem start (storage : Settings.Storage) : Told [] (Session.start storage) :=
  ⟨orderly_nil, rfl, rfl, nofun⟩

/-- The load behind a program is the most recent one that was told of. -/
theorem lastLoad?_of_program? {program : Program} (sound : Told told session)
    (present : session.phase.program? = some program) :
    ∃ sourceName?, lastLoad? told = some (.loaded program sourceName?) := by
  rw [sound.load, Option.bind_eq_some_iff] at present
  obtain ⟨event, found, program_eq⟩ := present
  cases event with
  | loaded program' sourceName? =>
      cases program_eq
      exact ⟨sourceName?, found⟩
  | loadFailed | started | halted => cases program_eq

/-- While a session runs, the start of its run was told of last, and as the one of its number. -/
theorem started_last (sound : Told told session) (running : session.status = .running) :
    ∃ front runtime, told = front ++ [.started runtime] ∧
      session.current? = some (front.countP Event.isStart) := by
  obtain ⟨front, runtime, rfl⟩ := sound.running running
  refine ⟨front, runtime, rfl, ?_⟩
  obtain ⟨current, present⟩ : ∃ current, session.phase.runtime? = some current :=
    Option.isSome_iff_exists.mp ((consistent_state session).running running).2
  have starts := sound.starts
  rw [runs_of_runtime? present, List.length_append, List.countP_append] at starts
  rw [current?, present, Option.map_some, Nat.add_right_cancel starts]

theorem follows (sound : Told told session) (performs : session.Performs operation next events)
    {event : Event} (told_event : event ∈ events) : Follows told event := by
  cases performs with
  | refused | notStarted | paused | jumped | discarded | reloaded | queued | cleared =>
      cases told_event
  | loadFailed =>
      cases List.eq_of_mem_singleton told_event
      exact .loadFailed _ _
  | loaded =>
      cases List.eq_of_mem_singleton told_event
      exact .loaded _ _
  | started present =>
      cases List.eq_of_mem_singleton told_event
      obtain ⟨sourceName?, load⟩ := sound.lastLoad?_of_program? present
      exact .started _ load
  | halted goesOn running =>
      cases List.eq_of_mem_singleton told_event
      obtain ⟨front, runtime, rfl⟩ := sound.running (by rw [status, running]; rfl)
      exact .halted _ List.getLast?_concat

theorem performs (sound : Told told session)
    (performs : session.Performs operation next events) : Told (told ++ events) next := by
  have follows : ∀ event ∈ events, Follows told event := fun _ => sound.follows performs
  have starts : next.runs.length = (told ++ events).countP Event.isStart := by
    rw [performs.length_runs, sound.starts, List.countP_append]
  -- an operation without an event leaves no session running that was not running before
  have silent : events = [] → next.phase.program? = session.phase.program? →
      (next.status = .running → session.status = .running) → Told (told ++ events) next := by
    rintro rfl program_eq running
    rw [List.append_nil] at starts ⊢
    exact ⟨sound.orderly, starts, program_eq.trans sound.load,
      fun now => sound.running (running now)⟩
  cases performs with
  | refused | reloaded | queued | cleared => exact silent rfl rfl id
  | notStarted => exact silent rfl session.program?_stop (session.status_stop ▸ id)
  | paused goesOn running | jumped running =>
      have present : session.phase.program? = _ := congrArg Phase.program? running
      have status_eq : session.status = _ := congrArg Phase.status running
      exact silent rfl present.symm fun _ => status_eq
  | discarded =>
      refine silent rfl session.program?_retire ?_
      rw [status_retire]
      split <;> exact nofun
  | loadFailed | loaded =>
      refine ⟨sound.orderly.concat (follows _ (List.mem_singleton_self _)), starts, ?_, nofun⟩
      rw [lastLoad?_of_isLoad told rfl]
      rfl
  | started present =>
      refine ⟨sound.orderly.concat (follows _ (List.mem_singleton_self _)), starts, ?_, ?_⟩
      · rw [lastLoad?_of_not_isLoad told rfl, ← sound.load]
        exact present.symm
      · exact fun _ => ⟨told, _, rfl⟩
  | halted goesOn running =>
      refine ⟨sound.orderly.concat (follows _ (List.mem_singleton_self _)), starts, ?_, nofun⟩
      rw [lastLoad?_of_not_isLoad told rfl, ← sound.load, running]
      rfl

theorem performAll {storage : Settings.Storage} {operations : List Operation}
    {reply : Reply Unit} (performed : (Session.start storage).performAll operations = some reply) :
    Told reply.events reply.session :=
  performAll_events_induction (motive := Told)
    (fun _ _ _ _ _ sound performs => sound.performs performs) (start storage) performed

end Told

/-! ## Answers and events -/

theorem answer_settle_iff (session : Session) (program : Program) (ran : Outcome × Machine)
    (halt : Halt) :
    (session.settle program ran).answer = .ok (.halted halt) ↔
      .halted halt ∈ (session.settle program ran).events := by
  obtain ⟨outcome, machine⟩ := ran
  cases outcome with
  | continued =>
      rw [settle, events_pauseAt]
      simp [pauseAt]
  | halted =>
      rw [settle, events_haltAt, List.mem_singleton]
      simp [haltAt, eq_comm]

theorem answer_settleResumption_iff (session : Session) (program : Program)
    (found : Resumption × Machine) (halt : Halt) :
    (session.settleResumption program found).answer = .ok (.halted halt) ↔
      .halted halt ∈ (session.settleResumption program found).events := by
  obtain ⟨resumption, machine⟩ := found
  cases resumption with
  | paused steps =>
      rw [settleResumption, events_pauseAt]
      simp [pauseAt, Signal.event?]
  | halted =>
      rw [settleResumption, events_haltAt, List.mem_singleton]
      simp [haltAt, eq_comm]

/-- The answer to an execution is a halt exactly if this halt is told of. -/
theorem answer_next_eq_halted_iff {count : Number} {patience : Nat}
    {reply : Reply (Except UserError Outcome)} (answered : session.next count patience = some reply)
    (halt : Halt) : reply.answer = .ok (.halted halt) ↔ .halted halt ∈ reply.events := by
  rcases next_cases answered with ⟨error, rfl⟩ | ⟨program, runtime, -, rfl⟩
  · simp [Reply.events]
  · exact session.answer_settle_iff program _ halt

theorem answer_resume_eq_halted_iff {patience : Nat} {reply : Reply (Except UserError Resumption)}
    (resumed : session.resume patience = some reply) (halt : Halt) :
    reply.answer = .ok (.halted halt) ↔ .halted halt ∈ reply.events := by
  rcases resume_cases resumed with ⟨error, rfl⟩ | ⟨program, runtime, found, -, -, rfl⟩
  · simp [Reply.events]
  · exact session.answer_settleResumption_iff program found halt

/-! ## The truth of all events -/

/-- Before the first load and behind one that failed only a load can be told of. -/
theorem Follows.isLoad {event : Event} (follows : Follows told event)
    (unloaded : told = [] ∨
      ∃ error sourceName?, told.getLast? = some (.loadFailed error sourceName?)) :
    event.isLoad = true := by
  cases follows with
  | loaded | loadFailed => rfl
  | halted halt last =>
      rcases unloaded with rfl | ⟨error, sourceName?, failed⟩
      · cases last
      · cases last.symm.trans failed
  | started runtime load =>
      rcases unloaded with rfl | ⟨error, sourceName?, failed⟩
      · cases load
      · obtain ⟨front, rfl⟩ := List.getLast?_eq_some_iff.mp failed
        rw [lastLoad?_of_isLoad front rfl] at load
        cases load

/-- What an operation tells behind a row of events is true. -/
structure Truthful (told : List Event) (session : Session) (operation : Operation)
    (after : Reply Unit) : Prop where
  once : after.events.length ≤ 1
  follows : ∀ event ∈ after.events, Follows told event
  /-- Before the first load and behind one that failed nothing but a load is told of. -/
  onlyLoads :
    told = [] ∨ (∃ error sourceName?, told.getLast? = some (.loadFailed error sourceName?)) →
      ∀ event ∈ after.events, event.isLoad = true
  describes : ∀ event ∈ after.events, event.Describes after.session
  /-- A start is told of as the run that it gives, and runs are numbered as their starts are. -/
  started : ∀ runtime, .started runtime ∈ after.events →
    operation = .run ∧ session.run.answer = .ok runtime ∧
      after.session.current? = some (told.countP Event.isStart)
  /-- The start of the run that halts was told of last. -/
  halted : ∀ halt, .halted halt ∈ after.events →
    operation.goesOn = true ∧ after.session.current? = session.current? ∧
      ∃ front runtime, told = front ++ [.started runtime] ∧
        session.current? = some (front.countP Event.isStart)
  halts_iff : (session.status = .running ∧ after.session.status = .halted) ↔
    ∃ halt, .halted halt ∈ after.events

/-- A start that is told of is the answer of the run, numbered by the starts before it. -/
theorem Told.started (sound : Told told session)
    (performs : session.Performs operation next events) {runtime : Runtime}
    (tells : .started runtime ∈ events) :
    operation = .run ∧ session.run.answer = .ok runtime ∧
      next.current? = some (told.countP Event.isStart) := by
  cases performs with
  | refused | notStarted | paused | jumped | discarded | reloaded | queued | cleared => cases tells
  | loadFailed | loaded | halted => cases List.eq_of_mem_singleton tells
  | started present created =>
      cases List.eq_of_mem_singleton tells
      refine ⟨rfl, ?_, ?_⟩
      · simp only [run, present, created]
      · rw [← sound.starts, ← length_runs_stop]
        rfl

/-- A halt is told of while the run goes on that was told of last. -/
theorem Told.halted (sound : Told told session)
    (performs : session.Performs operation next events) {halt : Halt}
    (tells : .halted halt ∈ events) :
    operation.goesOn = true ∧ next.current? = session.current? ∧
      ∃ front runtime, told = front ++ [.started runtime] ∧
        session.current? = some (front.countP Event.isStart) := by
  cases performs with
  | refused | notStarted | paused | jumped | discarded | reloaded | queued | cleared => cases tells
  | loadFailed | loaded | started => cases List.eq_of_mem_singleton tells
  | halted goesOn running =>
      have running_status : session.status = .running := congrArg Phase.status running
      refine ⟨goesOn, ?_, sound.started_last running_status⟩
      rw [current?, current?, running]
      rfl

theorem Told.truthful (sound : Told told session) {after : Reply Unit}
    (performed : session.perform operation = some after) :
    Truthful told session operation after := by
  have performs := performs_of_perform performed
  exact
    { once := performs.length_events_le_one
      follows := fun _ => sound.follows performs
      onlyLoads := fun unloaded _ tells => (sound.follows performs tells).isLoad unloaded
      describes := fun _ => performs.describes
      started := fun _ => sound.started performs
      halted := fun _ => sound.halted performs
      halts_iff := performs.halts_iff }

/--
Whatever is done with a new session, its events stand in an order in which they
can follow each other, and what is told next is true.  The answer of an execution
is a halt exactly if the same halt is told of.
-/
theorem events_tell_truth {storage : Settings.Storage} {operations : List Operation}
    {reply : Reply Unit} (performed : (start storage).performAll operations = some reply) :
    Orderly reply.events ∧
      (∀ operation after, reply.session.perform operation = some after →
        Truthful reply.events reply.session operation after) ∧
      (∀ count patience answered halt, reply.session.next count patience = some answered →
        (answered.answer = .ok (.halted halt) ↔ .halted halt ∈ answered.events)) ∧
      ∀ patience resumed halt, reply.session.resume patience = some resumed →
        (resumed.answer = .ok (.halted halt) ↔ .halted halt ∈ resumed.events) := by
  have sound := Told.performAll performed
  refine ⟨sound.orderly, fun _ _ => sound.truthful, ?_, ?_⟩
  · intro count patience answered halt found
    exact answer_next_eq_halted_iff found halt
  · intro patience resumed halt found
    exact answer_resume_eq_halted_iff found halt

/-- A history with a load that fails, a run that is dropped, one that is restarted, and a pause. -/
def narrated : List Operation :=
  [.load "]" none, .load "+<" (some "left"), .run, .next (.finite 1) 0, .discard, .run,
    .jump (some (.finite 2)), .run, .next (.finite 1) 0]

/-- The third run goes off the tape, and this is told of right behind its start. -/
theorem events_tell_truth_of_narrated :
    ∃ reply after, (start (.ofTexts [("interpreterTapeSize", "2")])).performAll narrated =
        some reply ∧
      reply.events.length = 5 ∧ Orderly reply.events ∧
      reply.session.perform (.next (.finite 3) 0) = some after ∧
      after.events =
        [.halted (.error ⟨.pointerUnderflow, .index 1, .moveLeft, .index 0, some 1⟩)] ∧
      after.session.current? = some 2 ∧
      Truthful reply.events reply.session (.next (.finite 3) 0) after := by
  have facts : ((start (.ofTexts [("interpreterTapeSize", "2")])).performAll narrated).map
      (fun reply => (reply.events.length, (reply.session.perform (.next (.finite 3) 0)).map
        fun after => (after.events, after.session.current?))) =
      some (5, some
        ([.halted (.error ⟨.pointerUnderflow, .index 1, .moveLeft, .index 0, some 1⟩)],
          some 2)) := by decide +kernel
  obtain ⟨reply, performed, facts⟩ := Option.map_eq_some_iff.mp facts
  obtain ⟨length_eq, facts⟩ := Prod.mk.inj facts
  obtain ⟨after, performedNext, facts⟩ := Option.map_eq_some_iff.mp facts
  obtain ⟨halted, current⟩ := Prod.mk.inj facts
  obtain ⟨orderly, truthful, -⟩ := events_tell_truth performed
  exact ⟨reply, after, performed, length_eq, orderly, performedNext, halted, current,
    truthful _ _ performedNext⟩

end Session

end TapeDebugger
