import TapeDebugger.Proofs.Machine.Resumption
import TapeDebugger.Proofs.Session.History

/-!
# What an operation does

Every operation is one of a few changes of the session: a request is refused, a
program is loaded or not, a run starts, stops, goes on, halts or is put
elsewhere, and the settings and the channel change on their own.
-/

namespace TapeDebugger

open Machine (Halt Outcome Resumption Runtime Tape TapeError)

namespace Session

/-! ## Events -/

/-- The event that a signal is, if it is one. -/
def Signal.event? : Signal → Option Event
  | .event what => some what
  | .wrote _ | .noted _ | .published _ => none

def Reply.events {α : Type} (reply : Reply α) : List Event :=
  reply.signals.filterMap Signal.event?

theorem filterMap_wroteSince (before : Nat) (channel : Machine.Channel) :
    (wroteSince before channel).filterMap Signal.event? = [] := by
  rw [wroteSince, List.filterMap_map]
  exact List.filterMap_eq_nil_iff.mpr fun byte _ => rfl

theorem events_pauseAt {α : Type} (session : Session) (program : Program) (machine : Machine)
    (answer : α) (notes : List Signal) :
    (session.pauseAt program machine answer notes).events = notes.filterMap Signal.event? := by
  simp only [Reply.events, pauseAt, List.filterMap_append, filterMap_wroteSince, List.nil_append]
  exact List.append_nil _

theorem events_haltAt {α : Type} (session : Session) (program : Program) (machine : Machine)
    (halt : Halt) (answer : α) :
    (session.haltAt program machine halt answer).events = [.halted halt] := by
  simp only [Reply.events, haltAt, List.filterMap_append, filterMap_wroteSince, List.nil_append]
  rfl

/-! ## Starts without a tape -/

/-- A start that finds no tape stops the run before it and puts nothing in its place. -/
theorem run_of_notCreated {session : Session} {program : Program} {error : TapeError}
    (present : session.phase.program? = some program)
    (notCreated : newTape session.settings = .error error) :
    session.run = { answer := .error (.tape error), session := session.stop } := by
  simp only [run, present, notCreated]

/-! ## Changes -/

/-- Whether an operation executes instructions. -/
def Operation.goesOn : Operation → Bool
  | next _ _ | resume _ => true
  | _ => false

/-- Whether an operation needs a program or a run and is refused without one. -/
def Operation.isRequest : Operation → Bool
  | run | next _ _ | resume _ | jump _ => true
  | _ => false

/-- The session after an operation, and the events it gives. -/
inductive Performs (session : Session) : Operation → Session → List Event → Prop where
  | refused {operation : Operation} (request : operation.isRequest = true) :
      Performs session operation session []
  | loadFailed {source : String} {sourceName? : Option String} {error : Program.CompileError}
      (notCompiled : Program.compile session.settings.limits source = .error error) :
      Performs session (.load source sourceName?)
        { session.retire with phase := .unloaded, sourceName? } [.loadFailed error sourceName?]
  | loaded {source : String} {sourceName? : Option String} {program : Program}
      (compiled : Program.compile session.settings.limits source = .ok program) :
      Performs session (.load source sourceName?)
        { session.retire with phase := .loaded program, sourceName? }
        [.loaded program sourceName?]
  | notStarted {program : Program} {error : TapeError}
      (present : session.phase.program? = some program)
      (notCreated : newTape session.settings = .error error) :
      Performs session .run session.stop []
  | started {program : Program} {tape : Tape} (present : session.phase.program? = some program)
      (created : newTape session.settings = .ok tape) :
      Performs session .run { session.retire with phase := .running program { tape } }
        [.started { tape }]
  | paused {operation : Operation} {program : Program} {runtime : Runtime} {count : Nat}
      {machine : Machine} (goesOn : operation.goesOn = true)
      (running : session.phase = .running program runtime)
      (ran : Machine.run program session.eofValue count ⟨runtime, session.channel⟩ =
        (.continued, machine)) :
      Performs session operation
        { session with phase := .running program machine.runtime, channel := machine.channel } []
  | halted {operation : Operation} {program : Program} {runtime : Runtime} {count : Nat}
      {machine : Machine} {halt : Halt} (goesOn : operation.goesOn = true)
      (running : session.phase = .running program runtime)
      (ran : Machine.run program session.eofValue count ⟨runtime, session.channel⟩ =
        (.halted halt, machine)) :
      Performs session operation
        { session with phase := .halted program machine.runtime halt, channel := machine.channel }
        [.halted halt]
  | jumped {index? : Option Number} {program : Program} {runtime : Runtime} {pc : Nat}
      (running : session.phase = .running program runtime) (inside : pc < program.count) :
      Performs session (.jump index?)
        { session with phase := .running program { runtime with pc := .index pc } } []
  | discarded : Performs session .discard session.retire []
  | reloaded (storage : Settings.Storage) :
      Performs session (.reload storage) (session.withSettings (Settings.load storage).value) []
  | queued (text : String) :
      Performs session (.queueInput text)
        { session with channel := (session.channel.queue text).2 } []
  | cleared : Performs session .clearOutput session.clearOutput []

/-! ## Taking over what comes of a run -/

variable {session : Session}

theorem phase_of_execution {program : Program} {runtime : Runtime}
    (h : session.execution = .ok (program, runtime)) :
    session.phase = .running program runtime := by
  unfold execution at h
  split at h
  · rename_i phase_eq
    cases h
    exact phase_eq
  · cases h

theorem execution_of_running {program : Program} {runtime : Runtime}
    (running : session.phase = .running program runtime) :
    session.execution = .ok (program, runtime) := by
  rw [execution, running]

theorem next_of_running {program : Program} {runtime : Runtime} {count : Number} {number : Nat}
    (executing : session.execution = .ok (program, runtime))
    (counted : count.toNat? = some number) (patience : Nat) :
    session.next count patience =
      (Machine.runNumber program session.eofValue count patience
        ⟨runtime, session.channel⟩).toOption.map (session.settle program) := by
  simp only [next, executing, counted]

theorem resume_of_running {program : Program} {runtime : Runtime}
    (executing : session.execution = .ok (program, runtime)) (patience : Nat) :
    session.resume patience =
      (Machine.resume program session.eofValue session.settings.continueStepLimit patience
        ⟨runtime, session.channel⟩).toOption.map (session.settleResumption program) := by
  simp only [resume, executing]

theorem toOption_eq_some_iff {ε α : Type} {result : Except ε α} {value : α} :
    result.toOption = some value ↔ result = .ok value := by
  cases result <;> simp [Except.toOption]

/-- How many instructions a count stands for, with as many as patience allows where none reaches it. -/
def countBound (count : Number) (patience : Nat) : Nat :=
  match count.toNat? with
  | some number => if number ≤ Number.exactIntegerBound then number else patience
  | none => 0

theorem countBound_of_toNat? {count : Number} {number : Nat}
    (counted : count.toNat? = some number) (patience : Nat) :
    (Machine.rounds? count).getD patience = countBound count patience := by
  obtain rfl := Number.toNat?_eq_some_iff.mp counted
  rw [Machine.rounds?_natCast]
  simp only [countBound, Number.toNat?_natCast]
  split <;> rfl

/-- Executing a count of instructions is refused, or it settles what comes of a run. -/
theorem next_cases {count : Number} {patience : Nat} {reply : Reply (Except UserError Outcome)}
    (answered : session.next count patience = some reply) :
    (∃ error, reply = { answer := .error error, session }) ∨
      ∃ program runtime, session.phase = .running program runtime ∧
        reply = session.settle program
          (Machine.run program session.eofValue (countBound count patience)
            ⟨runtime, session.channel⟩) := by
  cases executing : session.execution with
  | error error =>
      simp only [next, executing] at answered
      exact .inl ⟨error, (Option.some.inj answered).symm⟩
  | ok found =>
      obtain ⟨program, runtime⟩ := found
      cases counted : count.toNat? with
      | none =>
          simp only [next, executing, counted] at answered
          exact .inl ⟨_, (Option.some.inj answered).symm⟩
      | some number =>
          rw [next_of_running executing counted] at answered
          obtain ⟨result, ran, rfl⟩ := Option.map_eq_some_iff.mp answered
          rw [toOption_eq_some_iff] at ran
          refine .inr ⟨program, runtime, phase_of_execution executing, ?_⟩
          rw [← countBound_of_toNat? counted, Machine.run_of_runNumber ran]

/-- Going on is refused, or it settles what comes of going on with the machine. -/
theorem resume_cases {patience : Nat} {reply : Reply (Except UserError Resumption)}
    (resumed : session.resume patience = some reply) :
    (∃ error, reply = { answer := .error error, session }) ∨
      ∃ program runtime result, session.phase = .running program runtime ∧
        Machine.resume program session.eofValue session.settings.continueStepLimit patience
          ⟨runtime, session.channel⟩ = .ok result ∧
        reply = session.settleResumption program result := by
  cases executing : session.execution with
  | error error =>
      simp only [resume, executing] at resumed
      exact .inl ⟨error, (Option.some.inj resumed).symm⟩
  | ok found =>
      obtain ⟨program, runtime⟩ := found
      rw [resume_of_running executing] at resumed
      obtain ⟨result, answered, rfl⟩ := Option.map_eq_some_iff.mp resumed
      rw [toOption_eq_some_iff] at answered
      exact .inr ⟨program, runtime, result, phase_of_execution executing, answered, rfl⟩

/-- The session with the program counter of its run elsewhere, and all else as it was. -/
def putAt (session : Session) (program : Program) (runtime : Runtime) (position : Machine.Position) :
    Session :=
  { session with phase := .running program { runtime with pc := position } }

/-- A jump to an index of the program, counted from 1, puts the program counter there. -/
theorem jump_of_inside {program : Program} {runtime : Runtime} {pc : Nat}
    (running : session.phase = .running program runtime) (inside : pc < program.count) :
    session.jump (some (.finite (pc + 1 : Nat))) =
      { answer := .ok pc
        session := session.putAt program runtime (.index pc)
        signals := [.published .running] } := by
  simp only [jump, execution_of_running running, Option.bind_some, Number.toNat?_natCast, inside,
    if_true, putAt]

@[simp] theorem channel_settle (session : Session) (program : Program)
    (ran : Outcome × Machine) :
    (session.settle program ran).session.channel = ran.2.channel := by
  obtain ⟨outcome, machine⟩ := ran
  cases outcome <;> rfl

@[simp] theorem channel_settleResumption (session : Session) (program : Program)
    (found : Resumption × Machine) :
    (session.settleResumption program found).session.channel = found.2.channel := by
  obtain ⟨resumption, machine⟩ := found
  cases resumption <;> rfl

/-! ## Every operation is a change -/

/-- Loading drops the run and the program, and leaves a program if there is one to leave. -/
theorem performs_load (session : Session) (source : String) (sourceName? : Option String) :
    session.Performs (.load source sourceName?) (session.load source sourceName?).session
      (session.load source sourceName?).events := by
  simp only [load]
  split
  · rename_i notCompiled
    exact .loadFailed notCompiled
  · rename_i compiled
    exact .loaded compiled

theorem performs_run (session : Session) :
    session.Performs .run session.run.session session.run.events := by
  simp only [run]
  split
  · exact .refused rfl
  · rename_i present
    split
    · rename_i notCreated
      exact .notStarted present notCreated
    · rename_i created
      exact .started present created

theorem performs_next {count : Number} {patience : Nat}
    {reply : Reply (Except UserError Outcome)}
    (answered : session.next count patience = some reply) :
    session.Performs (.next count patience) reply.session reply.events := by
  rcases next_cases answered with ⟨error, rfl⟩ | ⟨program, runtime, running, rfl⟩
  · exact .refused rfl
  · cases ran : Machine.run program session.eofValue (countBound count patience)
        ⟨runtime, session.channel⟩ with
    | mk outcome machine =>
        cases outcome with
        | continued =>
            rw [settle, events_pauseAt]
            exact .paused rfl running ran
        | halted halt =>
            rw [settle, events_haltAt]
            exact .halted rfl running ran

theorem performs_resume {patience : Nat}
    {reply : Reply (Except UserError Resumption)}
    (resumed : session.resume patience = some reply) :
    session.Performs (.resume patience) reply.session reply.events := by
  rcases resume_cases resumed with
    ⟨error, rfl⟩ | ⟨program, runtime, ⟨resumption, machine⟩, running, found, rfl⟩
  · exact .refused rfl
  · have ran := Machine.run_of_resume found
    cases resumption with
    | paused steps =>
        rw [settleResumption, events_pauseAt]
        exact .paused rfl running ran
    | halted halt =>
        rw [settleResumption, events_haltAt]
        exact .halted rfl running ran

theorem performs_jump (session : Session) (index? : Option Number) :
    session.Performs (.jump index?) (session.jump index?).session
      (session.jump index?).events := by
  simp only [jump]
  split
  · exact .refused rfl
  · rename_i executing
    have running := phase_of_execution executing
    split
    · split
      · rename_i inside
        exact .jumped running inside
      · exact .refused rfl
    · exact .refused rfl

/-- Settings that are read again are in force at once, and reading them gives no event. -/
theorem performs_reload (session : Session) (storage : Settings.Storage) :
    session.Performs (.reload storage) (session.reload storage).session
      (session.reload storage).events := by
  have noEvent : (session.reload storage).events = [] := by
    rw [Reply.events, reload, List.filterMap_map]
    exact List.filterMap_eq_nil_iff.mpr fun entry _ => rfl
  rw [noEvent]
  exact .reloaded storage

/-- Every operation is one of the changes. -/
theorem performs_of_perform {operation : Operation} {reply : Reply Unit}
    (performed : session.perform operation = some reply) :
    session.Performs operation reply.session reply.events := by
  cases operation with
  | load source sourceName? =>
      cases performed
      exact performs_load session source sourceName?
  | run =>
      cases performed
      exact performs_run session
  | next count patience =>
      obtain ⟨found, answered, rfl⟩ := Option.map_eq_some_iff.mp performed
      exact performs_next answered
  | resume patience =>
      obtain ⟨found, resumed, rfl⟩ := Option.map_eq_some_iff.mp performed
      exact performs_resume resumed
  | jump index? =>
      cases performed
      exact performs_jump session index?
  | discard =>
      cases performed
      exact .discarded
  | reload storage =>
      cases performed
      exact performs_reload session storage
  | queueInput text =>
      cases performed
      exact .queued text
  | clearOutput =>
      cases performed
      exact .cleared

/--
What every change keeps of a session and of the events told so far holds of a
history and of all the events that it adds.
-/
theorem performAll_events_induction {motive : List Event → Session → Prop}
    (kept : ∀ told session operation next events, motive told session →
      session.Performs operation next events → motive (told ++ events) next)
    {session : Session} {told : List Event} {operations : List Operation} {reply : Reply Unit}
    (before : motive told session) (performed : session.performAll operations = some reply) :
    motive (told ++ reply.events) reply.session := by
  induction operations generalizing session told reply with
  | nil =>
      cases performed
      exact (List.append_nil told).symm ▸ before
  | cons operation rest ih =>
      obtain ⟨first, others, performedFirst, performedRest, rfl⟩ := performAll_cons performed
      have keptFirst := kept told session operation first.session first.events before
        (performs_of_perform performedFirst)
      have events_eq : Reply.events ⟨(), others.session, first.signals ++ others.signals⟩ =
          first.events ++ others.events := List.filterMap_append
      rw [events_eq, ← List.append_assoc]
      exact ih keptFirst performedRest

end Session

end TapeDebugger
