import TapeDebugger.Proofs.Machine.Emission
import TapeDebugger.Proofs.Session.Intake

/-!
# What a session writes

An operation writes just the bytes that its instructions write.  It tells of them
first, one by one, and of everything else only behind them; and it puts them behind
the output that there was before.
-/

namespace TapeDebugger

open Machine (Halt Outcome Resumption)

namespace Session

variable {session : Session} {program : Program} {machine : Machine} {bytes : List UInt8}

/-! ## Signals of bytes -/

/-- The byte that a signal tells of, if it tells of one. -/
def Signal.byte? : Signal → Option UInt8
  | .wrote byte => some byte
  | .noted _ | .published _ | .event _ => none

/-- The reply tells of these bytes, one after the other, and then of no other one. -/
def Reply.Emits {α : Type} (reply : Reply α) (bytes : List UInt8) : Prop :=
  ∃ others, reply.signals = bytes.map Signal.wrote ++ others ∧
    ∀ signal ∈ others, signal.byte? = none

theorem Reply.emits_nil {α : Type} {reply : Reply α}
    (silent : ∀ signal ∈ reply.signals, signal.byte? = none) : reply.Emits [] :=
  ⟨reply.signals, rfl, silent⟩

/-- The bytes that came to the output since it was seen last. -/
theorem wroteSince_eq {channel : Machine.Channel}
    (grown : channel.output.toList = session.channel.output.toList ++ bytes) :
    wroteSince session.channel.output.size channel = bytes.map Signal.wrote := by
  rw [wroteSince, grown, ← Array.length_toList, List.drop_left]

theorem emits_pauseAt {α : Type} {answer : α} {notes : List Signal}
    (grown : machine.channel.output.toList = session.channel.output.toList ++ bytes)
    (silent : ∀ signal ∈ notes, signal.byte? = none) :
    (session.pauseAt program machine answer notes).Emits bytes := by
  refine ⟨notes ++ [.published .running], ?_, ?_⟩
  · rw [pauseAt, wroteSince_eq grown, List.append_assoc]
  · intro signal found
    rcases List.mem_append.mp found with note | last
    · exact silent signal note
    · rw [List.eq_of_mem_singleton last]
      rfl

theorem emits_haltAt {α : Type} {answer : α} {halt : Halt}
    (grown : machine.channel.output.toList = session.channel.output.toList ++ bytes) :
    (session.haltAt program machine halt answer).Emits bytes := by
  refine ⟨[.noted (haltNote halt), .published .halted, .event (.halted halt)], ?_, ?_⟩
  · rw [haltAt, wroteSince_eq grown]
  · simp [Signal.byte?]

theorem emits_settle {outcome : Outcome}
    (grown : machine.channel.output.toList = session.channel.output.toList ++ bytes) :
    (session.settle program (outcome, machine)).Emits bytes := by
  cases outcome with
  | continued => exact emits_pauseAt grown (List.forall_mem_nil _)
  | halted halt => exact emits_haltAt grown

theorem emits_settleResumption {resumption : Resumption}
    (grown : machine.channel.output.toList = session.channel.output.toList ++ bytes) :
    (session.settleResumption program (resumption, machine)).Emits bytes := by
  cases resumption with
  | halted halt => exact emits_haltAt grown
  | paused steps => exact emits_pauseAt grown (by simp [Signal.byte?])

/-! ## Operations -/

/-- The bytes that an operation writes. -/
def emittedBy (session : Session) (operation : Operation) : List UInt8 :=
  Machine.emitted (session.executions operation)

theorem emittedBy_of_bound {operation : Operation} (none : session.bound operation = 0) :
    session.emittedBy operation = [] := by
  rw [emittedBy, executions_of_bound none]
  rfl

/-- An operation tells of what it writes, and this comes behind what was written before. -/
structure Writes {α : Type} (session : Session) (bytes : List UInt8) (reply : Reply α) : Prop where
  emits : reply.Emits bytes
  output : reply.session.channel.output.toList = session.channel.output.toList ++ bytes

theorem writes_refused {α : Type} (session : Session) (answer : α) :
    session.Writes [] { answer, session : Reply α } :=
  ⟨Reply.emits_nil (List.forall_mem_nil _), (List.append_nil _).symm⟩

theorem writes_next {count : Number} {patience : Nat} {reply : Reply (Except UserError Outcome)}
    (answered : session.next count patience = some reply) :
    session.Writes (session.emittedBy (.next count patience)) reply := by
  cases executing : session.execution with
  | error error =>
      simp only [next, executing] at answered
      cases answered
      rw [emittedBy, executions_of_error executing]
      exact session.writes_refused _
  | ok running =>
      obtain ⟨program, runtime⟩ := running
      cases counted : count.toNat? with
      | none =>
          simp only [next, executing, counted] at answered
          cases answered
          rw [emittedBy_of_bound (by rw [bound, countBound, counted])]
          exact session.writes_refused _
      | some number =>
          rw [next_of_running executing counted] at answered
          obtain ⟨⟨outcome, machine⟩, ran, rfl⟩ := Option.map_eq_some_iff.mp answered
          rw [toOption_eq_some_iff] at ran
          have grown := Machine.output_run program session.eofValue
            (session.bound (.next count patience)) ⟨runtime, session.channel⟩
          rw [bound, ← countBound_of_toNat? counted, Machine.run_of_runNumber ran] at grown
          rw [emittedBy, executions_of_running executing, bound, ← countBound_of_toNat? counted]
          refine ⟨emits_settle grown, ?_⟩
          rw [channel_settle]
          exact grown

theorem writes_resume {patience : Nat} {reply : Reply (Except UserError Resumption)}
    (resumed : session.resume patience = some reply) :
    session.Writes (session.emittedBy (.resume patience)) reply := by
  cases executing : session.execution with
  | error error =>
      simp only [resume, executing] at resumed
      cases resumed
      rw [emittedBy, executions_of_error executing]
      exact session.writes_refused _
  | ok running =>
      obtain ⟨program, runtime⟩ := running
      rw [resume_of_running executing] at resumed
      obtain ⟨⟨resumption, machine⟩, found, rfl⟩ := Option.map_eq_some_iff.mp resumed
      rw [toOption_eq_some_iff] at found
      have grown := Machine.output_run program session.eofValue
        (session.bound (.resume patience)) ⟨runtime, session.channel⟩
      rw [bound, Machine.run_of_resume found] at grown
      rw [emittedBy, executions_of_running executing, bound]
      refine ⟨emits_settleResumption grown, ?_⟩
      rw [channel_settleResumption]
      exact grown

/-- What executes no instruction tells of no byte. -/
theorem silent_of_perform {operation : Operation} {reply : Reply Unit}
    (performed : session.perform operation = some reply) (still : operation.goesOn = false) :
    ∀ signal ∈ reply.signals, signal.byte? = none := by
  cases operation with
  | load source sourceName? =>
      cases performed
      simp only [Reply.withoutAnswer, load]
      split <;> simp [Signal.byte?]
  | run =>
      cases performed
      simp only [Reply.withoutAnswer, run]
      split
      · exact List.forall_mem_nil _
      · split <;> simp [Signal.byte?]
  | next | resume => cases still
  | jump index? =>
      cases performed
      simp only [Reply.withoutAnswer, jump]
      split
      · exact List.forall_mem_nil _
      · split
        · split <;> simp [Signal.byte?]
        · exact List.forall_mem_nil _
  | discard =>
      cases performed
      simp [discard, Signal.byte?]
  | reload storage =>
      cases performed
      simp [reload, Signal.byte?]
  | queueInput | clearOutput =>
      cases performed
      exact List.forall_mem_nil _

/-- What executes no instruction leaves the output alone, unless it clears it. -/
theorem Performs.output {next : Session} {operation : Operation} {events : List Event}
    (performs : session.Performs operation next events) (still : operation.goesOn = false)
    (kept : operation ≠ .clearOutput) : next.channel.output = session.channel.output := by
  cases performs with
  | paused goesOn | halted goesOn => cases still.symm.trans goesOn
  | cleared => exact absurd rfl kept
  | refused | loadFailed | loaded | notStarted | started | jumped | discarded | reloaded | queued =>
      rfl

theorem emits_of_perform {operation : Operation} {reply : Reply Unit}
    (performed : session.perform operation = some reply) :
    reply.Emits (session.emittedBy operation) := by
  cases operation with
  | next count patience =>
      obtain ⟨found, answered, rfl⟩ := Option.map_eq_some_iff.mp performed
      exact (writes_next answered).emits
  | resume patience =>
      obtain ⟨found, resumed, rfl⟩ := Option.map_eq_some_iff.mp performed
      exact (writes_resume resumed).emits
  | load | run | jump | discard | reload | queueInput | clearOutput =>
      rw [emittedBy_of_bound rfl]
      exact Reply.emits_nil (silent_of_perform performed rfl)

/-- Nothing but clearing it takes anything from the output. -/
theorem output_of_perform {operation : Operation} {reply : Reply Unit}
    (performed : session.perform operation = some reply) (kept : operation ≠ .clearOutput) :
    reply.session.channel.output.toList =
      session.channel.output.toList ++ session.emittedBy operation := by
  cases operation with
  | next count patience =>
      obtain ⟨found, answered, rfl⟩ := Option.map_eq_some_iff.mp performed
      exact (writes_next answered).output
  | resume patience =>
      obtain ⟨found, resumed, rfl⟩ := Option.map_eq_some_iff.mp performed
      exact (writes_resume resumed).output
  | load | run | jump | discard | reload | queueInput | clearOutput =>
      rw [emittedBy_of_bound rfl, List.append_nil]
      exact congrArg Array.toList ((performs_of_perform performed).output rfl kept)

end Session

end TapeDebugger
