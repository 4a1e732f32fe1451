import TapeDebugger.Proofs.Machine.Intake
import TapeDebugger.Proofs.Session.Invariant

/-!
# What a session takes from its input

Only `next` and `continue` execute instructions, and only these take bytes; only
`queueInput` brings any.  So each operation keeps what was taken so far and is
still pending together equal to what was queued.
-/

namespace TapeDebugger

open Machine (Execution)

namespace Session

variable {session next : Session} {operation : Operation} {events : List Event}

/-! ## Executed instructions -/

/-- How many instructions an operation executes, unless a halt comes before. -/
def bound (session : Session) : Operation → Nat
  | .next count patience => countBound count patience
  | .resume patience => Machine.resumeBound session.settings.continueStepLimit patience
  | .load _ _ | .run | .jump _ | .discard | .reload _ | .queueInput _ | .clearOutput => 0

/-- The instructions that an operation executes, one after the other. -/
def executions (session : Session) (operation : Operation) : List Execution :=
  match session.execution with
  | .error _ => []
  | .ok (program, runtime) =>
      Machine.executions program session.eofValue (session.bound operation)
        ⟨runtime, session.channel⟩

/-- The bytes that an operation queues. -/
def Operation.queued : Operation → List UInt8
  | .queueInput text => Text.utf8 text
  | .load _ _ | .run | .next _ _ | .resume _ | .jump _ | .discard | .reload _ | .clearOutput => []

theorem executions_of_bound (none : session.bound operation = 0) :
    session.executions operation = [] := by
  unfold executions
  split
  · rfl
  · rw [none]
    rfl

/-- Each byte that an operation takes is stored as it is in the cell that the program is at. -/
theorem Sound.stores (sound : session.Sound) (operation : Operation) :
    ∀ execution ∈ session.executions operation, ∀ byte, execution.taken? = some byte →
      execution.Stores byte.toNat := by
  intro execution found byte took
  unfold executions at found
  split at found
  · cases found
  · rename_i program runtime executing
    obtain ⟨compiled, inRange⟩ := sound.phase.running (phase_of_execution executing)
    obtain ⟨row, encodes⟩ := compiled.encodes
    obtain ⟨reached, reachedInRange, rfl⟩ := Machine.forall_executions
      (motive := fun machine => machine.runtime.InRange program)
      (fun _ inRange => inRange.stepIn encodes session.eofValue) inRange _ execution found
    exact Machine.stores_of_taken reachedInRange took

/-! ## Queued bytes -/

/-- The session with more bytes behind those that are pending. -/
def feed (session : Session) (bytes : List UInt8) : Session :=
  { session with channel := session.channel.feed bytes }

theorem session_queueInput (session : Session) (text : String) :
    (session.queueInput text).session = session.feed (Text.utf8 text) := rfl

/-- The answer to a text that is queued is the number of bytes that it adds. -/
theorem length_pending_queueInput (session : Session) (text : String) :
    (session.queueInput text).session.channel.pending.length =
      session.channel.pending.length + (session.queueInput text).answer :=
  List.length_append

/-! ## Taken bytes -/

theorem executions_of_running {program : Program} {runtime : Machine.Runtime}
    (executing : session.execution = .ok (program, runtime)) (operation : Operation) :
    session.executions operation =
      Machine.executions program session.eofValue (session.bound operation)
        ⟨runtime, session.channel⟩ := by
  rw [executions, executing]

theorem executions_of_error {error : UserError} (refused : session.execution = .error error)
    (operation : Operation) : session.executions operation = [] := by
  rw [executions, refused]

theorem taken_append_pending_next {count : Number} {patience : Nat}
    {reply : Reply (Except UserError Machine.Outcome)}
    (answered : session.next count patience = some reply) :
    Machine.taken (session.executions (.next count patience)) ++ reply.session.channel.pending =
      session.channel.pending := by
  cases executing : session.execution with
  | error error =>
      simp only [next, executing] at answered
      cases answered
      rw [executions_of_error executing]
      rfl
  | ok running =>
      obtain ⟨program, runtime⟩ := running
      have kept := Machine.taken_append_pending program session.eofValue
        (session.bound (.next count patience)) ⟨runtime, session.channel⟩
      rw [executions_of_running executing]
      cases counted : count.toNat? with
      | none =>
          simp only [next, executing, counted] at answered
          cases answered
          simp only [bound, countBound, counted]
          rfl
      | some number =>
          rw [next_of_running executing counted] at answered
          obtain ⟨result, ran, rfl⟩ := Option.map_eq_some_iff.mp answered
          rw [toOption_eq_some_iff] at ran
          rw [channel_settle]
          rwa [bound, ← countBound_of_toNat? counted, Machine.run_of_runNumber ran,
            countBound_of_toNat? counted] at kept

theorem taken_append_pending_resume {patience : Nat}
    {reply : Reply (Except UserError Machine.Resumption)}
    (resumed : session.resume patience = some reply) :
    Machine.taken (session.executions (.resume patience)) ++ reply.session.channel.pending =
      session.channel.pending := by
  cases executing : session.execution with
  | error error =>
      simp only [resume, executing] at resumed
      cases resumed
      rw [executions_of_error executing]
      rfl
  | ok running =>
      obtain ⟨program, runtime⟩ := running
      rw [resume_of_running executing] at resumed
      obtain ⟨⟨resumption, machine⟩, found, rfl⟩ := Option.map_eq_some_iff.mp resumed
      rw [toOption_eq_some_iff] at found
      have kept := Machine.taken_append_pending program session.eofValue
        (session.bound (.resume patience)) ⟨runtime, session.channel⟩
      rw [bound, Machine.run_of_resume found] at kept
      rw [executions_of_running executing, channel_settleResumption]
      exact kept

/-- What executes no instruction leaves pending what was pending, and what it queues behind it. -/
theorem Performs.pending (performs : session.Performs operation next events)
    (still : operation.goesOn = false) :
    next.channel.pending = session.channel.pending ++ operation.queued := by
  cases performs with
  | refused request =>
      cases operation with
      | run | next | resume | jump => exact (List.append_nil _).symm
      | load | discard | reload | queueInput | clearOutput => cases request
  | paused goesOn | halted goesOn => cases still.symm.trans goesOn
  | queued text => rfl
  | loadFailed | loaded | notStarted | started | jumped | discarded | reloaded | cleared =>
      exact (List.append_nil _).symm

/-- What an operation takes and what is pending then was pending before or is queued by it. -/
theorem taken_append_pending {reply : Reply Unit}
    (performed : session.perform operation = some reply) :
    Machine.taken (session.executions operation) ++ reply.session.channel.pending =
      session.channel.pending ++ operation.queued := by
  have performs := performs_of_perform performed
  cases operation with
  | next count patience =>
      obtain ⟨found, answered, rfl⟩ := Option.map_eq_some_iff.mp performed
      refine (taken_append_pending_next answered).trans ?_
      exact (List.append_nil _).symm
  | resume patience =>
      obtain ⟨found, resumed, rfl⟩ := Option.map_eq_some_iff.mp performed
      refine (taken_append_pending_resume resumed).trans ?_
      exact (List.append_nil _).symm
  | load | run | jump | discard | reload | queueInput | clearOutput =>
      rw [executions_of_bound rfl]
      exact performs.pending rfl

end Session

end TapeDebugger
