import TapeDebugger.Proofs.Session.Invariant

/-!
# What executing answers

A running session goes on with a machine and takes over what comes of it.  A count that
counters reach always has an answer.  Any other count, and going on without a limit that is
reached, has one with enough patience, and just if the program halts.
-/

namespace TapeDebugger

open Machine (Halt Outcome Resumption Runtime)

namespace Session

variable {session : Session} {program : Program} {runtime : Runtime} {halt : Halt}

theorem exists_running (running : session.status = .running) :
    ∃ program runtime, session.phase = .running program runtime := by
  unfold status Phase.status at running
  split at running
  · cases running
  · cases running
  · exact ⟨_, _, by assumption⟩
  · cases running

/-! ## Taking over what comes of a run -/

/-- The machine that a running session goes on with. -/
def machineOf (session : Session) (runtime : Runtime) : Machine :=
  ⟨runtime, session.channel⟩

/-- The session that takes over what comes of a run of its machine. -/
def takeOver (session : Session) (program : Program) (result : Outcome × Machine) : Session :=
  { session with
    phase :=
      match result.1 with
      | .continued => .running program result.2.runtime
      | .halted halt => .halted program result.2.runtime halt
    channel := result.2.channel }

theorem answer_settle (result : Outcome × Machine) :
    (session.settle program result).answer = .ok result.1 := by
  obtain ⟨outcome, machine⟩ := result
  cases outcome <;> rfl

theorem session_settle (result : Outcome × Machine) :
    (session.settle program result).session = session.takeOver program result := by
  obtain ⟨outcome, machine⟩ := result
  cases outcome <;> rfl

theorem answer_settleResumption (found : Resumption × Machine) :
    (session.settleResumption program found).answer = .ok found.1 := by
  obtain ⟨resumption, machine⟩ := found
  cases resumption <;> rfl

theorem session_settleResumption (found : Resumption × Machine) :
    (session.settleResumption program found).session =
      session.takeOver program (found.1.outcome, found.2) := by
  obtain ⟨resumption, machine⟩ := found
  cases resumption <;> rfl

theorem takeOver_continued_running (session : Session) (program : Program) (machine : Machine) :
    (session.takeOver program (.continued, machine)).phase = .running program machine.runtime :=
  rfl

theorem Phase.Sound.takeOver (sound : session.phase.Sound)
    (running : session.phase = .running program runtime) {count : Nat} {result : Outcome × Machine}
    (ran : (session.machineOf runtime).run program session.eofValue count = result) :
    (session.takeOver program result).phase.Sound := by
  have inRange := sound.run running count
  have ran' : Machine.run program session.eofValue count ⟨runtime, session.channel⟩ = result := ran
  rw [ran'] at inRange
  obtain ⟨outcome, machine⟩ := result
  cases outcome with
  | continued => exact ⟨(sound.running running).1, inRange⟩
  | halted halt => exact ⟨(sound.running running).1, inRange⟩

/-! ## Answers that come with enough patience -/

/-- A count comes to a reply with enough patience. -/
def Nexts (session : Session) (count : Nat) (reply : Reply (Except UserError Outcome)) : Prop :=
  ∃ enough, ∀ patience ≥ enough, session.next (.finite count) patience = some reply

theorem Nexts.unique {count : Nat} {reply reply' : Reply (Except UserError Outcome)}
    (comes : session.Nexts count reply) (comes' : session.Nexts count reply') :
    reply = reply' := by
  obtain ⟨enough, answered⟩ := comes
  obtain ⟨enough', answered'⟩ := comes'
  have both := (answered _ (Nat.le_max_left enough enough')).symm.trans
    (answered' _ (Nat.le_max_right enough enough'))
  exact Option.some.inj both

/-- More patience changes no answer that is there already. -/
theorem next_of_le {count : Number} {patience more : Nat}
    {reply : Reply (Except UserError Outcome)}
    (answered : session.next count patience = some reply) (le : patience ≤ more) :
    session.next count more = some reply := by
  cases executing : session.execution with
  | error error => simpa only [next, executing] using answered
  | ok found =>
      obtain ⟨program, runtime⟩ := found
      cases counted : count.toNat? with
      | none => simpa only [next, executing, counted] using answered
      | some number =>
          rw [next_of_running executing counted] at answered
          obtain ⟨result, ran, rfl⟩ := Option.map_eq_some_iff.mp answered
          rw [toOption_eq_some_iff] at ran
          rw [next_of_running executing counted, Machine.runNumber_of_le ran le]
          rfl

theorem resume_of_le {patience more : Nat} {reply : Reply (Except UserError Resumption)}
    (resumed : session.resume patience = some reply) (le : patience ≤ more) :
    session.resume more = some reply := by
  cases executing : session.execution with
  | error error => simpa only [resume, executing] using resumed
  | ok found =>
      obtain ⟨program, runtime⟩ := found
      rw [resume_of_running executing] at resumed
      obtain ⟨result, found, rfl⟩ := Option.map_eq_some_iff.mp resumed
      rw [toOption_eq_some_iff] at found
      rw [resume_of_running executing, Machine.resume_of_le found le]
      rfl

section Running

variable (sound : session.phase.Sound) (running : session.phase = .running program runtime)
include sound running

/-- A count that counters reach is answered at once, by the run of that many instructions. -/
theorem next_natCast {count : Nat} (small : count ≤ Number.exactIntegerBound) (patience : Nat) :
    session.next (.finite count) patience =
      some (session.settle program
        ((session.machineOf runtime).run program session.eofValue count)) := by
  have executing := execution_of_running running
  have counted : Machine.rounds? (.finite count) = some count := by
    rw [Machine.rounds?_natCast, if_pos small]
  rw [next_of_running executing (Number.toNat?_natCast count),
    Machine.runNumber_of_rounds (sound.staysInside executing) counted]
  rfl

/-- One instruction is answered at once. -/
theorem next_one (patience : Nat) :
    session.next (.finite 1) patience =
      some (session.settle program
        ((session.machineOf runtime).stepIn program session.eofValue)) := by
  have answered := next_natCast sound running
    (show 1 ≤ Number.exactIntegerBound by decide) patience
  rwa [show ((1 : Nat) : Rat) = 1 from rfl, Machine.run_one] at answered

end Running

/-! ## Halts -/

/-- The program of a session halts after some number of instructions, and this session is left. -/
def HaltsIn (session : Session) (halt : Halt) (final : Session) : Prop :=
  ∃ program runtime count machine, session.phase = .running program runtime ∧
    (session.machineOf runtime).run program session.eofValue count = (.halted halt, machine) ∧
    final = session.takeOver program (.halted halt, machine)

theorem haltsIn_iff (running : session.phase = .running program runtime) {final : Session} :
    session.HaltsIn halt final ↔
      ∃ count machine,
        (session.machineOf runtime).run program session.eofValue count = (.halted halt, machine) ∧
        final = session.takeOver program (.halted halt, machine) := by
  constructor
  · rintro ⟨program', runtime', count, machine, running', ran, rfl⟩
    cases running.symm.trans running'
    exact ⟨count, machine, ran, rfl⟩
  · rintro ⟨count, machine, ran, rfl⟩
    exact ⟨program, runtime, count, machine, running, ran, rfl⟩

/-- A program halts in one way only. -/
theorem HaltsIn.unique {halt' : Halt} {final final' : Session}
    (halts : session.HaltsIn halt final) (halts' : session.HaltsIn halt' final') :
    halt = halt' ∧ final = final' := by
  obtain ⟨program, runtime, count, machine, running, ran, rfl⟩ := halts
  obtain ⟨count', machine', ran', rfl⟩ := (haltsIn_iff running).mp halts'
  obtain ⟨rfl, rfl⟩ := Machine.halted_unique ran ran'
  exact ⟨rfl, rfl⟩

theorem haltsIn_of_next {count : Number} {patience : Nat}
    {reply : Reply (Except UserError Outcome)}
    (answered : session.next count patience = some reply)
    (halted : reply.answer = .ok (.halted halt)) : session.HaltsIn halt reply.session := by
  rcases next_cases answered with ⟨error, rfl⟩ | ⟨program, runtime, running, rfl⟩
  · cases halted
  · cases ran : Machine.run program session.eofValue (countBound count patience)
        ⟨runtime, session.channel⟩ with
    | mk outcome machine =>
        rw [ran, answer_settle] at halted
        cases halted
        exact ⟨program, runtime, _, machine, running, ran, session_settle _⟩

theorem haltsIn_of_resume {patience : Nat} {reply : Reply (Except UserError Resumption)}
    (resumed : session.resume patience = some reply)
    (halted : reply.answer = .ok (.halted halt)) : session.HaltsIn halt reply.session := by
  rcases resume_cases resumed with
    ⟨error, rfl⟩ | ⟨program, runtime, ⟨resumption, machine⟩, running, found, rfl⟩
  · cases halted
  · rw [answer_settleResumption] at halted
    cases halted
    exact ⟨program, runtime, _, machine, running, Machine.run_of_resume found,
      session_settleResumption _⟩

end Session

end TapeDebugger
