import TapeDebugger.Session.Inspection
import TapeDebugger.Settings.Store

/-!
# Histories of a session

Everything that can be done with a session is an operation, and a history is a
row of them.  A session is reachable if a history leads to it from a new session
under settings that were loaded from some storage.
-/

namespace TapeDebugger

namespace Session

/-! ## Operations -/

/-- What can be done with a session. -/
inductive Operation where
  | load (source : String) (sourceName? : Option String)
  | run
  | next (count : Number) (patience : Nat)
  | resume (patience : Nat)
  | jump (index? : Option Number)
  | discard
  | reload (storage : Settings.Storage)
  | queueInput (text : String)
  | clearOutput

def Reply.withoutAnswer {α : Type} (reply : Reply α) : Reply Unit :=
  ⟨(), reply.session, reply.signals⟩

def reload (session : Session) (storage : Settings.Storage) : Reply Unit :=
  let settings := Settings.load storage
  ⟨(), session.withSettings settings.value, settings.entries.map .noted⟩

/--
What comes of an operation.  Nothing does of executing instructions if they are
interrupted: if the patience is spent, or an instruction is missing.
-/
def perform (session : Session) : Operation → Option (Reply Unit)
  | .load source sourceName? => some (session.load source sourceName?).withoutAnswer
  | .run => some session.run.withoutAnswer
  | .next count patience => (session.next count patience).map Reply.withoutAnswer
  | .resume patience => (session.resume patience).map Reply.withoutAnswer
  | .jump index? => some (session.jump index?).withoutAnswer
  | .discard => some session.discard
  | .reload storage => some (session.reload storage)
  | .queueInput text => some (session.queueInput text).withoutAnswer
  | .clearOutput => some ⟨(), session.clearOutput, []⟩

/-- What comes of the operations of a history, one after the other. -/
def performAll (session : Session) : List Operation → Option (Reply Unit)
  | [] => some ⟨(), session, []⟩
  | operation :: rest =>
      match session.perform operation with
      | none => none
      | some first =>
          (first.session.performAll rest).map fun others =>
            ⟨(), others.session, first.signals ++ others.signals⟩

/-- A new session under the settings of a storage. -/
def start (storage : Settings.Storage) : Session :=
  { settings := (Settings.load storage).value }

/-- Some history leads from a new session to this one. -/
def Reachable (session : Session) : Prop :=
  ∃ storage operations,
    ((start storage).performAll operations).map Reply.session = some session

/-- A history performs its first operation, and the others on what comes of it. -/
theorem performAll_cons {session : Session} {operation : Operation} {rest : List Operation}
    {reply : Reply Unit} (performed : session.performAll (operation :: rest) = some reply) :
    ∃ first others, session.perform operation = some first ∧
      first.session.performAll rest = some others ∧
      reply = ⟨(), others.session, first.signals ++ others.signals⟩ := by
  rw [performAll] at performed
  split at performed
  · cases performed
  · rename_i first performedFirst
    obtain ⟨others, performedRest, rfl⟩ := Option.map_eq_some_iff.mp performed
    exact ⟨first, others, performedFirst, performedRest, rfl⟩

/-- What every operation keeps is kept by a history. -/
theorem performAll_induction {holds : Session → Prop}
    (kept : ∀ session operation reply, holds session →
      session.perform operation = some reply → holds reply.session)
    {session : Session} {operations : List Operation} {reply : Reply Unit}
    (before : holds session) (performed : session.performAll operations = some reply) :
    holds reply.session := by
  induction operations generalizing session reply with
  | nil =>
      cases performed
      exact before
  | cons operation rest ih =>
      obtain ⟨first, others, performedFirst, performedRest, rfl⟩ := performAll_cons performed
      show holds others.session
      exact ih (kept session operation first before performedFirst) performedRest

/-- What holds of every new session and is kept by every operation holds of what is reachable. -/
theorem Reachable.induction {holds : Session → Prop} (new : ∀ storage, holds (start storage))
    (kept : ∀ session operation reply, holds session →
      session.perform operation = some reply → holds reply.session)
    {session : Session} (reachable : session.Reachable) : holds session := by
  obtain ⟨storage, operations, leads⟩ := reachable
  obtain ⟨reply, performed, rfl⟩ := Option.map_eq_some_iff.mp leads
  exact performAll_induction kept (new storage) performed

end Session

end TapeDebugger
