import TapeDebugger.Proofs.Console.Entries
import TapeDebugger.Proofs.Console.Messages
import TapeDebugger.Proofs.Console.Patience
import TapeDebugger.Proofs.Session.Jumping

/-!
# Troubles

Whatever goes wrong with a line is dealt with there.  A file that cannot be read, a source
that does not compile, a program that fails and a request that is refused are reported to
the user and noted for debugging at most.  What a line throws is one error in the log.  The
line has its answer in any case, and unless it quits, the console goes on.  Only a reader
that throws what cannot be put into words comes through: its file is no trouble that is
told of but is thrown about, and what has no words either ends the console.
-/

namespace TapeDebugger

open Command (Line)
open Machine (Outcome Resumption Runtime RuntimeError TapeError)
open Program (CompileError)
open Session (Operation Reply Request UserError)

namespace Console

variable {console next : Console} {read : Reader} {patience : Nat}

/-! ## Reports -/

/-- What can go wrong with a line and is reported to the user. -/
inductive Trouble where
  | unreadable (path text : String)
  | notCompiled (path : String) (error : CompileError)
  | failed (error : RuntimeError)
  | refused (error : UserError)

namespace Trouble

/-- What the log has of a trouble; nothing of it is an error there. -/
def entries : Trouble → List Log.Entry
  | unreadable _ _ | refused _ => []
  | notCompiled path error => [Log.debug s!"Compilation of {path} failed: {error.fault.name}"]
  | failed error => [Session.haltNote (.error error)]

/-- The messages that a trouble is reported with; some are for who listens to the session. -/
def messages (listening : Bool) : Trouble → List Effect
  | unreadable path text => [errorLine s!"{path}: {text}"]
  | notCompiled path error =>
      let place := s!"{error.location.line}:{error.location.column}"
      (if listening then [errorLine s!"error: {error.fault.message} at {place}."] else []) ++
        [outLine s!"Could not read from {path}."]
  | failed error =>
      let place := s!"At instruction {error.pc.next.text} ('{error.operator.symbol}')."
      let state := s!"$[$ptr: {error.pointer.text}]: {valueText error.cell?}."
      if listening then
        [errorLine s!"error: {error.fault.message}", errorLine s!"{place} {state}",
          outLine "Program exited with error."]
      else []
  | refused error => [outLine error.message]

end Trouble

/-- What a line asks of the session, once its argument has been read. -/
def lineRequest? (patience : Nat) : Line → Option Request
  | .call .run _ => some .run
  | .call .next none => some (.next (.finite 1) patience)
  | .call .next (some text) => (Number.ofIntegerText? text).map fun count => .next count patience
  | .call .jump (some text) => (Number.ofIntegerText? text).map .jump
  | .call .resume _ => some (.resume patience)
  | .call .dataPointer _ => some .dataPointer
  | .call .print none => some (.cell none)
  | .call .print (some text) => (Number.ofIntegerText? text).map fun index => .cell (some index)
  | .call .tape _ => some (.tapeWindow none)
  | _ => none

theorem follow_of_unchanged {α : Type} {reply : Reply α}
    (unchanged : reply.session = console.session ∧ reply.signals = []) :
    console.follow reply = console := by
  rw [follow, unchanged.1, unchanged.2]
  rfl

theorem refusal?_eq_some_iff {α : Type} {answer : Except UserError α} {error : UserError} :
    Session.refusal? answer = some error ↔ answer = .error error := by
  cases answer <;> simp [Session.refusal?]

theorem runRefusal?_eq_some_iff {answer : Except Session.RunError Runtime} {error : UserError} :
    Session.runRefusal? answer = some error ↔ answer = .error (.user error) := by
  rcases answer with (_ | _) | _ <;> simp [Session.runRefusal?]

/-- A line whose request is refused reports why, and does nothing else. -/
theorem perform_of_refused {command : Command} {argument? : Option String} {request : Request}
    {reply : Reply (Option UserError)} {error : UserError}
    (asks : lineRequest? patience (.call command argument?) = some request)
    (asked : console.session.ask request = some reply) (refused : reply.answer = some error) :
    console.perform patience read command argument? =
      some (console.report error).done := by
  have unchanged := Session.unchanged_of_refused asked refused
  cases command with
  | help | quit | file | input => cases asks
  | run =>
      cases asks
      cases asked
      have answer_eq := runRefusal?_eq_some_iff.mp refused
      have followed : console.follow console.session.run = console := follow_of_unchanged unchanged
      simp only [perform, startRun, answer_eq, followed]
  | next =>
      have stepped {count : Number}
          (asked : console.session.ask (.next count patience) = some reply) :
          console.stepBy count patience = some (console.report error) := by
        obtain ⟨found, answered, rfl⟩ := Option.map_eq_some_iff.mp asked
        have answer_eq := refusal?_eq_some_iff.mp refused
        have followed : console.follow found = console := follow_of_unchanged unchanged
        simp only [stepBy, answered, Option.map_some, answer_eq, followed]
      cases argument? with
      | none =>
          cases asks
          simp only [perform, stepNext, stepped asked, Option.map_some]
      | some text =>
          obtain ⟨count, counted, rfl⟩ := Option.map_eq_some_iff.mp asks
          simp only [perform, stepNext, counted, stepped asked, Option.map_some]
  | jump =>
      cases argument? with
      | none => cases asks
      | some text =>
          obtain ⟨index, indexed, rfl⟩ := Option.map_eq_some_iff.mp asks
          cases asked
          have answer_eq := refusal?_eq_some_iff.mp refused
          have followed : console.follow (console.session.jump (some index)) = console :=
            follow_of_unchanged unchanged
          cases executing : console.session.execution with
          | error idle =>
              simp only [Session.jump, executing] at answer_eq
              cases answer_eq
              simp only [perform, jumpTo, executing]
          | ok running => simp only [perform, jumpTo, executing, indexed, answer_eq, followed]
  | resume =>
      cases asks
      obtain ⟨found, resumed, rfl⟩ := Option.map_eq_some_iff.mp asked
      have answer_eq := refusal?_eq_some_iff.mp refused
      have followed : console.follow found = console := follow_of_unchanged unchanged
      simp only [perform, resumeRun, resumed, Option.map_some, answer_eq, followed]
  | dataPointer =>
      cases asks
      cases asked
      have answer_eq := refusal?_eq_some_iff.mp refused
      simp only [perform, showPointer, answer_eq]
  | print =>
      have looked {index? : Option Number}
          (asked : console.session.ask (.cell index?) = some reply) :
          console.session.cell index? = .error error := by
        cases asked
        exact refusal?_eq_some_iff.mp refused
      cases argument? with
      | none =>
          cases asks
          simp only [perform, showCell, looked asked]
      | some text =>
          obtain ⟨index, indexed, rfl⟩ := Option.map_eq_some_iff.mp asks
          simp only [perform, showCell, indexed, looked asked]
  | tape =>
      cases asks
      cases asked
      have answer_eq := refusal?_eq_some_iff.mp refused
      simp only [perform, showTape, answer_eq]

/-! ## What a line meets -/

/-- The console over its session under other settings. -/
def withSettings (console : Console) (settings : Settings) : Console :=
  { console with session := console.session.withSettings settings }

/-- Settings with a length that no tape can have. -/
def tooLong : Settings :=
  { tapeSize := 9007199254740992 }

/-- A value without a text, as one is that is made of nothing. -/
def textless : Thrown :=
  .textless (.error none "Cannot convert object to primitive value")

/-- What is written of such a start. -/
def started : List Effect :=
  [.noted (Log.debug "Compiled source: 2 instructions"),
    .noted (Log.debug "Starting run with 1 cells of 65536 values")]

/-- The error of a program that leaves the tape with its first instruction. -/
def underflow : RuntimeError :=
  { fault := .pointerUnderflow
    pc := .index 0
    operator := .moveLeft
    pointer := .index 0
    cell? := some 0 }

end Console

end TapeDebugger
