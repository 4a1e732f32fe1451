import TapeDebugger.Console.Execution
import TapeDebugger.Proofs.Session.Grouping
import TapeDebugger.Proofs.Session.Refusal

/-!
# Patience

Patience bounds how long a program may go on by itself.  It never bears on what comes
of it: once there is an answer, more patience gives the same.  So a line has one
answer at most, however long one waits for it, and it has one unless it goes on without a
bound with a program that never halts.
-/

namespace TapeDebugger

open Command (Line)

namespace Session

variable {session : Session}

end Session

namespace Console

variable {console next : Console} {patience more : Nat} {read : Reader}

theorem stepBy_of_le {count : Number} (stepped : console.stepBy count patience = some next)
    (le : patience ≤ more) : console.stepBy count more = some next := by
  obtain ⟨reply, answered, followed⟩ := Option.map_eq_some_iff.mp stepped
  exact Option.map_eq_some_iff.mpr ⟨reply, Session.next_of_le answered le, followed⟩

theorem stepNext_of_le {argument? : Option String}
    (stepped : console.stepNext argument? patience = some next) (le : patience ≤ more) :
    console.stepNext argument? more = some next := by
  cases argument? with
  | none => exact stepBy_of_le stepped le
  | some text =>
      cases counted : Number.ofIntegerText? text with
      | none => simpa only [stepNext, counted] using stepped
      | some count =>
          simp only [stepNext, counted] at stepped ⊢
          exact stepBy_of_le stepped le

theorem resumeRun_of_le (resumed : console.resumeRun patience = some next)
    (le : patience ≤ more) : console.resumeRun more = some next := by
  obtain ⟨reply, resumed, followed⟩ := Option.map_eq_some_iff.mp resumed
  exact Option.map_eq_some_iff.mpr ⟨reply, Session.resume_of_le resumed le, followed⟩

theorem perform_of_le {command : Command} {argument? : Option String} {completion : Completion}
    (performed : console.perform patience read command argument? = some completion)
    (le : patience ≤ more) : console.perform more read command argument? = some completion := by
  cases command with
  | next =>
      obtain ⟨final, stepped, rfl⟩ := Option.map_eq_some_iff.mp performed
      exact Option.map_eq_some_iff.mpr ⟨final, stepNext_of_le stepped le, rfl⟩
  | resume =>
      obtain ⟨final, resumed, rfl⟩ := Option.map_eq_some_iff.mp performed
      exact Option.map_eq_some_iff.mpr ⟨final, resumeRun_of_le resumed le, rfl⟩
  | help | quit | file | run | jump | dataPointer | print | tape | input => exact performed

theorem execute_of_le {line : String} {answer : Except Thrown Bool × Console}
    (executed : console.execute patience read line = some answer) (le : patience ≤ more) :
    console.execute more read line = some answer := by
  rw [execute] at executed ⊢
  cases parsed : Line.parse line with
  | empty | unknown word =>
      rw [parsed] at executed
      exact executed
  | call command argument? =>
      simp only [parsed] at executed ⊢
      obtain ⟨final, performed, same⟩ := Option.map_eq_some_iff.mp executed
      exact Option.map_eq_some_iff.mpr ⟨final, perform_of_le performed le, same⟩

/-- However long one waits for the answer to a line, it is the same. -/
theorem execute_unique {line : String} {answer other : Except Thrown Bool × Console}
    (executed : console.execute patience read line = some answer)
    (executed' : console.execute more read line = some other) : answer = other := by
  rcases Nat.le_total patience more with le | le
  · exact Option.some.inj ((execute_of_le executed le).symm.trans executed')
  · exact Option.some.inj (executed.symm.trans (execute_of_le executed' le))

/-! ## Answers that come -/

/-- The line executes instructions, and no counter bounds how many. -/
inductive Unbounded (console : Console) : Line → Prop where
  | resume {argument? : Option String}
      (unreached : ¬ Machine.Reached console.session.settings.continueStepLimit) :
      Unbounded console (.call .resume argument?)
  | next {text : String} {number : Nat}
      (counted : Number.ofIntegerText? text = some (.finite number))
      (beyond : Number.exactIntegerBound < number) :
      Unbounded console (.call .next (some text))

/-- What a line asks for ends: with a halt if it is unbounded, and in any case if it is not. -/
def Finishes (console : Console) (line : Line) : Prop :=
  console.session.status = .running → console.Unbounded line →
    ∃ halt final, console.session.HaltsIn halt final

end Console

end TapeDebugger
