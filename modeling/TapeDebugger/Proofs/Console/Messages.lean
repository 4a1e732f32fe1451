import TapeDebugger.Proofs.Console.FreshLines
import TapeDebugger.Proofs.Console.Output

/-!
# Messages behind all others

What a console has written stays where it is, and its messages come behind that, each on
a line of its own.  If one follows right behind another, nothing comes between them, and
what is heard of an event comes behind all that was heard before.
-/

namespace TapeDebugger

open Session (Event Reply Signal)

namespace Console

variable {console next middle : Console}

/-- A message on a line of its own. -/
def outLine (text : String) : Effect :=
  .message s!"{text}\n"

/-- A message about an error on a line of its own. -/
def errorLine (text : String) : Effect :=
  .errorMessage s!"{text}\n"

/-- What is handed out on the way to the next console ends with these messages. -/
def EndsWith (console : Console) (messages : List Effect) (next : Console) : Prop :=
  ∃ before, next.written.toList = console.written.toList ++ (before ++ messages)

namespace EndsWith

variable {earlier messages : List Effect}

theorem trans (first : console.EndsWith earlier middle) (second : middle.EndsWith messages next) :
    console.EndsWith messages next := by
  obtain ⟨before, middle_eq⟩ := first
  obtain ⟨between, next_eq⟩ := second
  refine ⟨before ++ earlier ++ between, ?_⟩
  rw [next_eq, middle_eq]
  simp only [List.append_assoc]

theorem emit (ends : console.EndsWith messages next) (effect : Effect) :
    console.EndsWith (messages ++ [effect]) (next.emit effect) := by
  obtain ⟨before, next_eq⟩ := ends
  refine ⟨before, ?_⟩
  rw [Console.emit, Array.toList_push, next_eq]
  simp only [List.append_assoc]

theorem closeLine_of_closed (closed : console.lineOpen = false) :
    console.closeLine = console := by
  rw [closeLine, closed, if_neg Bool.false_ne_true]

/-- Behind a closed line a message comes right behind those before it. -/
theorem say (ends : console.EndsWith messages next) (closed : next.lineOpen = false)
    (text : String) : console.EndsWith (messages ++ [outLine text]) (next.say text) := by
  rw [Console.say, closeLine_of_closed closed]
  exact ends.emit _

theorem complain (ends : console.EndsWith messages next) (closed : next.lineOpen = false)
    (text : String) : console.EndsWith (messages ++ [errorLine text]) (next.complain text) := by
  rw [Console.complain, closeLine_of_closed closed]
  exact ends.emit _

end EndsWith

end Console

end TapeDebugger
