import TapeDebugger.Proofs.Console.Speech
import TapeDebugger.Proofs.Console.Throwing

/-!
# What a console notes

Of all that is handed out, the entries of the log come from the operation that a line
asks for, and those are for debugging.  The only other entry is an error, for what has been
thrown and has a text.
-/

namespace TapeDebugger

open Machine (Halt)

/-! ## Entries of an operation -/

namespace Session

/-- The entry of the log that a signal is, if it is one. -/
def Signal.entry? : Signal → Option Log.Entry
  | .noted entry => some entry
  | .wrote _ | .published _ | .event _ => none

/-- What is noted in the course of an operation. -/
def Reply.entries {α : Type} (reply : Reply α) : List Log.Entry :=
  reply.signals.filterMap Signal.entry?

variable {session : Session} {program : Program} {machine : Machine}

end Session

open Session (Event Operation Reply Signal)

namespace Console

/-! ## Entries that are handed out -/

/-- The entry of the log that is handed out, if it is one. -/
def Effect.entry? : Effect → Option Log.Entry
  | .noted entry => some entry
  | .message _ | .errorMessage _ | .programByte _ => none

/-- The entries of the log that a console has handed out. -/
def entries (console : Console) : List Log.Entry :=
  console.written.toList.filterMap Effect.entry?

variable {console next : Console}

@[simp] theorem entries_emit (console : Console) (effect : Effect) :
    (console.emit effect).entries = console.entries ++ effect.entry?.toList := by
  rw [entries, emit, Array.toList_push, List.filterMap_append, entries]
  cases effect <;> rfl

@[simp] theorem entries_closeLine (console : Console) :
    console.closeLine.entries = console.entries := by
  unfold closeLine
  split
  · exact (console.entries_emit _).trans (List.append_nil _)
  · rfl

variable {read : Reader} {patience : Nat} {text : String} {answer : Except Thrown Bool}
  {thrown : Thrown}

end Console

end TapeDebugger
