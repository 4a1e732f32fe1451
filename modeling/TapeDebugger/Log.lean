/-!
# The log

What the debugger notes beside its answers.  Warnings and errors are always
shown; the rest only when asked for.
-/

namespace TapeDebugger

namespace Log

/-- How much an entry of the log matters. -/
inductive Level where
  | debug
  | info
  | warn
  | error
  deriving DecidableEq, Repr

namespace Level

def name : Level → String
  | debug => "debug"
  | info => "info"
  | warn => "warn"
  | error => "error"

/-- Whether entries of a level are shown without being asked for. -/
def isUrgent : Level → Bool
  | warn | error => true
  | debug | info => false

end Level

structure Entry where
  level : Level
  message : String
  deriving DecidableEq, Repr

def debug (message : String) : Entry :=
  ⟨.debug, message⟩

def warn (message : String) : Entry :=
  ⟨.warn, message⟩

def error (message : String) : Entry :=
  ⟨.error, message⟩

def Entry.line (entry : Entry) : String :=
  s!"[{entry.level.name}] {entry.message}\n"

def Entry.isShown (entry : Entry) (verbose : Bool) : Bool :=
  verbose || entry.level.isUrgent

end Log

/-- A value with the entries that were noted in making it, the first first. -/
structure Logged (α : Type) where
  value : α
  entries : List Log.Entry := []
  deriving Repr

namespace Logged

/-- A value that depends on another, with the entries noted for both. -/
def bind {α β : Type} (first : Logged α) (next : α → Logged β) : Logged β :=
  let second := next first.value
  ⟨second.value, first.entries ++ second.entries⟩

instance : Monad Logged where
  pure value := { value }
  bind := bind

@[simp] theorem entries_pure {α : Type} (value : α) : (pure value : Logged α).entries = [] := rfl

@[simp] theorem value_pure {α : Type} (value : α) : (pure value : Logged α).value = value := rfl

@[simp] theorem entries_bind {α β : Type} (first : Logged α) (next : α → Logged β) :
    (first >>= next).entries = first.entries ++ (next first.value).entries := rfl

@[simp] theorem value_bind {α β : Type} (first : Logged α) (next : α → Logged β) :
    (first >>= next).value = (next first.value).value := rfl

end Logged

end TapeDebugger
