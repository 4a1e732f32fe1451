import TapeDebugger.Settings.Basic
import TapeDebugger.Settings.Storage

/-!
# Loading settings

Each setting is read from its own key and no other.  A value that does not
suit its key is replaced by the default, and a warning says so.
-/

namespace TapeDebugger

namespace Settings

/-! ## Keys -/

/-- A key with the values that suit it and the value in force without one. -/
structure Key (α : Type) where
  name : String
  default : α
  defaultText : String
  accept? : Json → Option α

namespace Key

/-- A key whose values are integers that pass a check. -/
def integer (name : String) (default : Int) (check : Int → Bool) : Key Int where
  name := name
  default := default
  defaultText := Number.integerText default
  accept?
    | .number value => value.toInt?.filter check
    | _ => none

/-- A key whose values are natural numbers that pass a check. -/
def natural (name : String) (default : Nat) (check : Nat → Bool) : Key Nat where
  name := name
  default := default
  defaultText := Number.integerText default
  accept?
    | .number value => value.toNat?.filter check
    | _ => none

/-- The key of the tape size; the pointer needs at least one cell. -/
def tapeSize : Key Nat :=
  natural "interpreterTapeSize" 65535 fun size => 0 < size

/-- The key of the cell size, given as a number of values. -/
def cellSize : Key Machine.CellSize where
  name := "interpreterCellSize"
  default := .bits16
  defaultText := Number.integerText 65536
  accept?
    | .number value => Machine.CellSize.ofNumber? value
    | _ => none

/-- The key of the value that is read at the end of the input. -/
def eofValue : Key Int :=
  integer "interpreterEofValue" 0 fun _ => true

/-- The key of the program size; the end of a program needs at least one slot. -/
def programSize : Key Int :=
  integer "compilerProgramSize" 4096 fun size => 0 < size

/-- The key of the depth to which loops may be nested. -/
def stackSize : Key Int :=
  integer "compilerStackSize" 512 fun size => 0 ≤ size

/-- The key of how far the tape is shown around the pointer. -/
def windowRadius : Key Nat :=
  natural "inspectorWindowRadius" 4 fun _ => true

/-- The key of how many instructions are executed at once; 0 is no limit. -/
def continueStepLimit : Key Nat :=
  natural "debuggerContinueStepLimit" 0 fun _ => true

/-- The key of whether the whole log is shown: only `true` says so, and no value is unsuitable. -/
def verbose : Key Bool where
  name := "developmentVerbose"
  default := false
  defaultText := "false"
  accept?
    | .bool value => some value
    | _ => some false

def unreadable {α : Type} (key : Key α) : Log.Entry :=
  Log.warn s!"Unreadable value for {key.name}, using {key.defaultText}"

def unsuitable {α : Type} (key : Key α) (value : Json) : Log.Entry :=
  Log.warn s!"Invalid value for {key.name}: {value.text}, using {key.defaultText}"

def load {α : Type} (key : Key α) (storage : Storage) : Logged α :=
  match storage.item? key.name with
  | none => { value := key.default }
  | some text =>
      match Json.parse text with
      | .error _ => ⟨key.default, [key.unreadable]⟩
      | .ok value =>
          match key.accept? value with
          | some accepted => { value := accepted }
          | none => ⟨key.default, [key.unsuitable value]⟩

end Key

/-! ## All settings -/

/-- Reads all settings, in a fixed order of their keys. -/
def load (storage : Storage) : Logged Settings := do
  let tapeSize ← Key.tapeSize.load storage
  let cellSize ← Key.cellSize.load storage
  let eofValue ← Key.eofValue.load storage
  let programSize ← Key.programSize.load storage
  let stackSize ← Key.stackSize.load storage
  let windowRadius ← Key.windowRadius.load storage
  let continueStepLimit ← Key.continueStepLimit.load storage
  let verbose ← Key.verbose.load storage
  pure
    { tapeSize, cellSize, eofValue
      limits := { programSize, stackSize }
      windowRadius, continueStepLimit, verbose }

/-! ## The store -/

/--
The settings in force, the storage they were read from, and how many times
settings have been handed out to a subscriber from the start.
-/
structure Store where
  storage : Storage
  settings : Settings
  published : Nat

namespace Store

def ofStorage (storage : Storage) : Logged Store := do
  let settings ← Settings.load storage
  pure { storage, settings, published := 1 }

/-- Reads the settings again, from another storage if one is given. -/
def reload (store : Store) (storage? : Option Storage) : Logged Store := do
  let storage := storage?.getD store.storage
  let settings ← Settings.load storage
  pure { storage, settings, published := store.published + 1 }

end Store

end Settings

end TapeDebugger
