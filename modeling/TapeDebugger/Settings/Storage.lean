import TapeDebugger.Json.Reader
import TapeDebugger.Json.Writer
import TapeDebugger.Log

/-!
# Where settings are stored

A storage answers for a name with the text of a JSON value, or with nothing.
Values in memory make a storage, and so does a file that holds an object.
-/

namespace TapeDebugger

namespace Settings

/-- A storage of settings. -/
structure Storage where
  item? : String → Option String

namespace Storage

def empty : Storage :=
  ⟨fun _ => none⟩

def ofTexts (texts : List (String × String)) : Storage :=
  ⟨fun name => texts.lookup name⟩

/-! ## Memory -/

/-- A storage that holds a text under one more name, in the place of any there. -/
def put (storage : Storage) (name : List UInt16) (text : String) : Storage :=
  ⟨fun asked => if Text.utf16 asked = name then some text else storage.item? asked⟩

/-- A storage of values in memory, each written down when it is put there. -/
def ofValues (values : List (List UInt16 × Json)) : Storage :=
  values.foldl (fun storage entry => storage.put entry.1 entry.2.text) empty

/-! ## Files -/

/-- A storage that writes down the members of an object when it is asked for them. -/
def ofMembers (members : List (List UInt16 × Json)) : Storage :=
  ⟨fun name => (Json.member? members name).map Json.text⟩

def missingFile (path : String) : Log.Entry :=
  Log.debug s!"No settings file at {path}, using defaults"

def ignoredFile (path reason : String) : Log.Entry :=
  Log.warn s!"Ignoring {path}: {reason}"

def notAnObject : String := "expected a JSON object"

/-- The storage of a settings file, given its content if there is one. -/
def ofFile (path : String) (content? : Option String) : Logged Storage :=
  match content? with
  | none => ⟨empty, [missingFile path]⟩
  | some content =>
      match Json.parse content with
      | .ok (.object members) => ⟨ofMembers members, []⟩
      | .ok _ => ⟨empty, [ignoredFile path notAnObject]⟩
      | .error error => ⟨empty, [ignoredFile path error.message]⟩

end Storage

end Settings

end TapeDebugger
