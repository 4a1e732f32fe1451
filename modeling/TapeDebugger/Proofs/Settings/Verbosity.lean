import TapeDebugger.Proofs.Settings.Files

/-!
# Verbosity and settings

Two settings files may differ in whether the whole log is to be shown and in nothing
else.  Then the settings differ in just that, and the same is noted of both.
-/

namespace TapeDebugger

theorem Json.parse_text_bool (value : Bool) :
    parse (Json.bool value).text = .ok (.bool value) := by
  rw [parse_eq_bool_iff]
  cases value <;> exact ⟨[], [], nofun, nofun, rfl⟩

namespace Settings

/-- The same settings, but for whether the whole log is shown. -/
def withVerbose (settings : Settings) (verbose : Bool) : Settings :=
  { settings with verbose }

namespace Key

/-- Of a storage a key is only about the text under its name. -/
theorem load_congr {α : Type} (key : Key α) {storage other : Storage}
    (same : storage.item? key.name = other.item? key.name) :
    key.load storage = key.load other := by
  rw [load, load, same]

/-- A truth value is taken as it is. -/
theorem load_verbose {storage : Storage} {value : Bool}
    (stored : storage.item? verbose.name = some (Json.bool value).text) :
    verbose.load storage = { value } := by
  rw [load, stored]
  simp only [Json.parse_text_bool]
  rfl

end Key

/-- Objects that are the same but for whether the whole log is to be shown. -/
structure DifferInVerbose (members otherMembers : Json.Members) (verbose otherVerbose : Bool) :
    Prop where
  verbose : Json.member? members Key.verbose.name = some (.bool verbose)
  otherVerbose : Json.member? otherMembers Key.verbose.name = some (.bool otherVerbose)
  same : ∀ name, name ≠ Key.verbose.name →
    Json.member? members name = Json.member? otherMembers name

/-- Members in front of which there is a truth value or the other. -/
theorem differInVerbose_cons (members : Json.Members) (verbose otherVerbose : Bool) :
    DifferInVerbose ((Text.utf16 Key.verbose.name, .bool verbose) :: members)
      ((Text.utf16 Key.verbose.name, .bool otherVerbose) :: members) verbose otherVerbose where
  verbose := List.lookup_cons_self
  otherVerbose := List.lookup_cons_self
  same name other := by
    have different : Text.utf16 name ≠ Text.utf16 Key.verbose.name := fun same =>
      other (by rw [← Text.ofUtf16_utf16 name, same, Text.ofUtf16_utf16])
    rw [Json.member?, Json.member?, Json.lookup_cons_eq, if_neg different, Json.lookup_cons_eq,
      if_neg different]

/-- The settings are the same then, too, but for that one, and the same is noted. -/
theorem DifferInVerbose.load_eq {members otherMembers : Json.Members} {verbose otherVerbose : Bool}
    (differ : DifferInVerbose members otherMembers verbose otherVerbose) :
    load (.ofMembers otherMembers) =
      ⟨(load (.ofMembers members)).value.withVerbose otherVerbose,
        (load (.ofMembers members)).entries⟩ := by
  have key_eq {α : Type} (key : Key α) (other : key.name ≠ Key.verbose.name) :
      key.load (.ofMembers otherMembers) = key.load (.ofMembers members) :=
    key.load_congr (congrArg (Option.map Json.text) (differ.same key.name other)).symm
  have verbose_eq := Key.load_verbose (Storage.item?_ofMembers differ.verbose)
  have otherVerbose_eq := Key.load_verbose (Storage.item?_ofMembers differ.otherVerbose)
  simp only [load, key_eq Key.tapeSize (by decide), key_eq Key.cellSize (by decide),
    key_eq Key.eofValue (by decide), key_eq Key.programSize (by decide),
    key_eq Key.stackSize (by decide), key_eq Key.windowRadius (by decide),
    key_eq Key.continueStepLimit (by decide)]
  rw [verbose_eq, otherVerbose_eq]
  rfl

end Settings

end TapeDebugger
