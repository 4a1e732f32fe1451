import TapeDebugger.Proofs.Json.Members
import TapeDebugger.Proofs.Settings.Loading
import TapeDebugger.Proofs.Text.Lines

/-!
# Settings files

A file with an object is as good as its members in memory: the same settings are read
from both with the same entries in the log, and an integer is what it was, though it is
written down and read again on the way.  A file with anything else is as good as none,
but for one warning.
-/

namespace TapeDebugger

/-! ## Byte order marks -/

/-- A byte order mark is kept as a character. -/
theorem Text.toList_decode_mark (bytes : List UInt8) :
    (decode (0xef :: 0xbb :: 0xbf :: bytes)).toList = '\ufeff' :: decodeFrom none bytes := by
  rw [toList_decode]
  rfl

namespace Json

theorem SpellsMembers.not_mark {text : String} {written : Members}
    (spelled : SpellsMembers text written) (rest : List Char) :
    text.toList ≠ '\ufeff' :: rest := by
  obtain ⟨before, braced, behind, spaces, spelled, -, divided⟩ := spelled
  rw [divided]
  cases before with
  | nil => cases spelled <;> nofun
  | cons space before =>
      intro marked
      have blank := spaces space List.mem_cons_self
      rw [(List.cons.inj marked).1] at blank
      exact absurd blank (by decide)

end Json

namespace Settings

namespace Storage

variable {written members : Json.Members} {content : String}

/-! ## Memory -/

@[simp] theorem item?_put (storage : Storage) (name : List UInt16) (text asked : String) :
    (storage.put name text).item? asked =
      if Text.utf16 asked = name then some text else storage.item? asked :=
  rfl

/-- Of values under the same name the last is in the storage. -/
theorem item?_ofValues (values : Json.Members) (name : String) :
    (ofValues values).item? name =
      (values.reverse.lookup (Text.utf16 name)).map Json.text := by
  induction values using List.reverseRecOn with
  | nil => rfl
  | append_singleton values entry ih =>
      rw [ofValues, List.foldl_concat, List.reverse_concat, item?_put, Json.lookup_cons_eq,
        apply_ite (Option.map Json.text)]
      exact congrArg _ ih

/-- An object makes the same storage as the values that it was written with. -/
theorem ofMembers_eq_ofValues (denoted : Json.ofMembers written = .object members) :
    ofMembers members = ofValues written := by
  refine congrArg Storage.mk (funext fun name => ?_)
  rw [Json.member?, Json.lookup_of_ofMembers denoted]
  exact (item?_ofValues written name).symm

/-- An object makes the same storage as its own members. -/
theorem ofMembers_eq_ofValues_self (denoted : Json.ofMembers written = .object members) :
    ofMembers members = ofValues members := by
  refine congrArg Storage.mk (funext fun name => ?_)
  rw [Json.member?, Json.lookup_of_perm (Json.distinct_of_ofMembers denoted)
    (List.reverse_perm members).symm]
  exact (item?_ofValues members name).symm

/-! ## Files -/

theorem item?_ofMembers {name : String} {value : Json}
    (found : Json.member? members name = some value) :
    (ofMembers members).item? name = some value.text :=
  congrArg (Option.map Json.text) found

theorem ofFile_of_object (path : String) (parsed : Json.parse content = .ok (.object members)) :
    ofFile path (some content) = pure (ofMembers members) := by
  simp only [ofFile, parsed]
  rfl

/-- Why a content that is no object is ignored. -/
def reason (content : String) : String :=
  match Json.parse content with
  | .ok _ => notAnObject
  | .error error => error.message

theorem ofFile_of_other (path : String)
    (other : ∀ members, Json.parse content ≠ .ok (.object members)) :
    ofFile path (some content) = ⟨empty, [ignoredFile path (reason content)]⟩ := by
  simp only [ofFile, reason]
  cases parsed : Json.parse content with
  | error error => rfl
  | ok json =>
      cases json with
      | object members => exact absurd parsed (other members)
      | null | bool | number | string | array => rfl

end Storage

/-! ## Stores -/

theorem settings_ofStorage (storage : Storage) :
    (Store.ofStorage storage).value.settings = (load storage).value :=
  rfl

/-- From nothing the defaults are read, and nothing is noted. -/
theorem ofStorage_empty :
    Store.ofStorage .empty = { value := { storage := .empty, settings := {}, published := 1 } } :=
  rfl

/-- An integer that is written down is read again as it was. -/
theorem number_load_of_integer {storage : Storage} {key : NumberKey} {value : Int}
    (written : storage.item? key.name = some (Json.number (.finite value)).text)
    (small : value.natAbs < 2 ^ 53) (suited : key.Suits (.finite value)) :
    (load storage).value.number key = .finite value := by
  have spelled := Json.parse_eq_number_iff.mp (Json.parse_text_intCast small.le)
  exact (key.reads_load storage).stored _ ⟨_, written, spelled⟩ suited

/--
The settings that a file gives: those of the members in memory if the content is an object,
and all integers among them as they are written; else the defaults, and one warning.  An
object is every content that is members between braces, and no other.
-/
theorem settings_of_file (path : String) (bytes : List UInt8) :
    let content := Text.decode bytes
    let opened := Storage.ofFile path (some content) >>= Store.ofStorage
    (∀ members, Json.parse content = .ok (.object members) →
      opened = Store.ofStorage (.ofValues members) ∧
      (∃ written, Json.SpellsMembers content written ∧ Json.ofMembers written = .object members ∧
        opened = Store.ofStorage (.ofValues written)) ∧
      ∀ (key : NumberKey) (value : Int),
        Json.member? members key.name = some (.number (.finite value)) →
        value.natAbs < 2 ^ 53 → key.Suits (.finite value) →
        opened.value.settings.number key = .finite value) ∧
    ((∀ members, Json.parse content ≠ .ok (.object members)) →
      opened.value.settings = {} ∧
      opened.entries = [Storage.ignoredFile path (Storage.reason content)]) ∧
    ([0xef, 0xbb, 0xbf] <+: bytes → ∀ members, Json.parse content ≠ .ok (.object members)) ∧
    ∀ written, Json.SpellsMembers content written →
      ∃ members, Json.parse content = .ok (.object members) ∧
        Json.ofMembers written = .object members := by
  intro content opened
  refine ⟨?_, ?_, ?_, ?_⟩
  · intro members parsed
    have opened_eq : opened = Store.ofStorage (.ofMembers members) := by
      show Storage.ofFile path (some content) >>= Store.ofStorage = _
      rw [Storage.ofFile_of_object path parsed]
      rfl
    obtain ⟨written, spelled, denoted⟩ := Json.parse_eq_object_iff.mp parsed
    refine ⟨?_, ⟨written, spelled, denoted, ?_⟩, ?_⟩
    · rw [opened_eq, Storage.ofMembers_eq_ofValues_self denoted]
    · rw [opened_eq, Storage.ofMembers_eq_ofValues denoted]
    · intro key value found small suited
      rw [opened_eq, settings_ofStorage]
      exact number_load_of_integer (Storage.item?_ofMembers found) small suited
  · intro other
    show (Storage.ofFile path (some content) >>= Store.ofStorage).value.settings = {} ∧
      (Storage.ofFile path (some content) >>= Store.ofStorage).entries = _
    rw [Storage.ofFile_of_other path other, Logged.value_bind, Logged.entries_bind,
      ofStorage_empty]
    exact ⟨rfl, rfl⟩
  · rintro ⟨rest, rfl⟩ members parsed
    obtain ⟨written, spelled, -⟩ := Json.parse_eq_object_iff.mp parsed
    exact spelled.not_mark _ (Text.toList_decode_mark rest)
  · intro written spelled
    exact ⟨_, Json.parse_of_spellsMembers spelled, rfl⟩

/-- A file with a member that appears again, and with a number beyond all others. -/
def amendedFile : List UInt8 :=
  Text.utf8 ("\x7b\"compilerStackSize\": 100, \"compilerStackSize\": 12,\n" ++
    "\"compilerProgramSize\": 1e400\x7d\n")

/-- The number that an object has under a name, if the content is one. -/
def writtenNumber? (content name : String) : Option Number :=
  match Json.parse content with
  | .ok (.object members) =>
      match Json.member? members name with
      | some (.number number) => some number
      | _ => none
  | _ => none

theorem exists_object_of_writtenNumber? {content name : String} {number : Number}
    (found : writtenNumber? content name = some number) :
    ∃ members, Json.parse content = .ok (.object members) ∧
      Json.member? members name = some (.number number) := by
  unfold writtenNumber? at found
  split at found
  · rename_i members parsed
    split at found
    · rename_i held
      cases found
      exact ⟨members, parsed, held⟩
    · cases found
  · cases found

/-- The later of two members counts, as it does in memory, and the other number is not taken. -/
theorem settings_of_file_with_later_member :
    let content := Text.decode amendedFile
    let opened := Storage.ofFile "settings.json" (some content) >>= Store.ofStorage
    (∃ members, Json.parse content = .ok (.object members) ∧
      opened = Store.ofStorage (.ofValues members)) ∧
      (∃ written, Json.SpellsMembers content written ∧
        opened = Store.ofStorage (.ofValues written)) ∧
      opened.value.settings = { limits := { stackSize := 12 } } ∧
      opened.value.settings.number .stackSize = .finite (12 : Int) ∧
      opened.entries = [Log.warn "Invalid value for compilerProgramSize: null, using 4096"] := by
  intro content opened
  have later : writtenNumber? content NumberKey.stackSize.name = some (.finite (12 : Int)) := by
    decide +kernel
  obtain ⟨members, parsed, found⟩ := exists_object_of_writtenNumber? later
  obtain ⟨ofObject, -, -, -⟩ := settings_of_file "settings.json" amendedFile
  obtain ⟨inMemory, ⟨written, spelled, -, asWritten⟩, unchanged⟩ := ofObject members parsed
  refine ⟨⟨members, parsed, inMemory⟩, ⟨written, spelled, asWritten⟩, by decide +kernel, ?_,
    by decide +kernel⟩
  exact unchanged .stackSize 12 found (by decide) ⟨12, by decide, rfl⟩

end Settings

end TapeDebugger
