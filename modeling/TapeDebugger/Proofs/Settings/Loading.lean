import TapeDebugger.Proofs.Json.Scalar
import TapeDebugger.Proofs.Settings.Keys

/-!
# Each setting by itself

A setting is the number that is stored under its key, if the text there is a numeral and
the number suits the key, and the default otherwise.  No text under another key bears on
it, and this holds of all settings however often they are read again.
-/

namespace TapeDebugger

theorem Number.toInt?_eq_some_iff {number : Number} {value : Int} :
    number.toInt? = some value ↔ number = .finite value := by
  cases number with
  | nan => exact ⟨nofun, nofun⟩
  | infinite negative => exact ⟨nofun, nofun⟩
  | finite rational =>
      rw [finite.injEq, toInt?]
      constructor
      · intro found
        split at found
        · rename_i whole
          exact Rat.ext (by rw [Option.some.inj found, Rat.num_intCast])
            (by rw [whole, Rat.den_intCast])
        · cases found
      · rintro rfl
        rw [if_pos (Rat.den_intCast value), Rat.num_intCast]

namespace Settings

/-! ## What a storage holds -/

/-- The text under a name is a numeral of the number. -/
def Storage.HoldsNumber (storage : Storage) (name : String) (number : Number) : Prop :=
  ∃ text, storage.item? name = some text ∧ Json.SpellsNumber text number

/-- The text under a name is the word of the truth value. -/
def Storage.HoldsBool (storage : Storage) (name : String) (value : Bool) : Prop :=
  ∃ text, storage.item? name = some text ∧ Json.SpellsBool text value

theorem Storage.holdsNumber_congr {storage other : Storage} {name : String} {number : Number}
    (same : storage.item? name = other.item? name) :
    storage.HoldsNumber name number ↔ other.HoldsNumber name number := by
  rw [HoldsNumber, HoldsNumber, same]

/-! ## Keys of numbers -/

/-- The settings that are numbers. -/
inductive NumberKey where
  | tapeSize
  | cellSize
  | eofValue
  | programSize
  | stackSize
  | windowRadius
  | continueStepLimit
  deriving DecidableEq

/-- The number is an integer, and not below the bound. -/
def IsAtLeast (bound : Int) (number : Number) : Prop :=
  ∃ value : Int, bound ≤ value ∧ number = .finite value

namespace NumberKey

def name : NumberKey → String
  | tapeSize => "interpreterTapeSize"
  | cellSize => "interpreterCellSize"
  | eofValue => "interpreterEofValue"
  | programSize => "compilerProgramSize"
  | stackSize => "compilerStackSize"
  | windowRadius => "inspectorWindowRadius"
  | continueStepLimit => "debuggerContinueStepLimit"

def default : NumberKey → Number
  | tapeSize => .finite 65535
  | cellSize => .finite 65536
  | eofValue => .finite 0
  | programSize => .finite 4096
  | stackSize => .finite 512
  | windowRadius => .finite 4
  | continueStepLimit => .finite 0

/-- Which numbers suit a key. -/
def Suits : NumberKey → Number → Prop
  | tapeSize, number | programSize, number => IsAtLeast 1 number
  | stackSize, number | windowRadius, number | continueStepLimit, number => IsAtLeast 0 number
  | cellSize, number => number = .finite 256 ∨ number = .finite 65536 ∨ number = .finite 4294967296
  | eofValue, number => ∃ value : Int, number = .finite value

/-- The number is what a storage says about a key, or else the default. -/
structure Reads (key : NumberKey) (storage : Storage) (number : Number) : Prop where
  stored : ∀ held, storage.HoldsNumber key.name held → key.Suits held → number = held
  unstored : (∀ held, storage.HoldsNumber key.name held → ¬ key.Suits held) →
    number = key.default

end NumberKey

/-- The settings that are numbers, each as its number. -/
def number (settings : Settings) : NumberKey → Number
  | .tapeSize => .finite settings.tapeSize
  | .cellSize => .finite settings.cellSize.modulus
  | .eofValue => .finite settings.eofValue
  | .programSize => .finite settings.limits.programSize
  | .stackSize => .finite settings.limits.stackSize
  | .windowRadius => .finite settings.windowRadius
  | .continueStepLimit => .finite settings.continueStepLimit

/-! ## Loading one key -/

/-- The values that a key accepts are, seen as numbers, those that suit. -/
structure Key.Renders {α : Type} (key : Key α) (view : α → Number) (suits : Number → Prop) :
    Prop where
  accept_iff : ∀ json value,
    key.accept? json = some value ↔ json = .number (view value) ∧ suits (view value)
  covers : ∀ number, suits number → ∃ value, view value = number

namespace Key

variable {α : Type} {key : Key α} {view : α → Number} {suits : Number → Prop}

/-- A key that takes the numbers that can be seen as its values, if they pass a check. -/
theorem renders_of_read (read : Number → Option α) (check : α → Bool)
    (accept_number : ∀ number, key.accept? (.number number) = (read number).filter check)
    (accept_other : ∀ json value, key.accept? json = some value → ∃ number, json = .number number)
    (read_iff : ∀ number value, read number = some value ↔ number = view value)
    (suits_iff : ∀ number, suits number ↔ ∃ value, check value = true ∧ number = view value) :
    key.Renders view suits where
  accept_iff json value := by
    have suits_view : suits (view value) ↔ check value = true := by
      rw [suits_iff]
      constructor
      · rintro ⟨other, checked, same⟩
        have found := (read_iff _ _).mpr same
        rw [(read_iff _ _).mpr rfl] at found
        rwa [Option.some.inj found]
      · exact fun checked => ⟨value, checked, rfl⟩
    rw [suits_view]
    constructor
    · intro accepted
      obtain ⟨number, rfl⟩ := accept_other json value accepted
      rw [accept_number, Option.filter_eq_some_iff, read_iff] at accepted
      exact ⟨congrArg Json.number accepted.1, accepted.2⟩
    · rintro ⟨rfl, checked⟩
      rw [accept_number, Option.filter_eq_some_iff, read_iff]
      exact ⟨rfl, checked⟩
  covers number suited := by
    obtain ⟨value, -, rfl⟩ := (suits_iff number).mp suited
    exact ⟨value, rfl⟩

theorem renders_integer (name : String) (default : Int) (check : Int → Bool)
    (suits_iff : ∀ number, suits number ↔
      ∃ value : Int, check value = true ∧ number = .finite value) :
    (integer name default check).Renders (fun value => .finite value) suits := by
  refine renders_of_read Number.toInt? check (fun _ => rfl) ?_
    (fun _ _ => Number.toInt?_eq_some_iff) suits_iff
  intro json value accepted
  cases json with
  | number number => exact ⟨number, rfl⟩
  | null | bool | string | array | object => cases accepted

theorem renders_natural (name : String) (default : Nat) (check : Nat → Bool)
    (suits_iff : ∀ number, suits number ↔
      ∃ value : Nat, check value = true ∧ number = .finite value) :
    (natural name default check).Renders (fun value => .finite value) suits := by
  refine renders_of_read Number.toNat? check (fun _ => rfl) ?_
    (fun _ _ => Number.toNat?_eq_some_iff) suits_iff
  intro json value accepted
  cases json with
  | number number => exact ⟨number, rfl⟩
  | null | bool | string | array | object => cases accepted

theorem ofNumber?_eq_some_iff {number : Number} {size : Machine.CellSize} :
    Machine.CellSize.ofNumber? number = some size ↔ number = .finite size.modulus := by
  constructor
  · intro found
    have same := List.find?_some found
    exact of_decide_eq_true same
  · rintro rfl
    cases size <;> decide

theorem renders_cellSize :
    cellSize.Renders (fun size => .finite size.modulus) NumberKey.cellSize.Suits := by
  refine renders_of_read Machine.CellSize.ofNumber? (fun _ => true) ?_ ?_
    (fun _ _ => ofNumber?_eq_some_iff) ?_
  · intro number
    show Machine.CellSize.ofNumber? number = _
    cases Machine.CellSize.ofNumber? number <;> rfl
  · intro json value accepted
    cases json with
    | number number => exact ⟨number, rfl⟩
    | null | bool | string | array | object => cases accepted
  · intro number
    constructor
    · rintro (rfl | rfl | rfl)
      · exact ⟨.bits8, rfl, rfl⟩
      · exact ⟨.bits16, rfl, rfl⟩
      · exact ⟨.bits32, rfl, rfl⟩
    · rintro ⟨size, -, rfl⟩
      cases size with
      | bits8 => exact .inl rfl
      | bits16 => exact .inr (.inl rfl)
      | bits32 => exact .inr (.inr rfl)

/-- A bound on numbers is a check of integers. -/
theorem isAtLeast_iff_integer {bound : Int} {check : Int → Bool}
    (check_iff : ∀ value, check value = true ↔ bound ≤ value) (number : Number) :
    IsAtLeast bound number ↔ ∃ value : Int, check value = true ∧ number = .finite value := by
  simp only [IsAtLeast, check_iff]

/-- A bound on numbers that is not negative is a check of natural numbers. -/
theorem isAtLeast_iff_natural {bound : Int} {check : Nat → Bool} (nonneg : 0 ≤ bound)
    (check_iff : ∀ value : Nat, check value = true ↔ bound ≤ value) (number : Number) :
    IsAtLeast bound number ↔ ∃ value : Nat, check value = true ∧ number = .finite value := by
  constructor
  · rintro ⟨value, le, rfl⟩
    obtain ⟨value, rfl⟩ := Int.eq_ofNat_of_zero_le (nonneg.trans le)
    exact ⟨value, (check_iff value).mpr le, by rw [Int.cast_natCast]⟩
  · rintro ⟨value, checked, rfl⟩
    exact ⟨value, (check_iff value).mp checked, by rw [Int.cast_natCast]⟩

/-- The key is the one of a setting that is a number, with the values seen as numbers. -/
structure Serves (key : Key α) (kind : NumberKey) (view : α → Number) : Prop where
  renders : key.Renders view kind.Suits
  name_eq : key.name = kind.name
  default_eq : view key.default = kind.default
  defaultText_eq : key.defaultText = (Json.number kind.default).text

theorem serves_tapeSize : tapeSize.Serves .tapeSize fun value => .finite value where
  renders := renders_natural _ _ _ (isAtLeast_iff_natural (by decide) fun value => by simp; omega)
  name_eq := rfl
  default_eq := rfl
  defaultText_eq := by decide +kernel

theorem serves_cellSize : cellSize.Serves .cellSize fun size => .finite size.modulus where
  renders := renders_cellSize
  name_eq := rfl
  default_eq := rfl
  defaultText_eq := by decide +kernel

theorem serves_eofValue : eofValue.Serves .eofValue fun value => .finite value where
  renders := renders_integer _ _ _ fun number => by simp [NumberKey.Suits]
  name_eq := rfl
  default_eq := rfl
  defaultText_eq := by decide +kernel

theorem serves_programSize : programSize.Serves .programSize fun value => .finite value where
  renders := renders_integer _ _ _ (isAtLeast_iff_integer fun value => by simp; omega)
  name_eq := rfl
  default_eq := rfl
  defaultText_eq := by decide +kernel

theorem serves_stackSize : stackSize.Serves .stackSize fun value => .finite value where
  renders := renders_integer _ _ _ (isAtLeast_iff_integer fun value => by simp)
  name_eq := rfl
  default_eq := rfl
  defaultText_eq := by decide +kernel

theorem serves_windowRadius : windowRadius.Serves .windowRadius fun value => .finite value where
  renders := renders_natural _ _ _ (isAtLeast_iff_natural le_rfl fun value => by simp)
  name_eq := rfl
  default_eq := rfl
  defaultText_eq := by decide +kernel

theorem serves_continueStepLimit :
    continueStepLimit.Serves .continueStepLimit fun value => .finite value where
  renders := renders_natural _ _ _ (isAtLeast_iff_natural le_rfl fun value => by simp)
  name_eq := rfl
  default_eq := rfl
  defaultText_eq := by decide +kernel

/-- What is loaded is what the storage says if it suits, and the default otherwise. -/
theorem Serves.reads {kind : NumberKey} (serves : key.Serves kind view) (storage : Storage) :
    kind.Reads storage (view (key.load storage).value) := by
  constructor
  · rintro number ⟨text, found, spelled⟩ suited
    obtain ⟨value, rfl⟩ := serves.renders.covers number suited
    have parsed := Json.parse_eq_number_iff.mpr spelled
    have accepted := (serves.renders.accept_iff _ _).mpr ⟨rfl, suited⟩
    rw [← serves.name_eq] at found
    simp only [Key.load, found, parsed, accepted]
  · intro unsuited
    rw [← serves.default_eq]
    unfold Key.load
    split
    · rfl
    · rename_i text found
      split
      · rfl
      · rename_i json parsed
        split
        · rename_i value accepted
          obtain ⟨rfl, suited⟩ := (serves.renders.accept_iff json value).mp accepted
          rw [serves.name_eq] at found
          exact absurd suited (unsuited _ ⟨text, found, Json.parse_eq_number_iff.mp parsed⟩)
        · rfl

end Key

/-! ## All settings -/

namespace NumberKey

/-- Every setting that is a number is read from its own key. -/
theorem reads_load (key : NumberKey) (storage : Storage) :
    key.Reads storage ((load storage).value.number key) := by
  -- each setting is the value of its own key, so the keys are taken one by one
  cases key with
  | tapeSize => exact Key.serves_tapeSize.reads storage
  | cellSize => exact Key.serves_cellSize.reads storage
  | eofValue => exact Key.serves_eofValue.reads storage
  | programSize => exact Key.serves_programSize.reads storage
  | stackSize => exact Key.serves_stackSize.reads storage
  | windowRadius => exact Key.serves_windowRadius.reads storage
  | continueStepLimit => exact Key.serves_continueStepLimit.reads storage

theorem suits_default (key : NumberKey) : key.Suits key.default := by
  cases key with
  | tapeSize => exact ⟨65535, by decide, rfl⟩
  | cellSize => exact .inr (.inl rfl)
  | eofValue => exact ⟨0, rfl⟩
  | programSize => exact ⟨4096, by decide, rfl⟩
  | stackSize => exact ⟨512, by decide, rfl⟩
  | windowRadius => exact ⟨4, by decide, rfl⟩
  | continueStepLimit => exact ⟨0, by decide, rfl⟩

namespace Reads

variable {key : NumberKey} {storage other : Storage} {number another : Number}

/-- The number is either stored and suits, or the default in want of such a number. -/
theorem stored_or_default (reads : key.Reads storage number) :
    (storage.HoldsNumber key.name number ∧ key.Suits number) ∨
      ((∀ held, storage.HoldsNumber key.name held → ¬ key.Suits held) ∧
        number = key.default) := by
  by_cases found : ∃ held, storage.HoldsNumber key.name held ∧ key.Suits held
  · obtain ⟨held, holds, suited⟩ := found
    rw [reads.stored held holds suited]
    exact .inl ⟨holds, suited⟩
  · have unsuited : ∀ held, storage.HoldsNumber key.name held → ¬ key.Suits held :=
      fun held holds suited => found ⟨held, holds, suited⟩
    exact .inr ⟨unsuited, reads.unstored unsuited⟩

theorem suits (reads : key.Reads storage number) : key.Suits number := by
  rcases reads.stored_or_default with ⟨-, suited⟩ | ⟨-, rfl⟩
  · exact suited
  · exact key.suits_default

/-- No text under another name bears on the number. -/
theorem unique (reads : key.Reads storage number) (readsOther : key.Reads other another)
    (same : storage.item? key.name = other.item? key.name) : number = another := by
  rcases reads.stored_or_default with ⟨holds, suited⟩ | ⟨unsuited, rfl⟩
  · exact (readsOther.stored number ((Storage.holdsNumber_congr same).mp holds) suited).symm
  · refine (readsOther.unstored fun held holds => ?_).symm
    exact unsuited held ((Storage.holdsNumber_congr same).mpr holds)

end Reads

end NumberKey

/-- Only the word `true` asks for the whole log. -/
theorem verbose_load_iff (storage : Storage) :
    (load storage).value.verbose = true ↔ storage.HoldsBool Key.verbose.name true := by
  show (Key.verbose.load storage).value = true ↔ _
  simp only [Storage.HoldsBool, ← Json.parse_eq_bool_iff, Key.load]
  cases storage.item? Key.verbose.name with
  | none => simp [Key.verbose]
  | some text =>
      simp only [Option.some.injEq, exists_eq_left']
      cases Json.parse text with
      | error error => simp [Key.verbose]
      | ok json => cases json <;> simp [Key.verbose]

/-- Each setting is what a storage says about its own key. -/
structure Reflects (settings : Settings) (storage : Storage) : Prop where
  number : ∀ key : NumberKey, key.Reads storage (settings.number key)
  verbose : settings.verbose = true ↔ storage.HoldsBool Key.verbose.name true

theorem reflects_load (storage : Storage) : (load storage).value.Reflects storage :=
  ⟨fun key => key.reads_load storage, verbose_load_iff storage⟩

example :
    (load (.ofTexts [("interpreterTapeSize", " 3e1 "), ("interpreterCellSize", "1000"),
      ("interpreterEofValue", "-1e400"), ("compilerStackSize", "-0"),
      ("developmentVerbose", "true")])).value =
        { tapeSize := 30, limits := { stackSize := 0 }, verbose := true } := by
  decide +kernel

namespace Reflects

variable {settings another : Settings} {storage other : Storage}

theorem suits (reflects : settings.Reflects storage) (key : NumberKey) :
    key.Suits (settings.number key) :=
  (reflects.number key).suits

theorem number_congr (reflects : settings.Reflects storage) (reflectsOther : another.Reflects other)
    (key : NumberKey) (same : storage.item? key.name = other.item? key.name) :
    settings.number key = another.number key :=
  (reflects.number key).unique (reflectsOther.number key) same

theorem verbose_congr (reflects : settings.Reflects storage)
    (reflectsOther : another.Reflects other)
    (same : storage.item? Key.verbose.name = other.item? Key.verbose.name) :
    settings.verbose = another.verbose := by
  rw [Bool.eq_iff_iff, reflects.verbose, reflectsOther.verbose, Storage.HoldsBool,
    Storage.HoldsBool, same]

end Reflects

/-! ## Reading again -/

namespace Store

/-- A store that has been told to read again, each time perhaps from another storage. -/
def reloaded (storage : Storage) (requests : List (Option Storage)) : Store :=
  requests.foldl (fun store request => (store.reload request).value) (ofStorage storage).value

/-- The storage that was given last. -/
def latest (storage : Storage) (requests : List (Option Storage)) : Storage :=
  requests.foldl (fun known request => request.getD known) storage

theorem reloaded_append (storage : Storage) (requests : List (Option Storage))
    (request : Option Storage) :
    reloaded storage (requests ++ [request]) = ((reloaded storage requests).reload request).value :=
  List.foldl_append

theorem latest_append (storage : Storage) (requests : List (Option Storage))
    (request : Option Storage) :
    latest storage (requests ++ [request]) = request.getD (latest storage requests) :=
  List.foldl_append

theorem storage_reloaded (storage : Storage) (requests : List (Option Storage)) :
    (reloaded storage requests).storage = latest storage requests := by
  induction requests using List.reverseRecOn with
  | nil => rfl
  | append_singleton requests request ih =>
      rw [reloaded_append, latest_append, ← ih]
      rfl

/-- Whatever was in force before, what is in force is read from the storage given last. -/
theorem settings_reloaded (storage : Storage) (requests : List (Option Storage)) :
    (reloaded storage requests).settings = (load (latest storage requests)).value := by
  cases requests using List.reverseRecOn with
  | nil => rfl
  | append_singleton requests request =>
      rw [reloaded_append, latest_append, ← storage_reloaded]
      rfl

theorem reflects_reloaded (storage : Storage) (requests : List (Option Storage)) :
    (reloaded storage requests).settings.Reflects (latest storage requests) := by
  rw [settings_reloaded]
  exact reflects_load _

/--
Settings are read from the storage that was given last, each from its own key.  So each
suits its key, and two stores agree on a setting if their storages agree on its text.
-/
theorem settings_of_latest (storage : Storage) (requests : List (Option Storage)) :
    let settings := (reloaded storage requests).settings
    let source := latest storage requests
    settings.Reflects source ∧
      (∀ key : NumberKey, key.Suits (settings.number key)) ∧
      ∀ (otherStorage : Storage) (otherRequests : List (Option Storage)),
        let another := (reloaded otherStorage otherRequests).settings
        let other := latest otherStorage otherRequests
        (∀ key : NumberKey, source.item? key.name = other.item? key.name →
          settings.number key = another.number key) ∧
        (source.item? Key.verbose.name = other.item? Key.verbose.name →
          settings.verbose = another.verbose) := by
  intro settings source
  have reflects : settings.Reflects source := reflects_reloaded storage requests
  refine ⟨reflects, reflects.suits, ?_⟩
  intro otherStorage otherRequests another other
  have reflectsOther : another.Reflects other := reflects_reloaded otherStorage otherRequests
  exact ⟨reflects.number_congr reflectsOther, reflects.verbose_congr reflectsOther⟩

end Store

end Settings

end TapeDebugger
