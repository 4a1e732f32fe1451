import TapeDebugger.Proofs.Settings.Loading

/-!
# Warnings about settings

A text under a key is read as JSON, and then its value is checked.  A warning is noted if
the first fails or if the value does not suit, once for each key and in the order of the
keys, and nothing is noted otherwise.  Only what is said about the whole log is not
checked: a value that is no truth value is passed over in silence.
-/

namespace TapeDebugger

namespace Settings

/-! ## The two steps of reading -/

namespace Key

variable {α : Type} {key : Key α} {default : Json} {storage : Storage} {text : String}

/-- The value that is written under a key, or else the default, written as JSON. -/
def fetch (key : Key α) (default : Json) (storage : Storage) : Logged Json :=
  match storage.item? key.name with
  | none => { value := default }
  | some text =>
      match Json.parse text with
      | .error _ => ⟨default, [key.unreadable]⟩
      | .ok json => { value := json }

/-- What a key makes of a value: it is accepted, or the default stands in for it. -/
def judge (key : Key α) (json : Json) : Logged α :=
  match key.accept? json with
  | some accepted => { value := accepted }
  | none => ⟨key.default, [key.unsuitable json]⟩

theorem fetch_of_absent (missing : storage.item? key.name = none) :
    key.fetch default storage = { value := default } := by
  rw [fetch, missing]

theorem fetch_of_unreadable {error : Json.SyntaxError} (held : storage.item? key.name = some text)
    (parsed : Json.parse text = .error error) :
    key.fetch default storage = ⟨default, [key.unreadable]⟩ := by
  simp only [fetch, held, parsed]

theorem fetch_of_readable {json : Json} (held : storage.item? key.name = some text)
    (parsed : Json.parse text = .ok json) : key.fetch default storage = { value := json } := by
  simp only [fetch, held, parsed]

theorem judge_of_accepted {json : Json} {value : α} (accepted : key.accept? json = some value) :
    key.judge json = { value } := by
  rw [judge, accepted]

theorem judge_of_rejected {json : Json} (rejected : key.accept? json = none) :
    key.judge json = ⟨key.default, [key.unsuitable json]⟩ := by
  rw [judge, rejected]

/-- The default passes the check, so no text is warned about in both steps. -/
theorem load_eq_judge_fetch (accepted : key.accept? default = some key.default)
    (storage : Storage) : key.load storage = key.fetch default storage >>= key.judge := by
  show _ = Logged.bind _ _
  cases held : storage.item? key.name with
  | none =>
      rw [fetch_of_absent held, Logged.bind, judge_of_accepted accepted, load, held]
      rfl
  | some text =>
      cases parsed : Json.parse text with
      | error error =>
          rw [fetch_of_unreadable held parsed, Logged.bind, judge_of_accepted accepted]
          simp only [load, held, parsed, List.append_nil]
      | ok json =>
          rw [fetch_of_readable held parsed, Logged.bind]
          simp only [load, held, parsed, List.nil_append]
          rfl

end Key

/-! ## Which texts are warned about -/

/-- All settings: those that are numbers, and whether the whole log is shown. -/
inductive Setting where
  | number (key : NumberKey)
  | verbose
  deriving DecidableEq

namespace Setting

/-- All settings in the order in which they are read. -/
def all : List Setting :=
  [number .tapeSize, number .cellSize, number .eofValue, number .programSize, number .stackSize,
    number .windowRadius, number .continueStepLimit, verbose]

def name : Setting → String
  | number key => key.name
  | verbose => "developmentVerbose"

def default : Setting → Json
  | number key => .number key.default
  | verbose => .bool false

/-- Which values suit a setting. -/
def Suits : Setting → Json → Prop
  | number key, json => ∃ value, json = .number value ∧ key.Suits value
  | verbose, json => ∃ value, json = .bool value

def unreadable (setting : Setting) : Log.Entry :=
  Log.warn s!"Unreadable value for {setting.name}, using {setting.default.text}"

def unsuitable (setting : Setting) (json : Json) : Log.Entry :=
  Log.warn s!"Invalid value for {setting.name}: {json.text}, using {setting.default.text}"

/-- What is noted of the text that a storage holds for a setting. -/
inductive Warns (storage : Storage) (setting : Setting) : List Log.Entry → Prop where
  | absent (missing : storage.item? setting.name = none) : Warns storage setting []
  | unreadable {text : String} {error : Json.SyntaxError}
      (held : storage.item? setting.name = some text) (parsed : Json.parse text = .error error) :
      Warns storage setting [setting.unreadable]
  | suitable {text : String} {json : Json} (held : storage.item? setting.name = some text)
      (parsed : Json.parse text = .ok json) (suits : setting.Suits json) : Warns storage setting []
  | unsuitable {text : String} {json : Json} (held : storage.item? setting.name = some text)
      (parsed : Json.parse text = .ok json) (unsuited : ¬ setting.Suits json)
      (checked : setting ≠ verbose) : Warns storage setting [setting.unsuitable json]
  /-- Any value will do for whether the whole log is shown. -/
  | unchecked {text : String} {json : Json} (held : storage.item? setting.name = some text)
      (parsed : Json.parse text = .ok json) (unsuited : ¬ setting.Suits json)
      (passed : setting = verbose) : Warns storage setting []

variable {storage : Storage} {setting : Setting} {row another : List Log.Entry}

/-- What the text is settles what is noted. -/
theorem Warns.unique (warns : Warns storage setting row)
    (warnsToo : Warns storage setting another) : row = another := by
  cases warns <;> cases warnsToo <;> simp_all

/-- Every text is covered. -/
theorem exists_warns (storage : Storage) (setting : Setting) :
    ∃ row, Warns storage setting row := by
  cases held : storage.item? setting.name with
  | none => exact ⟨_, .absent held⟩
  | some text =>
      cases parsed : Json.parse text with
      | error error => exact ⟨_, .unreadable held parsed⟩
      | ok json =>
          by_cases suits : setting.Suits json
          · exact ⟨_, .suitable held parsed suits⟩
          · by_cases passed : setting = verbose
            · exact ⟨_, .unchecked held parsed suits passed⟩
            · exact ⟨_, .unsuitable held parsed suits passed⟩

end Setting

/-! ## Each key by itself -/

open Setting (Warns)

/-- The key is the one of the setting, and its default passes its own check. -/
structure Key.Stands {α : Type} (key : Key α) (setting : Setting) : Prop where
  name_eq : key.name = setting.name
  defaultText_eq : key.defaultText = setting.default.text
  accept_default : key.accept? setting.default = some key.default
  rejected_iff : ∀ json, key.accept? json = none ↔ ¬ setting.Suits json ∧ setting ≠ .verbose

namespace Key

variable {α : Type} {key : Key α} {view : α → Number} {kind : NumberKey}

theorem Serves.stands (serves : key.Serves kind view) : key.Stands (.number kind) where
  name_eq := serves.name_eq
  defaultText_eq := serves.defaultText_eq
  accept_default := by
    rw [serves.renders.accept_iff, serves.default_eq]
    exact ⟨rfl, kind.suits_default⟩
  rejected_iff json := by
    rw [and_iff_left (by nofun), Option.eq_none_iff_forall_ne_some]
    constructor
    · rintro rejected ⟨number, rfl, suited⟩
      obtain ⟨value, rfl⟩ := serves.renders.covers number suited
      exact rejected value ((serves.renders.accept_iff _ _).mpr ⟨rfl, suited⟩)
    · intro unsuited value accepted
      obtain ⟨rfl, suited⟩ := (serves.renders.accept_iff json value).mp accepted
      exact unsuited ⟨view value, rfl, suited⟩

theorem stands_verbose : verbose.Stands .verbose where
  name_eq := rfl
  defaultText_eq := rfl
  accept_default := rfl
  rejected_iff json := by
    have accepted : verbose.accept? json ≠ none := by cases json <;> nofun
    exact ⟨fun rejected => absurd rejected accepted, fun rejected => absurd rfl rejected.2⟩

/-- What is noted in loading a key is what its text asks for. -/
theorem Stands.warns {setting : Setting} (stands : key.Stands setting) (storage : Storage) :
    Warns storage setting (key.load storage).entries := by
  rw [load_eq_judge_fetch stands.accept_default, Logged.entries_bind]
  have name_eq := stands.name_eq
  cases held : storage.item? key.name with
  | none =>
      rw [fetch_of_absent held, judge_of_accepted stands.accept_default]
      exact .absent (name_eq ▸ held)
  | some text =>
      cases parsed : Json.parse text with
      | error error =>
          rw [fetch_of_unreadable held parsed, judge_of_accepted stands.accept_default]
          have entry_eq : key.unreadable = setting.unreadable := by
            rw [unreadable, name_eq, stands.defaultText_eq]
            rfl
          rw [entry_eq]
          exact .unreadable (name_eq ▸ held) parsed
      | ok json =>
          rw [fetch_of_readable held parsed]
          cases judged : key.accept? json with
          | none =>
              obtain ⟨unsuited, checked⟩ := (stands.rejected_iff json).mp judged
              have entry_eq : key.unsuitable json = setting.unsuitable json := by
                rw [unsuitable, name_eq, stands.defaultText_eq]
                rfl
              rw [judge_of_rejected judged, entry_eq]
              exact .unsuitable (name_eq ▸ held) parsed unsuited checked
          | some value =>
              rw [judge_of_accepted judged]
              by_cases suits : setting.Suits json
              · exact .suitable (name_eq ▸ held) parsed suits
              · refine .unchecked (name_eq ▸ held) parsed suits (by_contra fun checked => ?_)
                rw [(stands.rejected_iff json).mpr ⟨suits, checked⟩] at judged
                cases judged

end Key

/-! ## All settings -/

/-- What is noted in loading all settings, key by key. -/
theorem warns_load (storage : Storage) :
    ∃ rows, List.Forall₂ (Warns storage) Setting.all rows ∧
      (load storage).entries = rows.flatten := by
  refine ⟨[(Key.tapeSize.load storage).entries, (Key.cellSize.load storage).entries,
    (Key.eofValue.load storage).entries, (Key.programSize.load storage).entries,
    (Key.stackSize.load storage).entries, (Key.windowRadius.load storage).entries,
    (Key.continueStepLimit.load storage).entries, (Key.verbose.load storage).entries], ?_, rfl⟩
  exact .cons (Key.serves_tapeSize.stands.warns storage)
    (.cons (Key.serves_cellSize.stands.warns storage)
      (.cons (Key.serves_eofValue.stands.warns storage)
        (.cons (Key.serves_programSize.stands.warns storage)
          (.cons (Key.serves_stackSize.stands.warns storage)
            (.cons (Key.serves_windowRadius.stands.warns storage)
              (.cons (Key.serves_continueStepLimit.stands.warns storage)
                (.cons (Key.stands_verbose.warns storage) .nil)))))))

namespace Store

theorem entries_ofStorage (storage : Storage) :
    (ofStorage storage).entries = (load storage).entries :=
  List.append_nil _

theorem entries_reload (store : Store) (request : Option Storage) :
    (store.reload request).entries = (load (request.getD store.storage)).entries :=
  List.append_nil _

/--
In loading settings, at first or again, what is noted is a row for each of them, in a
fixed order.  The row of a setting is settled by its text, and it is one warning or empty.
-/
theorem warnings_of_settings (storage : Storage) :
    (Setting.all.Nodup ∧ ∀ setting, setting ∈ Setting.all) ∧
    (∀ setting, ∃! row, Warns storage setting row) ∧
    ∃ rows, List.Forall₂ (Warns storage) Setting.all rows ∧
      (ofStorage storage).entries = rows.flatten ∧
      ∀ (store : Store) (request : Option Storage), request.getD store.storage = storage →
        (store.reload request).entries = rows.flatten := by
  obtain ⟨rows, warns, entries_eq⟩ := warns_load storage
  refine ⟨⟨by decide, ?_⟩, fun setting => ?_, rows, warns, ?_, ?_⟩
  · rintro (key | -)
    · cases key <;> decide
    · decide
  · obtain ⟨row, warned⟩ := Setting.exists_warns storage setting
    exact ⟨row, warned, fun another warnedToo => warnedToo.unique warned⟩
  · rw [entries_ofStorage, entries_eq]
  · rintro store request rfl
    rw [entries_reload, entries_eq]

/-- A number where a truth value is asked for does not suit, and nothing is noted of it. -/
theorem unsuitable_verbose_is_passed_over :
    (Storage.ofTexts [("developmentVerbose", "1")]).item? Setting.verbose.name = some "1" ∧
    Json.parse "1" = .ok (.number (.finite 1)) ∧
    ¬ Setting.verbose.Suits (.number (.finite 1)) ∧
    Setting.verbose.unsuitable (.number (.finite 1)) =
      Log.warn "Invalid value for developmentVerbose: 1, using false" ∧
    (ofStorage (.ofTexts [("developmentVerbose", "1")])).entries = [] := by
  refine ⟨by decide +kernel, @Json.parse_text_intCast 1 (by decide), ?_, by decide +kernel,
    by decide +kernel⟩
  rintro ⟨value, same⟩
  cases same

end Store

end Settings

end TapeDebugger
