import TapeDebugger.Proofs.Machine.Range
import TapeDebugger.Proofs.Settings.Loading
import TapeDebugger.Proofs.Session.Effect

/-!
# Starts

A session with a program starts it exactly if there is a tape of the sizes that are
set.  Every cell size that can be loaded has one.  The tape size is checked from below
only, so that a stored size beyond the longest tape is in force, and no run starts.
-/

namespace TapeDebugger

open Machine (CellSize Runtime Tape)

namespace Session

variable {session : Session} {program : Program}

/-! ## Tapes -/

theorem newTape_eq (settings : Settings) :
    newTape settings =
      if settings.tapeSize ≤ Tape.maxLength then .ok (.blank settings.cellSize settings.tapeSize)
      else .error (.invalidLength (.finite settings.tapeSize)) :=
  Tape.create_natCast settings.cellSize settings.tapeSize

/-- The sizes that are set, as numbers, are those of a new tape: no cell size is refused. -/
theorem ofSizes_eq_newTape (settings : Settings) :
    Tape.ofSizes (settings.number .cellSize) (settings.number .tapeSize) = newTape settings := by
  have supported : CellSize.ofNumber? (settings.number .cellSize) = some settings.cellSize :=
    Settings.Key.ofNumber?_eq_some_iff.mpr rfl
  rw [Tape.ofSizes, supported]
  rfl

/-! ## Runs -/

/-- A session with a program starts it on a blank tape if there can be one of the size set. -/
theorem run_of_program (session : Session) {program : Program}
    (present : session.phase.program? = some program)
    (fits : session.settings.tapeSize ≤ Tape.maxLength) :
    let runtime : Runtime := { tape := .blank session.settings.cellSize session.settings.tapeSize }
    session.run.answer = .ok runtime ∧
      session.run.session = { session.retire with phase := .running program runtime } := by
  simp only [run, present, newTape_eq, fits, if_true, and_self]

theorem run_of_too_long {program : Program} (present : session.phase.program? = some program)
    (tooLong : ¬ session.settings.tapeSize ≤ Tape.maxLength) :
    session.run.answer =
        .error (.tape (.invalidLength (.finite session.settings.tapeSize))) ∧
      session.run.session = session.stop := by
  have notCreated : newTape session.settings =
      .error (.invalidLength (.finite session.settings.tapeSize)) := by
    rw [newTape_eq, if_neg tooLong]
  rw [run_of_notCreated present notCreated]
  exact ⟨rfl, rfl⟩

theorem run_of_no_program (absent : session.phase.program? = none) :
    session.run.answer = .error (.user .noProgram) ∧ session.run.session = session := by
  simp only [run, absent, and_self]

/-! ## Sizes that are loaded -/

/-- A stored length is in force even if no tape is as long. -/
theorem tapeSize_of_stored {storage : Settings.Storage} {length : Nat} (positive : 0 < length)
    (holds : storage.HoldsNumber Settings.NumberKey.tapeSize.name (.finite length)) :
    (Settings.load storage).value.tapeSize = length := by
  have suited : Settings.NumberKey.tapeSize.Suits (.finite length) :=
    ⟨length, by omega, by rw [Int.cast_natCast]⟩
  have loaded := (Settings.NumberKey.tapeSize.reads_load storage).stored _ holds suited
  exact Nat.cast_injective (Number.finite.inj loaded)

/-- Without a stored length beyond the longest tape, the one in force has a tape. -/
theorem tapeSize_le_of_stored_le {storage : Settings.Storage}
    (short : ∀ length : Nat,
      storage.HoldsNumber Settings.NumberKey.tapeSize.name (.finite length) →
        length ≤ Tape.maxLength) :
    (Settings.load storage).value.tapeSize ≤ Tape.maxLength := by
  rcases (Settings.NumberKey.tapeSize.reads_load storage).stored_or_default with
    ⟨holds, -⟩ | ⟨-, byDefault⟩
  · exact short _ holds
  · have loaded : ((Settings.load storage).value.tapeSize : Rat) = (65535 : Nat) :=
      Number.finite.inj byDefault
    rw [Nat.cast_injective loaded]
    decide

/--
Under settings that were loaded, a session with a program starts it on a tape of the
sizes in force, unless a length beyond the longest tape is stored: then no run starts.
-/
theorem run_of_loaded_settings {storage : Settings.Storage}
    (loaded : session.settings = (Settings.load storage).value)
    (present : session.phase.program? = some program) :
    Tape.ofSizes (session.settings.number .cellSize) (session.settings.number .tapeSize) =
        newTape session.settings ∧
      ((∀ length : Nat,
          storage.HoldsNumber Settings.NumberKey.tapeSize.name (.finite length) →
            length ≤ Tape.maxLength) →
        let runtime : Runtime :=
          { tape := .blank session.settings.cellSize session.settings.tapeSize }
        session.run.answer = .ok runtime ∧
          session.run.session = { session.retire with phase := .running program runtime }) ∧
      ∀ length : Nat, Tape.maxLength < length →
        storage.HoldsNumber Settings.NumberKey.tapeSize.name (.finite length) →
          session.run.answer = .error (.tape (.invalidLength (.finite length))) ∧
            session.run.session = session.stop := by
  refine ⟨ofSizes_eq_newTape session.settings, ?_, ?_⟩
  · intro short
    refine run_of_program session present ?_
    rw [loaded]
    exact tapeSize_le_of_stored_le short
  · intro length tooLong holds
    have size_eq : session.settings.tapeSize = length := by
      rw [loaded]
      exact tapeSize_of_stored (Nat.zero_lt_of_lt tooLong) holds
    rw [← size_eq] at tooLong ⊢
    exact run_of_too_long present (Nat.not_le_of_lt tooLong)

/-! ## The longest tape -/

/-- A storage in memory with a tape size and nothing else. -/
def sizedStorage (length : Nat) : Settings.Storage :=
  .ofValues [(Text.utf16 Settings.NumberKey.tapeSize.name, .number (.finite length))]

theorem holdsNumber_sizedStorage {length : Nat} {number : Number}
    (small : length ≤ Number.exactIntegerBound) :
    (sizedStorage length).HoldsNumber Settings.NumberKey.tapeSize.name number ↔
      number = .finite length := by
  have stored : (sizedStorage length).item? Settings.NumberKey.tapeSize.name =
      some (Json.number (.finite length)).text := rfl
  have parsed : Json.parse (Json.number (.finite length)).text = .ok (.number (.finite length)) :=
    Json.parse_text_intCast (show (length : Int).natAbs ≤ _ from small)
  rw [Settings.Storage.HoldsNumber, stored]
  simp only [Option.some.injEq, exists_eq_left', ← Json.parse_eq_number_iff, parsed,
    Except.ok.injEq, Json.number.injEq]
  exact eq_comm

/-- A session at a program, under settings with a tape size. -/
def sized (length : Nat) : Session :=
  ((start (sizedStorage length)).load "+" none).session

theorem settings_sized (length : Nat) :
    (sized length).settings = (Settings.load (sizedStorage length)).value := by
  simp only [sized, Session.load]
  split <;> rfl

/-- A run starts on the longest tape, and none does if the tape is to be longer by a cell. -/
theorem run_of_loaded_longest :
    (∃ runtime, (sized 9007199254740991).run.answer = .ok runtime ∧
      runtime.tape.length = (sized 9007199254740991).settings.tapeSize) ∧
    (sized 9007199254740992).run.answer =
      .error (.tape (.invalidLength (.finite (9007199254740992 : Nat)))) := by
  constructor
  · obtain ⟨program, present⟩ : ∃ program,
        (sized 9007199254740991).phase.program? = some program :=
      Option.isSome_iff_exists.mp (by decide +kernel)
    obtain ⟨-, starts, -⟩ := run_of_loaded_settings (settings_sized _) present
    have short (length : Nat) (holds : (sizedStorage 9007199254740991).HoldsNumber
        Settings.NumberKey.tapeSize.name (.finite length)) : length ≤ Tape.maxLength := by
      have same := Number.finite.inj ((holdsNumber_sizedStorage (by decide)).mp holds)
      exact (Nat.cast_injective same).le
    exact ⟨_, (starts short).1, Tape.length_blank _ _⟩
  · obtain ⟨program, present⟩ : ∃ program,
        (sized 9007199254740992).phase.program? = some program :=
      Option.isSome_iff_exists.mp (by decide +kernel)
    obtain ⟨-, -, refused⟩ := run_of_loaded_settings (settings_sized _) present
    exact (refused _ (by decide) ((holdsNumber_sizedStorage (by decide)).mpr rfl)).1

/-- There are settings that are loaded without a warning, and no run starts under them. -/
theorem accepted_size_without_tape :
    (Settings.load (sizedStorage 9007199254740992)).entries = [] ∧
      (sized 9007199254740992).Reachable ∧ (sized 9007199254740992).phase.program?.isSome ∧
      (sized 9007199254740992).run.answer =
        .error (.tape (.invalidLength (.finite 9007199254740992))) := by
  refine ⟨by decide +kernel, ⟨sizedStorage 9007199254740992, [.load "+" none], rfl⟩, ?_⟩
  decide +kernel

end Session

end TapeDebugger
