import Mathlib.Data.List.Range
import TapeDebugger.Proofs.Machine.Frame
import TapeDebugger.Proofs.Number.Order
import TapeDebugger.Proofs.Session.Live

/-!
# The window around the pointer

The window of a whole radius is the neighbourhood of the pointer, clipped to the tape.
Its positions are counted with rounding, which never shows, because no tape is longer
than the integers that need none.
-/

namespace TapeDebugger

open Machine (Runtime Tape)

namespace Session

/-! ## Tapes -/

/-- No tape of a session is longer than the longest tape. -/
def TapeIsMade (session : Session) : Prop :=
  ∀ runtime, session.phase.runtime? = some runtime → runtime.tape.length ≤ Tape.maxLength

namespace TapeIsMade

variable {session next : Session} {operation : Operation} {events : List Event}

theorem of_absent (absent : session.phase.runtime? = none) : session.TapeIsMade := by
  intro runtime present
  rw [absent] at present
  cases present

theorem performs (made : session.TapeIsMade) (performs : session.Performs operation next events) :
    next.TapeIsMade := by
  have ran {program : Program} {runtime : Runtime} (count : Nat)
      (running : session.phase = .running program runtime) :
      (Machine.run program session.eofValue count
        ⟨runtime, session.channel⟩).2.runtime.tape.length ≤ Tape.maxLength := by
    have sizes := Machine.sizes_run ⟨runtime, session.channel⟩ program session.eofValue count
    exact (congrArg Prod.snd sizes).trans_le (made runtime (by rw [running]; rfl))
  cases performs with
  | refused => exact made
  | loadFailed | loaded => exact of_absent rfl
  | notStarted =>
      intro runtime present
      have stopped := session.phase.runtime?_mapRuntime Runtime.stop
      obtain ⟨before, found, rfl⟩ := Option.map_eq_some_iff.mp (stopped.symm.trans present)
      exact made before found
  | started present created =>
      rintro runtime ⟨⟩
      rw [newTape, Tape.create_natCast] at created
      split at created
      · rename_i fits
        cases created
        exact (Tape.length_blank _ _).trans_le fits
      · cases created
  | @paused _ _ _ count _ _ running reached =>
      rintro runtime ⟨⟩
      have kept := ran count running
      rwa [reached] at kept
  | @halted _ _ _ count _ _ _ running reached =>
      rintro runtime ⟨⟩
      have kept := ran count running
      rwa [reached] at kept
  | @jumped _ _ before _ running =>
      rintro runtime ⟨⟩
      exact made before (by rw [running]; rfl)
  | discarded => exact of_absent (Phase.runtime?_withoutRuntime _)
  | reloaded | queued | cleared => exact made

end TapeIsMade

theorem Reachable.tapeIsMade {session : Session} (reachable : session.Reachable) :
    session.TapeIsMade :=
  reachable.induction (fun _ => TapeIsMade.of_absent rfl) fun _ _ _ made performed =>
    made.performs (performs_of_perform performed)

/-! ## Positions -/

variable {length pointer : Nat}

/-- From an index on, the positions are the indices up to the last one, none of them rounded. -/
theorem positionsFrom_natCast {last : Rat} {first budget : Nat}
    (small : last < Number.exactIntegerBound)
    (enough : (last.floor + 1).toNat ≤ first + budget) :
    positionsFrom last budget first =
      (List.range' first ((last.floor + 1).toNat - first)).map Nat.cast := by
  have reaches (index : Nat) : (index : Rat) ≤ last ↔ index < (last.floor + 1).toNat := by
    have floor_iff : ((index : Int) : Rat) ≤ last ↔ (index : Int) ≤ last.floor :=
      Rat.le_floor_iff.symm
    exact floor_iff.trans (by omega)
  induction budget generalizing first with
  | zero =>
      rw [positionsFrom, Nat.sub_eq_zero_of_le (by omega : (last.floor + 1).toNat ≤ first)]
      rfl
  | succ budget ih =>
      rw [positionsFrom]
      split
      · rename_i le
        have inside := (reaches first).mp le
        -- the next index is not above the bound up to which none is rounded
        have exact_next : Number.round ((first : Rat) + 1) = (first + 1 : Nat) := by
          have below : first < Number.exactIntegerBound := by exact_mod_cast le.trans_lt small
          have kept := @Number.round_intCast (first + 1 : Nat) (by omega)
          exact_mod_cast kept
        obtain ⟨count, count_eq⟩ :=
          Nat.exists_eq_succ_of_ne_zero (Nat.sub_ne_zero_of_lt inside)
        rw [exact_next, ih (by omega), count_eq, List.range'_succ, List.map_cons,
          show (last.floor + 1).toNat - (first + 1) = count by omega]
      · rename_i behind
        rw [reaches] at behind
        rw [Nat.sub_eq_zero_of_le (Nat.le_of_not_lt behind)]
        rfl

theorem positionsFrom_of_lt {last first : Rat} (behind : last < first) (budget : Nat) :
    positionsFrom last budget first = [] := by
  cases budget with
  | zero => rfl
  | succ budget => rw [positionsFrom, if_neg (not_le.mpr behind)]

/-- The lower end of a radius, clipped to the tape. -/
def windowFirst (pointer : Nat) (radius : Rat) : Rat :=
  let lower := Number.round (pointer - radius)
  if lower < 0 then 0 else lower

/-- The upper end of a radius, clipped to the tape. -/
def windowLast (length pointer : Nat) (radius : Rat) : Rat :=
  let upper := Number.round (pointer + radius)
  if upper < length - 1 then upper else length - 1

theorem windowPositions_finite (length pointer : Nat) (radius : Rat) :
    windowPositions length pointer (.finite radius) =
      positionsFrom (windowLast length pointer radius) length (windowFirst pointer radius) := rfl

theorem windowLast_le (length pointer : Nat) (radius : Rat) :
    windowLast length pointer radius ≤ length - 1 ∧
      windowLast length pointer radius ≤ Number.round (pointer + radius) := by
  unfold windowLast
  dsimp only
  split_ifs with inside
  · exact ⟨inside.le, le_rfl⟩
  · exact ⟨le_rfl, not_lt.mp inside⟩

theorem round_pointer (small : pointer ≤ Number.exactIntegerBound) :
    Number.round pointer = pointer :=
  @Number.round_intCast pointer small

/-- A radius that is not positive has no position, unless rounding takes its end to the pointer. -/
theorem windowPositions_of_nonpos {radius : Rat} (small : pointer ≤ Number.exactIntegerBound)
    (nonpos : radius ≤ 0) (away : Number.round (pointer - radius) ≠ pointer) :
    windowPositions length pointer (.finite radius) = [] := by
  have lower : (pointer : Rat) < Number.round (pointer - radius) := by
    refine lt_of_le_of_ne ?_ away.symm
    have kept := Number.round_mono (show (pointer : Rat) ≤ pointer - radius by linarith)
    rwa [round_pointer small] at kept
  have upper : Number.round (pointer + radius) ≤ pointer := by
    have kept := Number.round_mono (show pointer + radius ≤ (pointer : Rat) by linarith)
    rwa [round_pointer small] at kept
  have first_eq : windowFirst pointer radius = Number.round (pointer - radius) :=
    if_neg (not_lt.mpr ((Nat.cast_nonneg pointer).trans lower.le))
  rw [windowPositions_finite]
  apply positionsFrom_of_lt
  rw [first_eq]
  exact ((windowLast_le length pointer radius).2.trans upper).trans_lt lower

/-! ### Whole radii -/

theorem windowFirst_natCast (small : pointer ≤ Number.exactIntegerBound) (radius : Nat) :
    windowFirst pointer radius = (pointer - radius : Nat) := by
  unfold windowFirst
  dsimp only
  rcases le_or_gt radius pointer with inside | beyond
  · have difference : (pointer : Rat) - radius = (pointer - radius : Nat) :=
      (Nat.cast_sub inside).symm
    rw [difference, round_pointer (by omega), if_neg (not_lt.mpr (Nat.cast_nonneg _))]
  · have negative : (pointer : Rat) - radius ≤ ((-1 : Int) : Rat) := by
      have : ((pointer + 1 : Nat) : Rat) ≤ radius := Nat.cast_le.mpr beyond
      push_cast at this ⊢
      linarith
    have kept := Number.round_le_intCast (by decide) negative
    rw [if_pos (by push_cast at kept; linarith), Nat.sub_eq_zero_of_le beyond.le, Nat.cast_zero]

theorem windowLast_natCast (inside : pointer < length)
    (short : length ≤ Number.exactIntegerBound) (radius : Nat) :
    windowLast length pointer radius = (min (pointer + radius) (length - 1) : Nat) := by
  have last : (length : Rat) - 1 = (length - 1 : Nat) := by
    rw [Nat.cast_sub (by omega), Nat.cast_one]
  have sum : (pointer : Rat) + radius = (pointer + radius : Nat) := (Nat.cast_add _ _).symm
  unfold windowLast
  dsimp only
  rw [last, sum]
  rcases lt_or_ge (pointer + radius) (length - 1) with within | beyond
  · rw [round_pointer (by omega), if_pos (Nat.cast_lt.mpr within), min_eq_left within.le]
  · have kept : ((length - 1 : Nat) : Rat) ≤ Number.round (pointer + radius : Nat) := by
      rw [← round_pointer (show length - 1 ≤ Number.exactIntegerBound by omega)]
      exact Number.round_mono (Nat.cast_le.mpr beyond)
    rw [if_neg (not_lt.mpr kept), min_eq_right beyond]

/-- The indices within a radius of the pointer that are on the tape, ascending. -/
def windowIndices (length pointer radius : Nat) : List Nat :=
  List.range' (pointer - radius) (min (pointer + radius) (length - 1) + 1 - (pointer - radius))

theorem mem_windowIndices_iff (inside : pointer < length) {radius index : Nat} :
    index ∈ windowIndices length pointer radius ↔
      index < length ∧ |(index : Int) - pointer| ≤ radius := by
  rw [windowIndices, List.mem_range'_1, abs_le]
  omega

theorem windowPositions_natCast (inside : pointer < length)
    (short : length ≤ Number.exactIntegerBound) (radius : Nat) :
    windowPositions length pointer (.finite radius) =
      (windowIndices length pointer radius).map Nat.cast := by
  have last : ((min (pointer + radius) (length - 1) : Nat) : Rat).floor =
      (min (pointer + radius) (length - 1) : Nat) := Rat.floor_intCast _
  rw [windowPositions_finite, windowFirst_natCast (by omega), windowLast_natCast inside short,
    positionsFrom_natCast, last, windowIndices]
  · rfl
  · exact Nat.cast_lt.mpr (by omega)
  · rw [last]
    omega

theorem windowPositions_of_neg (inside : pointer < length)
    (short : length ≤ Number.exactIntegerBound) {radius : Int} (negative : radius < 0) :
    windowPositions length pointer (.finite radius) = [] := by
  have nonpos : (radius : Rat) ≤ 0 := by exact_mod_cast negative.le
  refine windowPositions_of_nonpos (by omega) nonpos (ne_of_gt ?_)
  have above : ((pointer + 1 : Int) : Rat) ≤ pointer - radius := by
    have : (radius : Rat) ≤ ((-1 : Int) : Rat) := Int.cast_le.mpr (by omega)
    push_cast at this ⊢
    linarith
  have kept := Number.intCast_le_round (by omega) above
  push_cast at kept
  linarith

/-! ## Reports -/

variable {program : Program} {runtime : Runtime}

@[simp] theorem index_reportAt (runtime : Runtime) (position : Rat) :
    (reportAt runtime position).index = position := rfl

@[simp] theorem value?_reportAt (runtime : Runtime) (index : Nat) :
    (reportAt runtime index).value? = runtime.tape.cell? index := by
  rw [reportAt, Number.toNat?_natCast]
  rfl

theorem current_reportAt_iff (pointer_eq : runtime.pointer = .index pointer) {index : Nat} :
    (reportAt runtime index).current = true ↔ index = pointer := by
  rw [reportAt, pointer_eq, Machine.Position.value, decide_eq_true_iff, Nat.cast_inj]

theorem isPrintable_natCast_iff {value : Nat} :
    Machine.isPrintable (.finite value) = true ↔ 0x20 ≤ value ∧ value ≤ 0x7e := by
  rw [Machine.isPrintable, decide_eq_true_iff]
  exact_mod_cast Iff.rfl

theorem toNat_ofNat_of_lt {value : Nat} (small : value < 0xd800) :
    (Char.ofNat value).toNat = value := by
  have valid : value.isValidChar := .inl small
  rw [Char.ofNat, dif_pos valid]
  rfl

/-- A report has a character if its value is printable, and then the one of that code. -/
theorem CellReport.char?_eq_some_iff {report : CellReport} {char : Char} :
    report.char? = some char ↔
      ∃ value, report.value? = some value ∧ 0x20 ≤ value ∧ value ≤ 0x7e ∧
        char.toNat = value := by
  rw [CellReport.char?, Option.bind_eq_some_iff]
  refine exists_congr fun value => and_congr_right fun _ => ?_
  constructor
  · intro shown
    split at shown
    · rename_i printable
      cases shown
      obtain ⟨lower, upper⟩ := isPrintable_natCast_iff.mp printable
      exact ⟨lower, upper, toNat_ofNat_of_lt (by omega)⟩
    · cases shown
  · rintro ⟨lower, upper, rfl⟩
    rw [if_pos (isPrintable_natCast_iff.mpr ⟨lower, upper⟩), Char.ofNat_toNat]

/-- A report is true of a tape if it is on one of its cells and tells the value there. -/
def CellReport.IsTrue (tape : Tape) (report : CellReport) : Prop :=
  ∃ index value : Nat, report.index = index ∧ index < tape.length ∧
    tape.cell? index = some value ∧ report.value? = some value

theorem isTrue_reportAt {index : Nat} (inside : index < runtime.tape.length) :
    (reportAt runtime index).IsTrue runtime.tape := by
  obtain ⟨value, found⟩ := Option.isSome_iff_exists.mp
    ((runtime.tape.cell?_isSome_iff index).mpr inside)
  exact ⟨index, value, rfl, inside, found, by rw [value?_reportAt, found]⟩

/-! ## The clipped neighbourhood -/

/--
The reports on the neighbourhood of a pointer: on each cell within the radius one, in
ascending order, with its value, its character if it is printable, and a mark just at the
pointer.
-/
structure IsWindow (runtime : Runtime) (pointer : Nat) (radius : Int)
    (reports : List CellReport) : Prop where
  cells : ∀ position : Rat, (∃ report ∈ reports, report.index = position) ↔
    ∃ index : Nat, position = index ∧ index < runtime.tape.length ∧
      |(index : Int) - pointer| ≤ radius
  ascending : reports.Pairwise fun report later => report.index < later.index
  isTrue : ∀ report ∈ reports, report.IsTrue runtime.tape
  char_iff : ∀ report ∈ reports, ∀ char, report.char? = some char ↔
    ∃ value, report.value? = some value ∧ 0x20 ≤ value ∧ value ≤ 0x7e ∧ char.toNat = value
  current_iff : ∀ report ∈ reports, report.current = true ↔ report.index = pointer
  one_current : 0 ≤ radius → reports.countP CellReport.current = 1
  empty : radius < 0 → reports = []

/-- Reports on the right indices in ascending order make up a window. -/
theorem isWindow_map {radius : Int} {indices : List Nat}
    (pointer_eq : runtime.pointer = .index pointer) (inside : pointer < runtime.tape.length)
    (mem_iff : ∀ index : Nat, index ∈ indices ↔
      index < runtime.tape.length ∧ |(index : Int) - pointer| ≤ radius)
    (ascending : indices.Pairwise (· < ·)) :
    IsWindow runtime pointer radius
      (indices.map fun index : Nat => reportAt runtime index) where
  cells position := by
    simp only [List.mem_map, exists_exists_and_eq_and, index_reportAt, mem_iff]
    exact exists_congr fun index => by rw [and_comm, eq_comm]
  ascending :=
    ascending.map _ fun _ _ less => Nat.cast_lt.mpr less
  isTrue := by
    intro report found
    obtain ⟨index, within, rfl⟩ := List.mem_map.mp found
    exact isTrue_reportAt ((mem_iff index).mp within).1
  char_iff _ _ _ := CellReport.char?_eq_some_iff
  current_iff := by
    intro report found
    obtain ⟨index, -, rfl⟩ := List.mem_map.mp found
    rw [current_reportAt_iff pointer_eq, index_reportAt, Nat.cast_inj]
  one_current := by
    intro nonneg
    have marked : (CellReport.current ∘ fun index : Nat => reportAt runtime index) =
        (· == pointer) := by
      funext index
      rw [Bool.eq_iff_iff, beq_iff_eq]
      exact current_reportAt_iff pointer_eq
    have present : pointer ∈ indices := (mem_iff pointer).mpr ⟨inside, by simpa using nonneg⟩
    have distinct : indices.Nodup := ascending.imp Nat.ne_of_lt
    rw [List.countP_map, marked]
    exact distinct.count.trans (if_pos present)
  empty := by
    intro negative
    have none (index : Nat) : index ∉ indices := fun within =>
      absurd ((abs_nonneg _).trans ((mem_iff index).mp within).2) (not_le.mpr negative)
    rw [List.eq_nil_iff_forall_not_mem.mpr none, List.map_nil]

theorem isWindow_windowPositions (pointer_eq : runtime.pointer = .index pointer)
    (inside : pointer < runtime.tape.length)
    (short : runtime.tape.length ≤ Number.exactIntegerBound) (radius : Int) :
    IsWindow runtime pointer radius
      ((windowPositions runtime.tape.length pointer (.finite radius)).map (reportAt runtime)) := by
  rcases lt_or_ge radius 0 with negative | nonneg
  · rw [windowPositions_of_neg inside short negative]
    have none (index : Nat) : index ∈ ([] : List Nat) ↔
        index < runtime.tape.length ∧ |(index : Int) - pointer| ≤ radius := by
      have distance := abs_nonneg ((index : Int) - pointer)
      exact iff_of_false List.not_mem_nil fun within => by omega
    exact isWindow_map pointer_eq inside none .nil
  · obtain ⟨magnitude, rfl⟩ := Int.eq_ofNat_of_zero_le nonneg
    rw [Int.cast_natCast, windowPositions_natCast inside short, List.map_map]
    exact isWindow_map pointer_eq inside (fun _ => mem_windowIndices_iff inside)
      (List.pairwise_lt_range' 1)

variable {session : Session}

theorem tapeWindow_of_running (executing : session.execution = .ok (program, runtime))
    (pointer_eq : runtime.pointer = .index pointer) (radius? : Option Number) :
    session.tapeWindow radius? =
      .ok ((windowPositions runtime.tape.length pointer
        (radius?.getD (.finite session.settings.windowRadius))).map (reportAt runtime)) := by
  rw [tapeWindow, executing]
  show Except.ok ((windowPositions _ runtime.pointer.value _).map _) = _
  rw [pointer_eq]
  rfl

/-- The pointer of a run is on its tape, and the tape is one that can be made. -/
theorem Reachable.exists_pointer (reachable : session.Reachable)
    (executing : session.execution = .ok (program, runtime)) :
    ∃ pointer, runtime.pointer = .index pointer ∧ pointer < runtime.tape.length ∧
      runtime.tape.length ≤ Number.exactIntegerBound := by
  have running := phase_of_execution executing
  obtain ⟨pointer, pointer_eq, inside⟩ := (reachable.sound.phase.running running).2.pointer
  have made := reachable.tapeIsMade runtime (by rw [running]; rfl)
  exact ⟨pointer, pointer_eq, inside, made.trans (by decide)⟩

/--
While a session runs, the window of an integer radius, and that of the radius that is set,
are the neighbourhood of the pointer clipped to the tape.
-/
theorem window_is_clipped_neighbourhood (reachable : session.Reachable)
    (executing : session.execution = .ok (program, runtime)) :
    ∃ pointer, runtime.pointer = .index pointer ∧ pointer < runtime.tape.length ∧
      (∀ radius : Int, ∃ reports, session.tapeWindow (some (.finite radius)) = .ok reports ∧
        IsWindow runtime pointer radius reports) ∧
      ∃ reports, session.tapeWindow none = .ok reports ∧
        IsWindow runtime pointer session.settings.windowRadius reports := by
  obtain ⟨pointer, pointer_eq, inside, short⟩ := reachable.exists_pointer executing
  refine ⟨pointer, pointer_eq, inside, fun radius => ?_, ?_⟩
  · exact ⟨_, tapeWindow_of_running executing pointer_eq (some (.finite radius)),
      isWindow_windowPositions pointer_eq inside short radius⟩
  · have window := isWindow_windowPositions pointer_eq inside short session.settings.windowRadius
    exact ⟨_, tapeWindow_of_running executing pointer_eq none, window⟩

/-- A run on a tape of three cells, at the last of them, where a letter has been read. -/
def lastCellRun : Runtime where
  pc := .index 3
  pointer := .index 2
  tape := ⟨.bits16, #[0, 0, 65]⟩

/-- A session at that run. -/
def atLastCell : Session where
  settings := { tapeSize := 3 }
  phase :=
    .running
      { instructions :=
          #[⟨.moveRight, 0, ⟨1, 1⟩⟩, ⟨.moveRight, 0, ⟨1, 2⟩⟩, ⟨.input, 0, ⟨1, 3⟩⟩,
            ⟨.finish, 0, ⟨1, 4⟩⟩]
        capacity := 4096 }
      lastCellRun

/-- At the last cell the window of radius 1 has two cells, and the letter is shown. -/
theorem window_is_clipped_at_last_cell :
    atLastCell.Reachable ∧
      ∃ reports, atLastCell.tapeWindow (some (.finite 1)) = .ok reports ∧
        reports = [⟨1, some 0, false⟩, ⟨2, some 65, true⟩] ∧
        reports.map CellReport.char? = [none, some 'A'] ∧ IsWindow lastCellRun 2 1 reports := by
  have reachable : atLastCell.Reachable := by
    refine ⟨.ofTexts [("interpreterTapeSize", "3")],
      [.load ">>," none, .run, .queueInput "A", .next (.finite 3) 0], ?_⟩
    decide +kernel
  obtain ⟨pointer, pointer_eq, -, whole, -⟩ := window_is_clipped_neighbourhood reachable rfl
  cases pointer_eq
  obtain ⟨reports, answered, window⟩ := whole 1
  have answered : atLastCell.tapeWindow (some (.finite 1)) = .ok reports := by
    rwa [Int.cast_one] at answered
  have shown : atLastCell.tapeWindow (some (.finite 1)) =
      .ok [⟨1, some 0, false⟩, ⟨2, some 65, true⟩] := by decide +kernel
  cases answered.symm.trans shown
  exact ⟨reachable, _, shown, rfl, by decide +kernel, window⟩

end Session

end TapeDebugger
