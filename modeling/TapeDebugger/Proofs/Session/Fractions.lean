import TapeDebugger.Proofs.Session.Window

/-!
# Windows that begin between two cells

An index that is asked for is checked, a radius is not.  A window is counted up from its
lower end in steps of 1, so its reports are on cells as long as that end is an index or is
clipped to the first cell.  Only a radius that is no integer can put it elsewhere, and then
the window has reports on positions that are no cells and hold no value.
-/

namespace TapeDebugger

open Machine (Runtime)

namespace Session

variable {session : Session} {program : Program} {runtime : Runtime} {pointer : Nat}

/-- The lower end of a positive radius is a position on the tape, but at no index. -/
def BeginsBetween (pointer : Nat) (radius : Number) : Prop :=
  ∃ value : Rat, radius = .finite value ∧ 0 < value ∧
    0 < Number.round (pointer - value) ∧ (Number.round (pointer - value)).den ≠ 1

theorem exists_natCast_of_den {value : Rat} (nonneg : 0 ≤ value) (whole : value.den = 1) :
    ∃ index : Nat, value = index := by
  obtain ⟨index, index_eq⟩ := Int.eq_ofNat_of_zero_le (Rat.num_nonneg.mpr nonneg)
  refine ⟨index, ?_⟩
  rw [← (Rat.den_eq_one_iff value).mp whole, index_eq, Int.cast_natCast]

theorem den_of_isTrue {position : Rat}
    (isTrue : (reportAt runtime position).IsTrue runtime.tape) : position.den = 1 := by
  obtain ⟨index, -, position_eq, -⟩ := isTrue
  rw [index_reportAt] at position_eq
  rw [position_eq]
  exact Rat.den_natCast index

/-- Positions that begin at an index are those of cells, up to wherever they go on the tape. -/
theorem isTrue_of_natCast (short : runtime.tape.length ≤ Number.exactIntegerBound) {last : Rat}
    (onTape : last ≤ runtime.tape.length - 1) (first : Nat) :
    ∀ report ∈ (positionsFrom last runtime.tape.length first).map (reportAt runtime),
      report.IsTrue runtime.tape := by
  have short : (runtime.tape.length : Rat) ≤ Number.exactIntegerBound := Nat.cast_le.mpr short
  have floor_le : last.floor ≤ (runtime.tape.length : Int) - 1 := by
    have bound := last.floor_le.trans onTape
    exact_mod_cast bound
  intro report found
  rw [positionsFrom_natCast (by linarith) (by omega), List.map_map] at found
  obtain ⟨index, within, rfl⟩ := List.mem_map.mp found
  obtain ⟨lower, upper⟩ := List.mem_range'_1.mp within
  exact isTrue_reportAt (by omega)

theorem isTrue_of_finite (inside : pointer < runtime.tape.length)
    (short : runtime.tape.length ≤ Number.exactIntegerBound) {radius : Rat}
    (fine : ¬ BeginsBetween pointer (.finite radius)) :
    ∀ report ∈ (windowPositions runtime.tape.length pointer (.finite radius)).map
      (reportAt runtime), report.IsTrue runtime.tape := by
  have onTape := (windowLast_le runtime.tape.length pointer radius).1
  rcases lt_or_ge (Number.round (pointer - radius)) 0 with below | nonneg
  · have first_eq : windowFirst pointer radius = (0 : Nat) := by
      rw [Nat.cast_zero]
      exact if_pos below
    rw [windowPositions_finite, first_eq]
    exact isTrue_of_natCast short onTape 0
  · by_cases whole : (Number.round (pointer - radius)).den = 1
    · obtain ⟨first, lower_eq⟩ := exists_natCast_of_den nonneg whole
      have first_eq : windowFirst pointer radius = first :=
        (if_neg (not_lt.mpr nonneg)).trans lower_eq
      rw [windowPositions_finite, first_eq]
      exact isTrue_of_natCast short onTape first
    · -- a lower end between two cells is left for radii that reach no cell at all
      have positive : 0 < Number.round (pointer - radius) := by
        refine lt_of_le_of_ne nonneg fun zero => whole ?_
        rw [← zero]
        rfl
      have nonpos : radius ≤ 0 :=
        not_lt.mp fun reaches => fine ⟨radius, rfl, reaches, positive, whole⟩
      have away : Number.round (pointer - radius) ≠ pointer := by
        intro same
        rw [same] at whole
        exact whole (Rat.den_natCast pointer)
      rw [windowPositions_of_nonpos (by omega) nonpos away]
      exact List.forall_mem_nil _

/-- A window that begins between two cells has a report on the position where it begins. -/
theorem exists_report_of_beginsBetween (inside : pointer < runtime.tape.length)
    (short : runtime.tape.length ≤ Number.exactIntegerBound) {radius : Number}
    (between : BeginsBetween pointer radius) :
    ∃ report ∈ (windowPositions runtime.tape.length pointer radius).map (reportAt runtime),
      ¬ report.IsTrue runtime.tape := by
  obtain ⟨value, rfl, positive, behind, fraction⟩ := between
  refine ⟨_, List.mem_map_of_mem ?_, fun isTrue => fraction (den_of_isTrue isTrue)⟩
  have first_eq : windowFirst pointer value = Number.round (pointer - value) :=
    if_neg (not_lt.mpr behind.le)
  have lower : Number.round (pointer - value) ≤ pointer := by
    have kept := Number.round_mono (show (pointer : Rat) - value ≤ pointer by linarith)
    rwa [round_pointer (by omega)] at kept
  have upper : (pointer : Rat) ≤ Number.round (pointer + value) := by
    have kept := Number.round_mono (show (pointer : Rat) ≤ pointer + value by linarith)
    rwa [round_pointer (by omega)] at kept
  have last : (pointer : Rat) ≤ windowLast runtime.tape.length pointer value := by
    have onTape : ((pointer + 1 : Nat) : Rat) ≤ runtime.tape.length := Nat.cast_le.mpr inside
    push_cast at onTape
    unfold windowLast
    dsimp only
    split_ifs
    · exact upper
    · linarith
  obtain ⟨budget, length_eq⟩ := Nat.exists_eq_succ_of_ne_zero (Nat.ne_zero_of_lt inside)
  rw [windowPositions_finite, first_eq, length_eq, positionsFrom, ← length_eq,
    if_pos (lower.trans last)]
  exact List.mem_cons_self

theorem reports_isTrue_iff (inside : pointer < runtime.tape.length)
    (short : runtime.tape.length ≤ Number.exactIntegerBound) (radius : Number) :
    (∀ report ∈ (windowPositions runtime.tape.length pointer radius).map (reportAt runtime),
      report.IsTrue runtime.tape) ↔ ¬ BeginsBetween pointer radius := by
  constructor
  · intro all between
    obtain ⟨report, found, false⟩ := exists_report_of_beginsBetween inside short between
    exact false (all report found)
  · intro fine
    cases radius with
    | nan => exact List.forall_mem_nil _
    | infinite negative =>
        cases negative with
        | true => exact List.forall_mem_nil _
        | false => exact isTrue_of_natCast short le_rfl 0
    | finite radius => exact isTrue_of_finite inside short fine

theorem isTrue_of_cellAt {index : Number} {report : CellReport}
    (answered : cellAt runtime index = .ok report) : report.IsTrue runtime.tape := by
  simp only [cellAt] at answered
  split at answered
  · split at answered
    · rename_i inside
      cases answered
      exact isTrue_reportAt inside
    · cases answered
  · cases answered

/--
Whatever index is asked for, a report on a cell is true.  So is every report of a window,
whatever its radius, unless that begins the window between two cells: then the report on
the position there is not.
-/
theorem reports_are_true_unless_between (reachable : session.Reachable)
    (executing : session.execution = .ok (program, runtime)) :
    ∃ pointer, runtime.pointer = .index pointer ∧
      (∀ index? report, session.cell index? = .ok report → report.IsTrue runtime.tape) ∧
      ∀ radius?, ∃ reports, session.tapeWindow radius? = .ok reports ∧
        ((∀ report ∈ reports, report.IsTrue runtime.tape) ↔
          ¬ ∃ radius ∈ radius?, BeginsBetween pointer radius) := by
  obtain ⟨pointer, pointer_eq, inside, short⟩ := reachable.exists_pointer executing
  refine ⟨pointer, pointer_eq, fun index? report answered => ?_, fun radius? =>
    ⟨_, tapeWindow_of_running executing pointer_eq radius?, ?_⟩⟩
  · rw [cell, executing] at answered
    exact isTrue_of_cellAt answered
  · cases radius? with
    | none =>
        have window :=
          isWindow_windowPositions pointer_eq inside short session.settings.windowRadius
        exact iff_of_true window.isTrue fun ⟨_, given, _⟩ => nomatch given
    | some radius =>
        rw [reports_isTrue_iff inside short]
        simp

/-- A session at a run on a tape of three cells, at the second of them. -/
def atSecondCell : Session where
  settings := { tapeSize := 3 }
  phase :=
    .running
      { instructions := #[⟨.moveRight, 0, ⟨1, 1⟩⟩, ⟨.finish, 0, ⟨1, 2⟩⟩], capacity := 4096 }
      { pc := .index 1, pointer := .index 1, tape := ⟨.bits16, #[0, 0, 0]⟩ }

theorem reachable_atSecondCell : atSecondCell.Reachable := by
  refine ⟨.ofTexts [("interpreterTapeSize", "3")], [.load ">" none, .run, .next (.finite 1) 0], ?_⟩
  decide +kernel

/-- At the second cell a radius of a half begins between two cells, and one of three halves not. -/
theorem reports_are_true_at_second_cell :
    (∃ reports, atSecondCell.tapeWindow (some (.finite (3 / 2))) = .ok reports ∧
      reports.map CellReport.index = [0, 1, 2] ∧
      ∀ report ∈ reports, report.IsTrue ⟨.bits16, #[0, 0, 0]⟩) ∧
    ∃ reports, atSecondCell.tapeWindow (some (.finite (1 / 2))) = .ok reports ∧
      ¬ ∀ report ∈ reports, report.IsTrue ⟨.bits16, #[0, 0, 0]⟩ := by
  obtain ⟨pointer, pointer_eq, -, windows⟩ :=
    reports_are_true_unless_between reachable_atSecondCell rfl
  cases pointer_eq
  constructor
  · obtain ⟨reports, answered, true_iff⟩ := windows (some (.finite (3 / 2)))
    have shown : atSecondCell.tapeWindow (some (.finite (3 / 2))) =
        .ok [⟨0, some 0, false⟩, ⟨1, some 0, true⟩, ⟨2, some 0, false⟩] := by decide +kernel
    cases answered.symm.trans shown
    refine ⟨_, shown, rfl, true_iff.mpr ?_⟩
    rintro ⟨_, ⟨⟩, value, same, -, behind, -⟩
    cases same
    exact absurd behind (by decide +kernel)
  · obtain ⟨reports, answered, true_iff⟩ := windows (some (.finite (1 / 2)))
    refine ⟨reports, answered, fun all => true_iff.mp all ?_⟩
    exact ⟨_, rfl, 1 / 2, rfl, by decide +kernel, by decide +kernel, by decide +kernel⟩

/-- There are reports on positions between the cells of a tape, and they tell no value. -/
theorem half_radius_reports_no_cell :
    atSecondCell.Reachable ∧ atSecondCell.status = .running ∧
      ∃ reports, atSecondCell.tapeWindow (some (.finite (1 / 2))) = .ok reports ∧
        reports = [⟨1 / 2, none, false⟩, ⟨3 / 2, none, false⟩] ∧
        ∀ report ∈ reports, ¬ report.IsTrue ⟨.bits16, #[0, 0, 0]⟩ := by
  have shown : atSecondCell.tapeWindow (some (.finite (1 / 2))) =
      .ok [⟨1 / 2, none, false⟩, ⟨3 / 2, none, false⟩] := by decide +kernel
  refine ⟨reachable_atSecondCell, rfl, _, shown, rfl, ?_⟩
  rintro report found ⟨index, value, -, -, -, told⟩
  simp only [List.mem_cons, List.not_mem_nil, or_false] at found
  rcases found with rfl | rfl
  · cases told
  · cases told

end Session

end TapeDebugger
