import TapeDebugger.Proofs.Program.ScanInvariant

/-!
# Which sources are programs

A source that is no program is refused at its first operator with something
wrong, or else at the last opening bracket without a partner.  All other sources
are programs: those without operators, and those that leave a slot for the end,
whose brackets balance and whose loops are nested no deeper than the stack.
-/

namespace TapeDebugger

namespace Program

open Brackets (depth level Balanced Pair Pending)

/-! ## The parts of the rule -/

/-- The last opening bracket of a row that has no partner. -/
structure LastUnmatched (row : List Operator) (index : Nat) : Prop where
  opens : row[index]? = some .loopStart
  unmatched : ∀ last, ¬ Pair row index last
  after : ∀ later, index < later → row[later]? = some .loopStart → ∃ last, Pair row later last

/-- Every loop of a row is nested at most that deep, itself counted. -/
def NestedWithin (bound : Int) (row : List Operator) : Prop :=
  ∀ index, row[index]? = some .loopStart → level row (index + 1) ≤ bound

/-- With room for one loop at all, nesting is bounded exactly if all levels are. -/
theorem nestedWithin_iff {bound : Int} (h : 0 ≤ bound) (row : List Operator) :
    NestedWithin bound row ↔ ∀ index, level row index ≤ bound := by
  refine ⟨fun nested index => ?_, fun levels index _ => levels (index + 1)⟩
  induction index with
  | zero =>
      rw [Brackets.level_zero]
      exact h
  | succ index ih =>
      cases found : row[index]? with
      | none =>
          have outside := List.getElem?_eq_none_iff.mp found
          rw [Brackets.level_of_length_le outside] at ih
          rw [Brackets.level_of_length_le (by omega)]
          exact ih
      | some operator =>
          by_cases start : operator = .loopStart
          · exact nested index (start ▸ found)
          · have changed := Brackets.level_succ found
            have lowers : depth [operator] ≤ 0 := by
              cases operator <;> first | decide | contradiction
            omega

/-- The top of the stack is the last opening bracket without a partner. -/
theorem lastUnmatched_of_pending {row : List Operator} {stack : List Nat} {top : Nat}
    (pending : Pending row (stack ++ [top])) : LastUnmatched row top := by
  refine ⟨pending.top_waits.opens, pending.top_waits.not_pair, ?_⟩
  intro later lt opens
  rcases pending.start_cases later opens with waits | paired
  · have ascending := List.pairwise_append.mp pending.ascending
    rcases List.mem_append.mp waits with below | last
    · have ordered := ascending.2.2 later below top (List.mem_singleton_self top)
      omega
    · rw [List.mem_singleton.mp last] at lt
      omega
  · exact paired

/-! ## Refused sources -/

/-- A source with something wrong is refused at its first offence. -/
theorem compile_of_firstOffence {limits : Limits} {source : String} {index : Nat} {fault : Fault}
    (first : FirstOffence limits (operators source.toList) index fault) :
    ∃ mark, (marks source.toList)[index]? = some mark ∧
      compile limits source = .error ⟨fault, mark.location⟩ := by
  rcases Scan.run_cases limits source.toList with
    ⟨_, _, _, fine⟩ | ⟨index', fault', mark, another, marked, ran⟩
  · have wrong := first.wrong
    rw [fine index] at wrong
    cases wrong
  · obtain ⟨rfl, rfl⟩ := first.unique another
    refine ⟨mark, marked, ?_⟩
    rw [compile, ran]
    rfl

theorem run_of_fine {limits : Limits} {chars : List Char}
    (fine : ∀ index, index < (operators chars).length →
      offenceAt? limits (operators chars) index = none) :
    ∃ scan, Scan.run limits {} chars = .ok scan ∧ scan.Sound chars := by
  rcases Scan.run_cases limits chars with ⟨scan, ran, sound, _⟩ | ⟨index, _, _, first, _, _⟩
  · exact ⟨scan, ran, sound⟩
  · have wrong := first.wrong
    rw [fine index first.index_lt] at wrong
    cases wrong

/-- A source that only leaves loops open is refused at the last of their brackets. -/
theorem compile_of_unclosed {limits : Limits} {source : String}
    (fine : ∀ index, index < (operators source.toList).length →
      offenceAt? limits (operators source.toList) index = none)
    (unclosed : 0 < depth (operators source.toList)) :
    ∃ index mark, LastUnmatched (operators source.toList) index ∧
      (marks source.toList)[index]? = some mark ∧
      compile limits source = .error ⟨.unmatchedOpen, mark.location⟩ := by
  obtain ⟨scan, ran, sound⟩ := run_of_fine fine
  have height := sound.opens_size_eq
  obtain ⟨top, found⟩ : ∃ top, scan.opens.back? = some top := by
    rw [Array.back?_eq_getElem?]
    exact ⟨_, Array.getElem?_eq_getElem (by omega)⟩
  obtain ⟨below, split⟩ := Array.back?_eq_some_iff.mp found
  have pending := sound.pending
  rw [split, Array.toList_push] at pending
  have unmatched := lastUnmatched_of_pending pending
  have bound := pending.top_waits.index_lt
  rw [← sound.size_eq] at bound
  refine ⟨top, scan.instructions[top].mark, unmatched, ?_, ?_⟩
  · rw [← sound.marks_eq]
    simp [bound]
  · rw [compile, ran]
    change scan.complete limits = _
    simp [Scan.complete, found, bound, Instruction.mark]

/-- A source with nothing wrong that leaves no loop open is a program. -/
theorem compile_of_closed {limits : Limits} {source : String}
    (fine : ∀ index, index < (operators source.toList).length →
      offenceAt? limits (operators source.toList) index = none)
    (closed : ¬ 0 < depth (operators source.toList)) :
    ∃ program, compile limits source = .ok program := by
  obtain ⟨scan, ran, sound⟩ := run_of_fine fine
  have height := sound.opens_size_eq
  have empty : scan.opens.back? = none := by
    rw [Array.back?_eq_none_iff]
    exact Array.eq_empty_of_size_eq_zero (by omega)
  rw [compile, ran]
  change ∃ program, scan.complete limits = .ok program
  rw [Scan.complete, empty]
  exact ⟨_, rfl⟩

/-! ## Accepted sources -/

theorem count_of_compile {limits : Limits} {source : String} {program : Program}
    (h : compile limits source = .ok program) :
    program.count = (operators source.toList).length + 1 ∧
      program.capacity = limits.programSize := by
  obtain ⟨scan, ran, _, rfl⟩ := compile_eq_ok h
  have size_eq := (Scan.sound_of_run ran).1.size_eq
  exact ⟨by simp [count, size_eq], rfl⟩

/-- Nothing is wrong with an operator that has room, is not nested too deep and closes a loop. -/
theorem offenceAt?_eq_none_of_fits {limits : Limits} {row : List Operator}
    (fits : (row.length : Int) ≤ limits.programSize - 1) (balanced : Balanced row)
    (nested : NestedWithin limits.stackSize row) (index : Nat) :
    offenceAt? limits row index = none := by
  cases found : row[index]? with
  | none => rw [offenceAt?, found, Option.bind_none]
  | some operator =>
      have bound := (List.getElem?_eq_some_iff.mp found).1
      have changed := Brackets.level_succ found
      have length : (row.take index).length = index := by
        rw [List.length_take]
        omega
      rw [offenceAt?, found, Option.bind_some, offence?, length, ← level]
      rw [if_neg (by omega), if_neg, if_neg]
      · rintro ⟨rfl, flat⟩
        have above := balanced.nonneg (index + 1)
        rw [Brackets.depth_loopEnd] at changed
        omega
      · rintro ⟨rfl, full⟩
        have within := nested index found
        rw [Brackets.depth_loopStart] at changed
        omega

/-- If nothing is wrong with a row, it has room in the program and is not nested too deep. -/
theorem fits_of_offenceAt?_eq_none {limits : Limits} {row : List Operator} (nonempty : row ≠ [])
    (fine : ∀ index, offenceAt? limits row index = none) :
    (row.length : Int) ≤ limits.programSize - 1 ∧ NestedWithin limits.stackSize row := by
  have positive := List.length_pos_iff.mpr nonempty
  constructor
  · have last := fine (row.length - 1)
    have inside : row.length - 1 < row.length := by omega
    have found := List.getElem?_eq_getElem inside
    rw [offenceAt?, found, Option.bind_some, offence?] at last
    split at last
    · cases last
    · rename_i room
      rw [List.length_take] at room
      omega
  · intro index found
    have here := fine index
    rw [offenceAt?, found, Option.bind_some, offence?] at here
    split at here
    · cases here
    split at here
    · cases here
    rename_i shallow
    have changed := Brackets.level_succ found
    rw [Brackets.depth_loopStart] at changed
    have room : ¬ limits.stackSize ≤ level row index := fun full => shallow ⟨rfl, full⟩
    omega

/-- The sources that are programs. -/
theorem compile_isOk_iff (limits : Limits) (source : String) :
    (∃ program, compile limits source = .ok program) ↔
      operators source.toList = [] ∨
        ((operators source.toList).length : Int) ≤ limits.programSize - 1 ∧
          Balanced (operators source.toList) ∧
          NestedWithin limits.stackSize (operators source.toList) := by
  constructor
  · rintro ⟨program, compiled⟩
    obtain ⟨fine, balanced⟩ := fine_of_compile compiled
    by_cases empty : operators source.toList = []
    · exact Or.inl empty
    · obtain ⟨fits, nested⟩ := fits_of_offenceAt?_eq_none empty fine
      exact Or.inr ⟨fits, balanced, nested⟩
  · rintro (empty | ⟨fits, balanced, nested⟩)
    · apply compile_of_closed
      · rw [empty]
        intro index bound
        cases bound
      · rw [empty]
        decide
    · apply compile_of_closed
      · intro index _
        exact offenceAt?_eq_none_of_fits fits balanced nested index
      · rw [balanced.closed]
        decide

/-! ## Wider limits -/

/-- An operator that is taken in is taken in under wider limits, to the same effect. -/
theorem Scan.step_of_wider {limits wider : Limits} {scan next : Scan} {char : Char}
    (size : limits.programSize ≤ wider.programSize) (stack : limits.stackSize ≤ wider.stackSize)
    (h : scan.step limits char = .ok next) : scan.step wider char = .ok next := by
  unfold Scan.step at h ⊢
  cases kind : Operator.ofChar? char with
  | none =>
      rw [kind] at h
      exact h
  | some operator =>
      rw [kind] at h
      simp only [Scan.place] at h ⊢
      split at h
      · cases h
      rw [if_neg (by omega)]
      cases operator with
      | loopStart =>
          simp only [Scan.openLoop] at h ⊢
          split at h
          · cases h
          rw [if_neg (by omega)]
          exact h
      | _ => exact h

theorem Scan.run_of_wider {limits wider : Limits} {scan next : Scan} {chars : List Char}
    (size : limits.programSize ≤ wider.programSize) (stack : limits.stackSize ≤ wider.stackSize)
    (h : scan.run limits chars = .ok next) : scan.run wider chars = .ok next := by
  induction chars generalizing scan with
  | nil => exact h
  | cons char rest ih =>
      simp only [Scan.run, List.foldlM_cons] at h ⊢
      cases stepped : scan.step limits char with
      | error error =>
          rw [stepped] at h
          cases h
      | ok middle =>
          rw [stepped] at h
          rw [Scan.step_of_wider size stack stepped]
          exact ih h

/-- A program stays one under wider limits, with the same instructions. -/
theorem compile_of_wider {limits wider : Limits} {source : String} {program : Program}
    (size : limits.programSize ≤ wider.programSize) (stack : limits.stackSize ≤ wider.stackSize)
    (h : compile limits source = .ok program) :
    compile wider source = .ok { program with capacity := wider.programSize } := by
  obtain ⟨scan, ran, empty, rfl⟩ := compile_eq_ok h
  rw [compile, Scan.run_of_wider size stack ran]
  change scan.complete wider = _
  simp [Scan.complete, empty]

/-! ## The rule -/

/--
Which sources compile, and what is reported of the others.  A source is refused
at the first operator with something wrong; if there is none but a loop stays
open, at the last opening bracket without a partner; and else it is a program.
So programs are the sources without operators and those that fit, balance and
are not nested too deep.  Wider limits keep a program and its instructions, and a
program has as many instructions as operators and one more, within its capacity.
-/
theorem compile_reports_first_offence (limits : Limits) (source : String) :
    (∀ index fault, FirstOffence limits (operators source.toList) index fault →
      ∃ mark, (marks source.toList)[index]? = some mark ∧
        compile limits source = .error ⟨fault, mark.location⟩) ∧
    ((∀ index, index < (operators source.toList).length →
        offenceAt? limits (operators source.toList) index = none) →
      (0 < depth (operators source.toList) →
        ∃ index mark, LastUnmatched (operators source.toList) index ∧
          (marks source.toList)[index]? = some mark ∧
          compile limits source = .error ⟨.unmatchedOpen, mark.location⟩) ∧
      (¬ 0 < depth (operators source.toList) →
        ∃ program, compile limits source = .ok program)) ∧
    ((∃ program, compile limits source = .ok program) ↔
      operators source.toList = [] ∨
        ((operators source.toList).length : Int) ≤ limits.programSize - 1 ∧
          Balanced (operators source.toList) ∧
          NestedWithin limits.stackSize (operators source.toList)) ∧
    (∀ program wider, compile limits source = .ok program →
      limits.programSize ≤ wider.programSize → limits.stackSize ≤ wider.stackSize →
      ∃ widened, compile wider source = .ok widened ∧
        widened.instructions = program.instructions) ∧
    (∀ program, 1 ≤ limits.programSize → compile limits source = .ok program →
      program.count = (operators source.toList).length + 1 ∧
        (program.count : Int) ≤ program.capacity ∧ program.capacity = limits.programSize) := by
  refine ⟨?_, ?_, compile_isOk_iff limits source, ?_, ?_⟩
  · intro index fault first
    exact compile_of_firstOffence first
  · intro fine
    exact ⟨compile_of_unclosed fine, compile_of_closed fine⟩
  · intro program wider compiled size stack
    exact ⟨_, compile_of_wider size stack compiled, rfl⟩
  · intro program positive compiled
    obtain ⟨count, capacity⟩ := count_of_compile compiled
    refine ⟨count, ?_, capacity⟩
    rw [count, capacity]
    rcases (compile_isOk_iff limits source).mp ⟨program, compiled⟩ with empty | ⟨fits, _⟩
    · rw [empty, List.length_nil]
      omega
    · omega

/-- At the limits: a loop one too deep, a loop left open, and a program that just fits. -/
theorem compile_at_the_limits :
    (FirstOffence ⟨5, 1⟩ (operators "a[\n[]]".toList) 1 (.tooManyOpens 1) ∧
      ∃ mark, (marks "a[\n[]]".toList)[1]? = some mark ∧
        compile ⟨5, 1⟩ "a[\n[]]" = .error ⟨.tooManyOpens 1, mark.location⟩) ∧
    (∃ index mark, LastUnmatched (operators "[[]+".toList) index ∧
      (marks "[[]+".toList)[index]? = some mark ∧
      compile ⟨5, 2⟩ "[[]+" = .error ⟨.unmatchedOpen, mark.location⟩) ∧
    ∃ program, compile ⟨3, 1⟩ "[]" = .ok program ∧ program.count = 3 ∧
      ∃ widened, compile ⟨4, 2⟩ "[]" = .ok widened ∧
        widened.instructions = program.instructions := by
  have first : FirstOffence ⟨5, 1⟩ (operators "a[\n[]]".toList) 1 (.tooManyOpens 1) :=
    ⟨by decide, by decide⟩
  obtain ⟨_, afterFine, _⟩ := compile_reports_first_offence ⟨5, 2⟩ "[[]+"
  obtain ⟨_, closed, _, wider, size⟩ := compile_reports_first_offence ⟨3, 1⟩ "[]"
  obtain ⟨program, compiled⟩ := (closed (by decide)).2 (by decide)
  exact ⟨⟨first, (compile_reports_first_offence ⟨5, 1⟩ "a[\n[]]").1 1 _ first⟩,
    (afterFine (by decide)).1 (by decide), program, compiled, (size program (by decide) compiled).1,
    wider program ⟨4, 2⟩ compiled (by decide) (by decide)⟩

end Program

end TapeDebugger
