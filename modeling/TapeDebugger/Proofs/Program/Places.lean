import TapeDebugger.Proofs.Program.FirstOffence

/-!
# Where the instructions of a program stand

The instructions of a program carry the places of the operators of its source, in
their order, and its end carries the place behind the last character.  So places
ascend along a program.  The place in an error is that of the operator it blames.
-/

namespace TapeDebugger

namespace Program

/-! ## Places in lines -/

/--
The place behind some characters, line by line: those above it end in a line feed,
and those to its left hold none.
-/
structure StandsBehind (before : List Char) (location : Location) : Prop where
  line : location.line = 1 + before.count '\n'
  column : ∃ above left, before = above ++ left ∧ (above = [] ∨ above.getLast? = some '\n') ∧
    '\n' ∉ left ∧ location.column = 1 + left.length

/-- Whatever stands behind some characters stands at their counted place. -/
theorem StandsBehind.eq_placeBehind {before : List Char} {location : Location}
    (stands : StandsBehind before location) : location = placeBehind before := by
  obtain ⟨above, left, split, ends, unbroken, column⟩ := stands.column
  have left_eq : before.rtakeWhile (· ≠ '\n') = left := by
    have all : ∀ char ∈ left.reverse, decide (char ≠ '\n') = true := by
      intro char mem
      exact decide_eq_true (ne_of_mem_of_not_mem (List.mem_reverse.mp mem) unbroken)
    rw [List.rtakeWhile, split, List.reverse_append, List.takeWhile_append_of_pos all]
    rcases ends with rfl | last
    · simp
    · obtain ⟨lines, rfl⟩ := List.getLast?_eq_some_iff.mp last
      simp
  obtain ⟨line, col⟩ := location
  rw [placeBehind, left_eq, ← stands.line.trans (Nat.add_comm _ _), Nat.add_comm, ← column]

/-- Every place is found by its lines. -/
theorem standsBehind_placeBehind (before : List Char) :
    StandsBehind before (placeBehind before) where
  line := Nat.add_comm _ _
  column := by
    refine ⟨before.rdropWhile (· ≠ '\n'), before.rtakeWhile (· ≠ '\n'),
      List.rdropWhile_append_rtakeWhile.symm, ?_, ?_, Nat.add_comm _ _⟩
    · by_cases empty : before.rdropWhile (· ≠ '\n') = []
      · exact Or.inl empty
      · have last := List.rdropWhile_last_not (· ≠ '\n') before empty
        refine Or.inr ((List.getLast?_eq_some_getLast empty).trans (congrArg some ?_))
        simpa using last
    · intro mem
      simpa using List.mem_rtakeWhile_imp mem

theorem standsBehind_iff (before : List Char) (location : Location) :
    StandsBehind before location ↔ location = placeBehind before :=
  ⟨StandsBehind.eq_placeBehind, fun same => same ▸ standsBehind_placeBehind before⟩

/-! ## The order of places -/

/-- A place is on an earlier line than another one, or on the same line and further left. -/
def Location.Precedes (first second : Location) : Prop :=
  first.line < second.line ∨ first.line = second.line ∧ first.column < second.column

theorem Location.Precedes.trans {first second third : Location} (left : first.Precedes second)
    (right : second.Precedes third) : first.Precedes third := by
  unfold Precedes at left right ⊢
  omega

theorem precedes_concat (before : List Char) (char : Char) :
    (placeBehind before).Precedes (placeBehind (before ++ [char])) := by
  by_cases feed : char = '\n'
  · subst feed
    rw [placeBehind_lineFeed]
    exact Or.inl (Nat.lt_succ_self _)
  · rw [placeBehind_concat before feed]
    exact Or.inr ⟨rfl, Nat.lt_succ_self _⟩

/-- The places of the operators of a source ascend, and so on to that behind the source. -/
theorem ascending_marks (chars : List Char) :
    ((marks chars).map Mark.location ++ [placeBehind chars]).Pairwise Location.Precedes := by
  induction chars using List.reverseRecOn with
  | nil => exact List.pairwise_singleton _ _
  | append_singleton chars char ih =>
      obtain ⟨ascending, -, before⟩ := List.pairwise_append.mp ih
      have later := precedes_concat chars char
      have beforeLater : ∀ location ∈ (marks chars).map Mark.location,
          location.Precedes (placeBehind (chars ++ [char])) := fun location mem =>
        (before location mem _ (List.mem_singleton_self _)).trans later
      cases kind : Operator.ofChar? char with
      | none =>
          rw [marks_comment chars kind, List.pairwise_append]
          refine ⟨ascending, List.pairwise_singleton _ _, ?_⟩
          simpa using beforeLater
      | some operator =>
          rw [marks_concat chars kind, List.map_append, List.pairwise_append]
          refine ⟨ih, List.pairwise_singleton _ _, ?_⟩
          intro location mem behind last
          rw [List.mem_singleton.mp last]
          rcases List.mem_append.mp mem with inside | here
          · exact beforeLater location inside
          · rw [List.mem_singleton.mp here]
            exact later

/-! ## The operators of a source by their characters -/

/-- An operator of a source, with as many operators before it as its index says. -/
def OperatorAt (chars : List Char) (index : Nat) (mark : Mark) : Prop :=
  ∃ before char after, chars = before ++ char :: after ∧
    (operators before).length = index ∧ Operator.ofChar? char = some mark.operator ∧
    StandsBehind before mark.location

theorem OperatorAt.concat {chars : List Char} {index : Nat} {mark : Mark}
    (operatorAt : OperatorAt chars index mark) (char : Char) :
    OperatorAt (chars ++ [char]) index mark := by
  obtain ⟨before, found, after, rfl, rest⟩ := operatorAt
  exact ⟨before, found, after ++ [char], by simp, rest⟩

/-- The marks of a source tell its operators and their places. -/
theorem operatorAt_iff (chars : List Char) (index : Nat) (mark : Mark) :
    OperatorAt chars index mark ↔ (marks chars)[index]? = some mark := by
  constructor
  · rintro ⟨before, char, after, rfl, rfl, kind, stands⟩
    have row : marks (before ++ char :: after) =
        marks before ++ (mark :: marksBehind (before ++ [char]) after) := by
      rw [marks, marksBehind_append, List.nil_append, marksBehind, kind, Option.map_some,
        ← stands.eq_placeBehind]
      rfl
    rw [row, ← length_marks, List.getElem?_append_right (Nat.le_refl _), Nat.sub_self]
    rfl
  · induction chars using List.reverseRecOn with
    | nil =>
        intro found
        simp [marks, marksBehind] at found
    | append_singleton chars char ih =>
        intro found
        cases kind : Operator.ofChar? char with
        | none =>
            rw [marks_comment chars kind] at found
            exact (ih found).concat char
        | some operator =>
            rw [marks_concat chars kind] at found
            rcases Nat.lt_or_ge index (marks chars).length with inside | behind
            · rw [List.getElem?_append_left inside] at found
              exact (ih found).concat char
            · -- the last character is the operator itself
              have bound := (List.getElem?_eq_some_iff.mp found).1
              rw [List.length_append, List.length_singleton] at bound
              have same : index = (marks chars).length := by omega
              subst same
              rw [List.getElem?_concat_length] at found
              cases found
              exact ⟨chars, char, [], rfl, (length_marks chars).symm, kind,
                standsBehind_placeBehind chars⟩

/-! ## Programs -/

/-- The marks of a program are those of its source, and its end is behind them all. -/
theorem marks_of_compile {limits : Limits} {source : String} {program : Program}
    (h : compile limits source = .ok program) :
    program.instructions.toList.map Instruction.mark =
      marks source.toList ++ [⟨.finish, placeBehind source.toList⟩] := by
  obtain ⟨scan, ran, _, rfl⟩ := compile_eq_ok h
  have sound := (Scan.sound_of_run ran).1
  rw [Array.toList_push, List.map_append, sound.marks_eq, sound.place_eq]
  rfl

theorem getElem?_mark_of_compile {limits : Limits} {source : String} {program : Program}
    (h : compile limits source = .ok program) (index : Nat) :
    program.instructions[index]?.map Instruction.mark =
      (marks source.toList ++ [⟨.finish, placeBehind source.toList⟩])[index]? := by
  rw [← marks_of_compile h, List.getElem?_map, Array.getElem?_toList]

/-- The places of the instructions of a program, its end included, ascend. -/
theorem precedes_of_compile {limits : Limits} {source : String} {program : Program}
    (h : compile limits source = .ok program) {first second : Nat}
    {instruction another : Instruction} (lt : first < second)
    (found : program.instructions[first]? = some instruction)
    (found' : program.instructions[second]? = some another) :
    instruction.location.Precedes another.location := by
  have places : program.instructions.toList.map Instruction.location =
      (marks source.toList).map Mark.location ++ [placeBehind source.toList] := by
    have column := congrArg (List.map Mark.location) (marks_of_compile h)
    rw [List.map_map, List.map_append] at column
    exact column
  have ascending := ascending_marks source.toList
  rw [← places, List.pairwise_iff_getElem] at ascending
  obtain ⟨bound, rfl⟩ := Array.getElem?_eq_some_iff.mp found
  obtain ⟨bound', rfl⟩ := Array.getElem?_eq_some_iff.mp found'
  have ordered := ascending first second (by simpa using bound) (by simpa using bound') lt
  simpa using ordered

/-! ## Errors -/

/--
What a source is refused for: its first operator with something wrong, or if there is
none, the last opening bracket without a partner.
-/
inductive Blames (limits : Limits) (row : List Operator) : Nat → Fault → Prop
  | offence {index : Nat} {fault : Fault} (first : FirstOffence limits row index fault) :
      Blames limits row index fault
  | unclosed {index : Nat} (fine : ∀ index, offenceAt? limits row index = none)
      (last : LastUnmatched row index) : Blames limits row index .unmatchedOpen

theorem Blames.fault_unique {limits : Limits} {row : List Operator} {index index' : Nat}
    {fault fault' : Fault} (blames : Blames limits row index fault)
    (another : Blames limits row index' fault') : fault = fault' := by
  cases blames with
  | offence first =>
      cases another with
      | offence first' => exact (first.unique first').2
      | unclosed fine _ =>
          have wrong := first.wrong
          rw [fine index] at wrong
          cases wrong
  | unclosed fine _ =>
      cases another with
      | offence first' =>
          have wrong := first'.wrong
          rw [fine index'] at wrong
          cases wrong
      | unclosed _ _ => rfl

/-- An error tells the place of the operator it blames. -/
theorem blames_of_compile {limits : Limits} {source : String} {error : CompileError}
    (h : compile limits source = .error error) :
    ∃ index mark, Blames limits (operators source.toList) index error.fault ∧
      (marks source.toList)[index]? = some mark ∧ error.location = mark.location := by
  rcases Scan.run_cases limits source.toList with
    ⟨_, _, _, fine⟩ | ⟨index, fault, mark, first, marked, ran⟩
  · by_cases unclosed : 0 < Brackets.depth (operators source.toList)
    · obtain ⟨index, mark, last, marked, refused⟩ :=
        compile_of_unclosed (fun index _ => fine index) unclosed
      cases h.symm.trans refused
      exact ⟨index, mark, .unclosed fine last, marked, rfl⟩
    · obtain ⟨program, compiled⟩ := compile_of_closed (fun index _ => fine index) unclosed
      cases h.symm.trans compiled
  · have refused : compile limits source = .error ⟨fault, mark.location⟩ := by
      rw [compile, ran]
      rfl
    cases h.symm.trans refused
    exact ⟨index, mark, .offence first, marked, rfl⟩

/-! ## The rule -/

/--
Places are exact.  The instructions of a program but its end are the operators of its
source in their order, each at the place of its character: its line is counted by the
line feeds before it, its column by the characters since the last of them.  The end
stands behind the last character, and places ascend along the program.  An error tells
the place, counted in the same way, of the operator it blames.
-/
theorem places_are_exact (limits : Limits) (source : String) :
    (∀ program, compile limits source = .ok program →
      (∀ index mark, OperatorAt source.toList index mark ↔
        index + 1 < program.count ∧
          program.instructions[index]?.map Instruction.mark = some mark) ∧
      (∃ location, program.instructions.back? = some ⟨.finish, 0, location⟩ ∧
        StandsBehind source.toList location) ∧
      ∀ (first second : Nat) (instruction another : Instruction), first < second →
        program.instructions[first]? = some instruction →
        program.instructions[second]? = some another →
        instruction.location.Precedes another.location) ∧
    ∀ error, compile limits source = .error error →
      ∃ index mark, OperatorAt source.toList index mark ∧
        Blames limits (operators source.toList) index error.fault ∧
        error.location = mark.location := by
  constructor
  · intro program compiled
    refine ⟨?_, ?_, fun first second instruction another => precedes_of_compile compiled⟩
    · intro index mark
      rw [operatorAt_iff, getElem?_mark_of_compile compiled, (count_of_compile compiled).1,
        ← length_marks, Nat.add_lt_add_iff_right]
      constructor
      · intro found
        have inside := (List.getElem?_eq_some_iff.mp found).1
        exact ⟨inside, by rw [List.getElem?_append_left inside, found]⟩
      · rintro ⟨inside, found⟩
        rwa [List.getElem?_append_left inside] at found
    · obtain ⟨scan, ran, _, rfl⟩ := compile_eq_ok compiled
      refine ⟨_, Array.back?_push, ?_⟩
      rw [standsBehind_iff, (Scan.sound_of_run ran).1.place_eq]
  · intro error refused
    obtain ⟨index, mark, blames, marked, location⟩ := blames_of_compile refused
    exact ⟨index, mark, (operatorAt_iff _ _ _).mpr marked, blames, location⟩

/-- Places behind line feeds, a carriage return and a character beyond the basic plane. -/
theorem places_are_exact_among_comments :
    (∃ program, compile {} "[\n\r😀+]\n\n" = .ok program ∧
      program.instructions[1]?.map Instruction.mark = some ⟨.increment, ⟨2, 3⟩⟩ ∧
      OperatorAt "[\n\r😀+]\n\n".toList 1 ⟨.increment, ⟨2, 3⟩⟩ ∧
      StandsBehind "[\n\r😀+]\n\n".toList ⟨4, 1⟩ ∧
      Location.Precedes ⟨2, 3⟩ ⟨2, 4⟩) ∧
    compile {} "+\n😀[.[" = .error ⟨.unmatchedOpen, ⟨2, 4⟩⟩ ∧
    ∃ index mark, OperatorAt "+\n😀[.[".toList index mark ∧
      Blames {} (operators "+\n😀[.[".toList) index .unmatchedOpen ∧ ⟨2, 4⟩ = mark.location := by
  have compiled : compile {} "[\n\r😀+]\n\n" =
      .ok
        { instructions :=
            #[⟨.loopStart, 2, ⟨1, 1⟩⟩, ⟨.increment, 0, ⟨2, 3⟩⟩, ⟨.loopEnd, 0, ⟨2, 4⟩⟩,
              ⟨.finish, 0, ⟨4, 1⟩⟩]
          capacity := 4096 } := by decide
  have refused : compile {} "+\n😀[.[" = .error ⟨.unmatchedOpen, ⟨2, 4⟩⟩ := by decide
  obtain ⟨encoded, ⟨location, last, stands⟩, ascending⟩ :=
    (places_are_exact {} "[\n\r😀+]\n\n").1 _ compiled
  cases last
  exact ⟨⟨_, compiled, rfl, (encoded 1 _).mpr ⟨by decide, rfl⟩, stands,
    ascending 1 2 _ _ (by decide) rfl rfl⟩, refused,
    (places_are_exact {} "+\n😀[.[").2 _ refused⟩

end Program

end TapeDebugger
