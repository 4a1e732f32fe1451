import TapeDebugger.Program.Scan
import TapeDebugger.Proofs.Program.Marks
import TapeDebugger.Proofs.Program.Pending
import Mathlib.Data.List.Induction

/-!
# What a scan keeps

A scan that has met no fault holds one instruction for each operator it has
read, at the place of its character.  Its stack is that of the brackets that
wait, and the operands of its instructions are the targets of their operators.
One more operator is refused exactly if something is wrong with it.
-/

namespace TapeDebugger

namespace Program

open Brackets (depth Balanced Pending Linked)

/-! ## Offences -/

/-- What is wrong with an operator that stands behind others. -/
def offence? (limits : Limits) (before : List Operator) (operator : Operator) : Option Fault :=
  if limits.programSize ≤ before.length + 1 then some (.programTooLarge limits.programSize)
  else if operator = .loopStart ∧ limits.stackSize ≤ depth before then
    some (.tooManyOpens limits.stackSize)
  else if operator = .loopEnd ∧ depth before = 0 then some .unmatchedClose
  else none

/-- What is wrong with the operator at an index of a row. -/
def offenceAt? (limits : Limits) (row : List Operator) (index : Nat) : Option Fault :=
  row[index]?.bind (offence? limits (row.take index))

/-- The least index at which something is wrong, and what it is. -/
structure FirstOffence (limits : Limits) (row : List Operator) (index : Nat) (fault : Fault) :
    Prop where
  wrong : offenceAt? limits row index = some fault
  before : ∀ earlier, earlier < index → offenceAt? limits row earlier = none

/-- What follows a row changes nothing about its offences. -/
theorem offenceAt?_append {limits : Limits} {row more : List Operator} {index : Nat}
    (h : index < row.length) :
    offenceAt? limits (row ++ more) index = offenceAt? limits row index := by
  rw [offenceAt?, offenceAt?, List.getElem?_append_left h,
    List.take_append_of_le_length (Nat.le_of_lt h)]

/-- At the last operator of a row all others stand before it. -/
theorem offenceAt?_concat (limits : Limits) (row : List Operator) (operator : Operator) :
    offenceAt? limits (row ++ [operator]) row.length = offence? limits row operator := by
  simp [offenceAt?]

theorem offenceAt?_of_length_le {limits : Limits} {row : List Operator} {index : Nat}
    (h : row.length ≤ index) : offenceAt? limits row index = none := by
  rw [offenceAt?, List.getElem?_eq_none h, Option.bind_none]

theorem FirstOffence.index_lt {limits : Limits} {row : List Operator} {index : Nat}
    {fault : Fault} (first : FirstOffence limits row index fault) : index < row.length := by
  by_contra outside
  have wrong := first.wrong
  rw [offenceAt?_of_length_le (Nat.le_of_not_lt outside)] at wrong
  cases wrong

theorem FirstOffence.unique {limits : Limits} {row : List Operator} {index index' : Nat}
    {fault fault' : Fault} (first : FirstOffence limits row index fault)
    (another : FirstOffence limits row index' fault') : index = index' ∧ fault = fault' := by
  rcases Nat.lt_trichotomy index index' with before | same | behind
  · have fine := another.before index before
    rw [first.wrong] at fine
    cases fine
  · subst same
    exact ⟨rfl, Option.some.inj (first.wrong.symm.trans another.wrong)⟩
  · have fine := first.before index' behind
    rw [another.wrong] at fine
    cases fine

/-- What follows a row does not change its first offence. -/
theorem FirstOffence.append {limits : Limits} {row : List Operator} {index : Nat} {fault : Fault}
    (first : FirstOffence limits row index fault) (more : List Operator) :
    FirstOffence limits (row ++ more) index fault := by
  have bound := first.index_lt
  constructor
  · rw [offenceAt?_append bound]
    exact first.wrong
  · intro earlier lt
    rw [offenceAt?_append (by omega)]
    exact first.before earlier lt

namespace Scan

/-! ## The operations of a scan -/

@[simp] theorem instructions_advance (scan : Scan) (char : Char) :
    (scan.advance char).instructions = scan.instructions := by
  unfold advance
  split <;> rfl

@[simp] theorem opens_advance (scan : Scan) (char : Char) :
    (scan.advance char).opens = scan.opens := by
  unfold advance
  split <;> rfl

theorem openLoop_of_room {limits : Limits} {scan : Scan}
    (room : ¬ limits.stackSize ≤ scan.opens.size) :
    scan.openLoop limits =
      .ok ({ scan with opens := scan.opens.push scan.instructions.size }.emit .loopStart 0) := by
  rw [openLoop, if_neg room]

theorem closeLoop_of_empty {scan : Scan} (h : scan.opens = #[]) :
    scan.closeLoop = scan.refuse .unmatchedClose := by
  cases scan
  cases h
  rfl

theorem closeLoop_of_push {scan : Scan} {below : Array Nat} {partner : Nat}
    (h : scan.opens = below.push partner) :
    scan.closeLoop =
      .ok
        { scan with
          instructions :=
            (pointAt scan.instructions partner scan.instructions.size).push
              ⟨.loopEnd, partner, scan.location⟩
          opens := below } := by
  cases scan
  cases h
  simp [closeLoop, location]

/-- To point an instruction at another one keeps the marks. -/
theorem map_mark_pointAt (instructions : Array Instruction) (index target : Nat) :
    (pointAt instructions index target).toList.map Instruction.mark =
      instructions.toList.map Instruction.mark := by
  apply List.ext_getElem?
  intro position
  simp only [pointAt, Array.toList_modify, List.getElem?_map, List.getElem?_modify]
  cases instructions.toList[position]? with
  | none => rfl
  | some instruction => by_cases same : index = position <;> simp [same, Instruction.mark]

/-- To point an instruction at another one sets its operand and no other. -/
theorem map_operand_pointAt (instructions : Array Instruction) (index target : Nat) :
    (pointAt instructions index target).toList.map Instruction.operand =
      (instructions.toList.map Instruction.operand).set index target := by
  apply List.ext_getElem?
  intro position
  simp only [pointAt, Array.toList_modify, List.getElem?_map, List.getElem?_modify,
    List.getElem?_set]
  by_cases same : index = position
  · subst same
    cases found : instructions.toList[index]? with
    | none =>
        have outside := List.getElem?_eq_none_iff.mp found
        simp at outside
        simp [outside]
    | some instruction =>
        have inside := (List.getElem?_eq_some_iff.mp found).1
        simp at inside
        simp [inside]
  · simp [same]

/-! ## The invariant -/

/-- What holds of a scan that has read some characters without a fault. -/
structure Sound (chars : List Char) (scan : Scan) : Prop where
  place_eq : placeBehind chars = ⟨scan.line, scan.column + 1⟩
  marks_eq : scan.instructions.toList.map Instruction.mark = marks chars
  pending : Pending (operators chars) scan.opens.toList
  linked : Linked (operators chars) (scan.instructions.toList.map Instruction.operand)

namespace Sound

variable {limits : Limits} {chars : List Char} {scan : Scan} {char : Char} {operator : Operator}

theorem start : Sound [] {} where
  place_eq := rfl
  marks_eq := rfl
  pending := Pending.nil
  linked := Linked.nil

theorem size_eq (sound : Sound chars scan) :
    scan.instructions.size = (operators chars).length := by
  have lengths := congrArg List.length sound.marks_eq
  simpa using lengths

theorem opens_size_eq (sound : Sound chars scan) :
    (scan.opens.size : Int) = depth (operators chars) := by
  simpa using sound.pending.length_eq

theorem place_advance (sound : Sound chars scan) (char : Char) :
    placeBehind (chars ++ [char]) =
      ⟨(scan.advance char).line, (scan.advance char).column + 1⟩ := by
  by_cases feed : char = '\n'
  · subst feed
    rw [placeBehind_lineFeed, sound.place_eq]
    rfl
  · rw [placeBehind_concat chars feed, sound.place_eq]
    simp [advance, feed]

theorem location_advance (sound : Sound chars scan) (kind : Operator.ofChar? char = some operator) :
    (scan.advance char).location = placeBehind chars := by
  have noFeed : char ≠ '\n' := by
    rintro rfl
    cases kind
  rw [sound.place_eq]
  simp [advance, noFeed, location]

theorem comment (sound : Sound chars scan) (kind : Operator.ofChar? char = none) :
    Sound (chars ++ [char]) (scan.advance char) := by
  have same : operators (chars ++ [char]) = operators chars := by
    rw [operators_append, operators_comment kind, List.append_nil]
  refine ⟨sound.place_advance char, ?_, ?_, ?_⟩
  · rw [instructions_advance, marks_comment chars kind]
    exact sound.marks_eq
  · rw [opens_advance, same]
    exact sound.pending
  · rw [instructions_advance, same]
    exact sound.linked

/-- A scan that has taken in one more operator, put together from its parts. -/
theorem extend {next : Scan} (sound : Sound chars scan)
    (kind : Operator.ofChar? char = some operator)
    (line : next.line = (scan.advance char).line)
    (column : next.column = (scan.advance char).column)
    (marks : next.instructions.toList.map Instruction.mark =
      scan.instructions.toList.map Instruction.mark ++ [⟨operator, placeBehind chars⟩])
    (pending : Pending (operators chars ++ [operator]) next.opens.toList)
    (linked : Linked (operators chars ++ [operator])
      (next.instructions.toList.map Instruction.operand)) : Sound (chars ++ [char]) next := by
  have row : operators (chars ++ [char]) = operators chars ++ [operator] := by
    rw [operators_append, operators_singleton kind]
  constructor
  · rw [line, column]
    exact sound.place_advance char
  · rw [marks, sound.marks_eq, marks_concat chars kind]
  · rw [row]
    exact pending
  · rw [row]
    exact linked

/-! ## One more operator -/

/-- An operator that stands alone is taken in. -/
theorem place_alone (sound : Sound chars scan) (kind : Operator.ofChar? char = some operator)
    (notStart : operator ≠ .loopStart) (notEnd : operator ≠ .loopEnd) :
    Sound (chars ++ [char]) ((scan.advance char).emit operator 0) := by
  refine sound.extend kind rfl rfl ?_ ?_ ?_
  · simp [emit, Instruction.mark, sound.location_advance kind]
  · simpa [emit] using sound.pending.alone notStart notEnd
  · simpa [emit] using sound.linked.concat notEnd

/-- An opening bracket is taken in if the stack has room for it. -/
theorem place_loopStart (sound : Sound chars scan)
    (kind : Operator.ofChar? char = some .loopStart)
    (room : ¬ limits.stackSize ≤ depth (operators chars)) :
    ∃ next, (scan.advance char).openLoop limits = .ok next ∧ Sound (chars ++ [char]) next := by
  rw [← sound.opens_size_eq, ← opens_advance scan char] at room
  refine ⟨_, openLoop_of_room room, ?_⟩
  refine sound.extend kind rfl rfl ?_ ?_ ?_
  · have location := sound.location_advance kind
    simpa [emit, Instruction.mark, Scan.location] using location
  · simpa [emit, sound.size_eq] using sound.pending.push
  · simpa [emit] using sound.linked.concat (show Operator.loopStart ≠ .loopEnd by decide)

/-- A closing bracket is taken in if a bracket waits for it. -/
theorem place_loopEnd (sound : Sound chars scan) (kind : Operator.ofChar? char = some .loopEnd)
    (waiting : ¬ depth (operators chars) = 0) :
    ∃ next, (scan.advance char).closeLoop = .ok next ∧ Sound (chars ++ [char]) next := by
  have nonempty : 0 < scan.opens.size := by
    have height := sound.opens_size_eq
    omega
  obtain ⟨partner, top⟩ : ∃ partner, scan.opens.back? = some partner := by
    rw [Array.back?_eq_getElem?]
    exact ⟨_, Array.getElem?_eq_getElem (by omega)⟩
  obtain ⟨below, split⟩ := Array.back?_eq_some_iff.mp top
  have pending := sound.pending
  rw [split, Array.toList_push] at pending
  have location := sound.location_advance kind
  refine ⟨_, closeLoop_of_push (by rw [opens_advance, split]), ?_⟩
  refine sound.extend kind rfl rfl ?_ ?_ ?_
  · simp [map_mark_pointAt, Instruction.mark, location]
  · exact pending.pop
  · simpa [map_operand_pointAt, sound.size_eq] using sound.linked.close pending.top_pair

/-- An operator with nothing wrong is taken in. -/
theorem step_ok (sound : Sound chars scan) (kind : Operator.ofChar? char = some operator)
    (fine : offence? limits (operators chars) operator = none) :
    ∃ next, scan.step limits char = .ok next ∧ Sound (chars ++ [char]) next := by
  have size_eq := sound.size_eq
  unfold offence? at fine
  split at fine
  · cases fine
  split at fine
  · cases fine
  split at fine
  · cases fine
  rename_i fits shallow matched
  have room : ¬ limits.programSize - 1 ≤ ((scan.advance char).instructions.size : Int) := by
    rw [instructions_advance, size_eq]
    omega
  simp only [step, kind, place, if_neg room]
  cases operator with
  | loopStart => exact sound.place_loopStart kind fun full => shallow ⟨rfl, full⟩
  | loopEnd => exact sound.place_loopEnd kind fun flat => matched ⟨rfl, flat⟩
  | _ => exact ⟨_, rfl, sound.place_alone kind (by decide) (by decide)⟩

/-- An operator with something wrong is refused at its place. -/
theorem step_error {fault : Fault} (sound : Sound chars scan)
    (kind : Operator.ofChar? char = some operator)
    (wrong : offence? limits (operators chars) operator = some fault) :
    scan.step limits char = .error ⟨fault, placeBehind chars⟩ := by
  have size_eq := sound.size_eq
  have opens_size_eq := sound.opens_size_eq
  have location := sound.location_advance kind
  simp only [step, kind, place, instructions_advance, size_eq]
  unfold offence? at wrong
  split at wrong
  case isTrue full =>
    cases wrong
    rw [if_pos (by omega), refuse, location]
  case isFalse fits =>
    rw [if_neg (by omega)]
    split at wrong
    case isTrue deep =>
      obtain ⟨rfl, full⟩ := deep
      cases wrong
      simp only [openLoop, opens_advance, opens_size_eq]
      rw [if_pos full, refuse, location]
    case isFalse shallow =>
      split at wrong
      case isTrue lonely =>
        obtain ⟨rfl, flat⟩ := lonely
        cases wrong
        have empty : (scan.advance char).opens = #[] := by
          rw [opens_advance]
          exact Array.eq_empty_of_size_eq_zero (by omega)
        simp only [closeLoop_of_empty empty, refuse, location]
      case isFalse => cases wrong

end Sound

/-! ## Whole sources -/

theorem run_concat_of_ok {limits : Limits} {scan next : Scan} {chars : List Char} {char : Char}
    (h : scan.run limits chars = .ok next) :
    scan.run limits (chars ++ [char]) = next.step limits char := by
  rw [run_append, h]
  change (next.step limits char >>= pure) = _
  rw [bind_pure]

theorem run_concat_of_error {limits : Limits} {scan : Scan} {error : CompileError}
    {chars : List Char} {char : Char} (h : scan.run limits chars = .error error) :
    scan.run limits (chars ++ [char]) = .error error := by
  rw [run_append, h]
  rfl

/-- A scan of a source keeps the invariant to its end, or stops at the first offence. -/
theorem run_cases (limits : Limits) (chars : List Char) :
    (∃ scan, run limits {} chars = .ok scan ∧ Sound chars scan ∧
      ∀ index, offenceAt? limits (operators chars) index = none) ∨
    ∃ index fault mark, FirstOffence limits (operators chars) index fault ∧
      (marks chars)[index]? = some mark ∧
      run limits {} chars = .error ⟨fault, mark.location⟩ := by
  induction chars using List.reverseRecOn with
  | nil => exact Or.inl ⟨{}, rfl, Sound.start, fun _ => rfl⟩
  | append_singleton chars char ih =>
      rcases ih with ⟨scan, ran, sound, fine⟩ | ⟨index, fault, mark, first, marked, ran⟩
      · rw [run_concat_of_ok ran]
        cases kind : Operator.ofChar? char with
        | none =>
            refine Or.inl ⟨_, step_comment limits scan kind, sound.comment kind, ?_⟩
            rw [operators_append, operators_comment kind, List.append_nil]
            exact fine
        | some operator =>
            rw [operators_append, operators_singleton kind, marks_concat chars kind]
            cases found : offence? limits (operators chars) operator with
            | none =>
                obtain ⟨next, stepped, sound⟩ := sound.step_ok kind found
                refine Or.inl ⟨next, stepped, sound, ?_⟩
                intro index
                rcases Nat.lt_trichotomy index (operators chars).length with inside | last | behind
                · rw [offenceAt?_append inside]
                  exact fine index
                · rw [last, offenceAt?_concat]
                  exact found
                · exact offenceAt?_of_length_le (by simp; omega)
            | some fault =>
                refine Or.inr ⟨(operators chars).length, fault, ⟨operator, placeBehind chars⟩,
                  ⟨?_, ?_⟩, ?_, sound.step_error kind found⟩
                · rw [offenceAt?_concat]
                  exact found
                · intro earlier lt
                  rw [offenceAt?_append lt]
                  exact fine earlier
                · rw [← length_marks, List.getElem?_concat_length]
      · refine Or.inr ⟨index, fault, mark, ?_, ?_, run_concat_of_error ran⟩
        · rw [operators_append]
          exact first.append _
        · have bound := (List.getElem?_eq_some_iff.mp marked).1
          cases kind : Operator.ofChar? char with
          | none => rw [marks_comment chars kind, marked]
          | some operator => rw [marks_concat chars kind, List.getElem?_append_left bound, marked]

/-- A scan that has ended without a fault keeps the invariant, and no operator was wrong. -/
theorem sound_of_run {limits : Limits} {chars : List Char} {scan : Scan}
    (h : run limits {} chars = .ok scan) :
    Sound chars scan ∧ ∀ index, offenceAt? limits (operators chars) index = none := by
  rcases run_cases limits chars with ⟨scan', ran, sound, fine⟩ | ⟨_, _, _, _, _, ran⟩
  · rw [h] at ran
    cases ran
    exact ⟨sound, fine⟩
  · rw [h] at ran
    cases ran

end Scan

/-- The program that a scan without brackets that wait is completed to. -/
theorem compile_eq_ok {limits : Limits} {source : String} {program : Program}
    (h : compile limits source = .ok program) :
    ∃ scan, Scan.run limits {} source.toList = .ok scan ∧ scan.opens = #[] ∧
      program =
        { instructions := scan.instructions.push ⟨.finish, 0, ⟨scan.line, scan.column + 1⟩⟩
          capacity := limits.programSize } := by
  unfold compile at h
  cases ran : Scan.run limits {} source.toList with
  | error error =>
      rw [ran] at h
      cases h
  | ok scan =>
      rw [ran] at h
      change scan.complete limits = .ok program at h
      unfold Scan.complete at h
      cases top : scan.opens.back? with
      | some innermost =>
          rw [top] at h
          cases h
      | none =>
          rw [top] at h
          cases h
          exact ⟨scan, rfl, Array.back?_eq_none_iff.mp top, rfl⟩

/-- The operators of a program were in order, and its brackets balance. -/
theorem fine_of_compile {limits : Limits} {source : String} {program : Program}
    (h : compile limits source = .ok program) :
    (∀ index, offenceAt? limits (operators source.toList) index = none) ∧
      Balanced (operators source.toList) := by
  obtain ⟨scan, ran, empty, _⟩ := compile_eq_ok h
  obtain ⟨sound, fine⟩ := Scan.sound_of_run ran
  have pending := sound.pending
  rw [empty] at pending
  exact ⟨fine, pending.balanced⟩

end Program

end TapeDebugger
