import TapeDebugger.Proofs.Machine.Range

/-!
# Wider tapes

Only a move to the right ever looks at the length of the tape.  So a machine does
on a wider tape what it does on a narrower one, until the narrower one is too
short for it, and it leaves alone all cells that the narrower one does not have.
-/

namespace TapeDebugger

namespace Machine

/-! ## Two widths -/

/-- The outcome is the error of a move off the right end of the tape. -/
def Outcome.Overflows (outcome : Outcome) : Prop :=
  ∃ error length, outcome = .halted (.error error) ∧ error.fault = .pointerOverflow length

/--
The machines are the same, except that one has a tape of `narrow` cells and the
other one of `wide` cells, and all the cells that only the other one has are 0.
-/
structure Widens (narrow wide : Nat) (machine other : Machine) : Prop where
  running : other.runtime.running = machine.runtime.running
  pc : other.runtime.pc = machine.runtime.pc
  pointer : other.runtime.pointer = machine.runtime.pointer
  channel : other.channel = machine.channel
  cellSize : other.runtime.tape.cellSize = machine.runtime.tape.cellSize
  narrowLength : machine.runtime.tape.length = narrow
  wideLength : other.runtime.tape.length = wide
  below : ∀ index < narrow, other.runtime.tape.cell? index = machine.runtime.tape.cell? index
  beyond : ∀ index, narrow ≤ index → index < wide → other.runtime.tape.cell? index = some 0

variable {program : Program} {eofValue : Number} {machine other : Machine} {narrow wide : Nat}
  {pointer value : Nat}

namespace Widens

theorem blank (within : narrow ≤ wide) (cellSize : CellSize) (channel : Channel) :
    Widens narrow wide ⟨{ tape := .blank cellSize narrow }, channel⟩
      ⟨{ tape := .blank cellSize wide }, channel⟩ where
  running := rfl
  pc := rfl
  pointer := rfl
  channel := rfl
  cellSize := rfl
  narrowLength := Tape.length_blank cellSize narrow
  wideLength := Tape.length_blank cellSize wide
  below := by
    intro index inside
    simp [Tape.cell?, Tape.blank, inside, Nat.lt_of_lt_of_le inside within]
  beyond := by
    intro index _ inside
    simp [Tape.cell?, Tape.blank, inside]

/-! ### Changes that both make -/

theorem goneTo (widens : Widens narrow wide machine other) (pc : Position) :
    Widens narrow wide (machine.goneTo pc) (other.goneTo pc) :=
  ⟨widens.running, rfl, widens.pointer, widens.channel, widens.cellSize, widens.narrowLength,
    widens.wideLength, widens.below, widens.beyond⟩

theorem stopped (widens : Widens narrow wide machine other) :
    Widens narrow wide machine.stopped other.stopped :=
  ⟨rfl, widens.pc, widens.pointer, widens.channel, widens.cellSize, widens.narrowLength,
    widens.wideLength, widens.below, widens.beyond⟩

theorem movedTo (widens : Widens narrow wide machine other) (index : Nat) :
    Widens narrow wide (machine.movedTo index) (other.movedTo index) :=
  ⟨widens.running, congrArg Position.next widens.pc, rfl, widens.channel, widens.cellSize,
    widens.narrowLength, widens.wideLength, widens.below, widens.beyond⟩

theorem withChannel (widens : Widens narrow wide machine other) (channel : Channel) :
    Widens narrow wide { machine with channel } { other with channel } :=
  ⟨widens.running, widens.pc, widens.pointer, rfl, widens.cellSize, widens.narrowLength,
    widens.wideLength, widens.below, widens.beyond⟩

/-- A cell of both tapes takes the same value on both, and no cell beyond is touched. -/
theorem storedAt (widens : Widens narrow wide machine other) (within : narrow ≤ wide)
    (inside : pointer < narrow) (value : Nat) :
    Widens narrow wide (machine.storedAt pointer value) (other.storedAt pointer value) where
  running := widens.running
  pc := congrArg Position.next widens.pc
  pointer := widens.pointer
  channel := widens.channel
  cellSize := widens.cellSize
  narrowLength := (Tape.length_write _ _ _).trans widens.narrowLength
  wideLength := (Tape.length_write _ _ _).trans widens.wideLength
  below := by
    intro index below
    show (other.runtime.tape.write pointer value).cell? index =
      (machine.runtime.tape.write pointer value).cell? index
    by_cases same : pointer = index
    · subst same
      have modulus_eq : other.runtime.tape.modulus = machine.runtime.tape.modulus :=
        congrArg CellSize.modulus widens.cellSize
      rw [Tape.cell?_write_self value (by rw [widens.wideLength]; omega),
        Tape.cell?_write_self value (by rw [widens.narrowLength]; exact below), modulus_eq]
    · rw [Tape.cell?_write_of_ne value same, Tape.cell?_write_of_ne value same]
      exact widens.below index below
  beyond := by
    intro index above belowWide
    have apart : pointer ≠ index := by omega
    exact (Tape.cell?_write_of_ne value apart).trans (widens.beyond index above belowWide)

/-! ### Instructions -/

theorem instruction_eq (widens : Widens narrow wide machine other) :
    other.runtime.instruction program = machine.runtime.instruction program := by
  rw [Runtime.instruction, Runtime.instruction, widens.pc]

end Widens

/-- The outcomes are the same, and the machines behind them differ in their width alone. -/
structure Agree (narrow wide : Nat) (result other : Outcome × Machine) : Prop where
  outcome : other.1 = result.1
  widens : Widens narrow wide result.2 other.2

namespace Widens

/-- At the last cell of the narrow tape a move to the right is an error there. -/
theorem step_moveRight (widens : Widens narrow wide machine other) (within : narrow ≤ wide)
    (pointer_eq : machine.runtime.pointer = .index pointer) (target : Position) :
    Agree narrow wide (machine.step eofValue .moveRight target)
        (other.step eofValue .moveRight target) ∨
      (machine.step eofValue .moveRight target).1.Overflows := by
  rcases Nat.lt_or_ge (pointer + 1) narrow with inside | last
  · left
    rw [Machine.step_moveRight pointer_eq (by rw [widens.narrowLength]; exact inside),
      Machine.step_moveRight (widens.pointer.trans pointer_eq)
        (by rw [widens.wideLength]; omega)]
    exact ⟨rfl, widens.movedTo (pointer + 1)⟩
  · right
    rw [step_moveRight_last pointer_eq (by rw [widens.narrowLength]; exact last)]
    exact ⟨_, _, rfl, rfl⟩

/-- Nothing but a move to the right can tell the one tape from the other. -/
theorem agree_step (widens : Widens narrow wide machine other) (within : narrow ≤ wide)
    (pointer_eq : machine.runtime.pointer = .index pointer)
    (cell_eq : machine.runtime.tape.cell? pointer = some value) {operator : Operator}
    (notRight : operator ≠ .moveRight) (target : Position) :
    Agree narrow wide (machine.step eofValue operator target)
      (other.step eofValue operator target) := by
  have inside : pointer < narrow := widens.narrowLength ▸ Tape.lt_length_of_cell? cell_eq
  have pointer_eq' : other.runtime.pointer = .index pointer := widens.pointer.trans pointer_eq
  have cell_eq' : other.runtime.tape.cell? pointer = some value :=
    (widens.below pointer inside).trans cell_eq
  have modulus_eq : other.runtime.tape.modulus = machine.runtime.tape.modulus :=
    congrArg CellSize.modulus widens.cellSize
  cases operator with
  | finish => exact ⟨rfl, widens.stopped⟩
  | moveRight => exact absurd rfl notRight
  | moveLeft =>
      cases pointer with
      | zero =>
          have error_eq : other.errorOf .moveLeft .pointerUnderflow =
              machine.errorOf .moveLeft .pointerUnderflow := by
            rw [errorOf, errorOf, cell?_eq_of_index pointer_eq, cell?_eq_of_index pointer_eq',
              cell_eq, cell_eq', pointer_eq, pointer_eq', widens.pc]
          rw [step_moveLeft_first pointer_eq, step_moveLeft_first pointer_eq', error_eq]
          exact ⟨rfl, widens.stopped⟩
      | succ left =>
          rw [step_moveLeft pointer_eq, step_moveLeft pointer_eq']
          exact ⟨rfl, widens.movedTo left⟩
  | increment =>
      rw [step_increment pointer_eq cell_eq, step_increment pointer_eq' cell_eq', modulus_eq]
      exact ⟨rfl, widens.storedAt within inside _⟩
  | decrement =>
      rw [step_decrement pointer_eq cell_eq, step_decrement pointer_eq' cell_eq', modulus_eq]
      exact ⟨rfl, widens.storedAt within inside _⟩
  | output =>
      rw [step_output pointer_eq cell_eq, step_output pointer_eq' cell_eq', widens.channel,
        widens.pc]
      exact ⟨rfl, (widens.withChannel _).goneTo _⟩
  | input =>
      cases pending_eq : machine.channel.pending with
      | nil =>
          have pending_eq' : other.channel.pending = [] := widens.channel ▸ pending_eq
          rw [step_input_nil pointer_eq pending_eq, step_input_nil pointer_eq' pending_eq',
            modulus_eq]
          exact ⟨rfl, widens.storedAt within inside _⟩
      | cons byte rest =>
          have pending_eq' : other.channel.pending = byte :: rest := widens.channel ▸ pending_eq
          rw [step_input_cons pointer_eq pending_eq, step_input_cons pointer_eq' pending_eq',
            widens.channel]
          exact ⟨rfl, (widens.withChannel _).storedAt within inside _⟩
  | loopStart =>
      rw [step_loopStart pointer_eq cell_eq, step_loopStart pointer_eq' cell_eq', widens.pc]
      exact ⟨rfl, widens.goneTo _⟩
  | loopEnd =>
      rw [step_loopEnd pointer_eq cell_eq, step_loopEnd pointer_eq' cell_eq', widens.pc]
      exact ⟨rfl, widens.goneTo _⟩

theorem agree_stepIn (widens : Widens narrow wide machine other) (within : narrow ≤ wide)
    (inRange : machine.runtime.InRange program) (eofValue : Number) :
    Agree narrow wide (machine.stepIn program eofValue) (other.stepIn program eofValue) ∨
      (machine.stepIn program eofValue).1.Overflows := by
  obtain ⟨pointer, value, pointer_eq, cell_eq, -⟩ := inRange.exists_cell
  rw [Machine.stepIn, Machine.stepIn, widens.instruction_eq]
  generalize machine.runtime.instruction program = instruction
  by_cases right : instruction.operator = .moveRight
  · rw [right]
    exact widens.step_moveRight within pointer_eq _
  · exact .inl (widens.agree_step within pointer_eq cell_eq right _)

/-! ### Runs -/

/-- As long as the narrow tape is enough, both machines do the same. -/
theorem agree_run {row : List Operator} (encodes : program.Encodes row)
    (widens : Widens narrow wide machine other) (within : narrow ≤ wide)
    (inRange : machine.runtime.InRange program) (count : Nat)
    (fits : ¬ (machine.run program eofValue count).1.Overflows) :
    Agree narrow wide (machine.run program eofValue count)
      (other.run program eofValue count) := by
  induction count, machine using count_induction program eofValue generalizing other with
  | zero machine => exact ⟨rfl, widens⟩
  | continued count machine next stepped ih =>
      rw [run_succ_of_continued stepped] at fits ⊢
      have reached := inRange.stepIn encodes eofValue
      have alike := widens.agree_stepIn within inRange eofValue
      rw [stepped] at reached alike
      rcases alike with alike | ⟨_, _, overflow, _⟩
      · have stepped' : other.stepIn program eofValue =
            (.continued, (other.stepIn program eofValue).2) := Prod.ext alike.outcome rfl
        rw [run_succ_of_continued stepped']
        exact ih alike.widens reached fits
      · cases overflow
  | halted count machine halt final stepped =>
      rw [run_succ_of_halted stepped] at fits ⊢
      have alike := widens.agree_stepIn within inRange eofValue
      rw [stepped] at alike
      rcases alike with alike | overflow
      · have stepped' : other.stepIn program eofValue =
            (.halted halt, (other.stepIn program eofValue).2) := Prod.ext alike.outcome rfl
        rw [run_succ_of_halted stepped']
        exact ⟨rfl, alike.widens⟩
      · exact absurd overflow fits

end Widens

/--
A run of a compiled program that does not leave the narrower of two new tapes does
the same on the wider one, and never touches what is beyond the narrower one.  If it
does leave it, then the same holds of all that comes before the move that does.
-/
theorem wider_tape_keeps_run {limits : Program.Limits} {source : String} {narrow wide : Nat}
    {cellSize : CellSize} {tape other : Tape}
    (compiled : Program.compile limits source = .ok program) (positive : 1 ≤ narrow)
    (within : narrow ≤ wide) (created : Tape.create cellSize (.finite narrow) = .ok tape)
    (created' : Tape.create cellSize (.finite wide) = .ok other) (eofValue : Number)
    (pending : List UInt8) (count : Nat) :
    let first : Machine := ⟨{ tape }, { pending }⟩
    let second : Machine := ⟨{ tape := other }, { pending }⟩
    (¬ (first.run program eofValue count).1.Overflows →
        Agree narrow wide (first.run program eofValue count)
          (second.run program eofValue count)) ∧
      ((first.run program eofValue count).1.Overflows →
        ∃ steps < count, ∃ last last',
          first.run program eofValue steps = (.continued, last) ∧
          first.run program eofValue (steps + 1) = first.run program eofValue count ∧
          second.run program eofValue steps = (.continued, last') ∧
          Widens narrow wide last last') := by
  intro first second
  have blank_of_created {length : Nat} {tape : Tape}
      (created : Tape.create cellSize (.finite length) = .ok tape) :
      tape = .blank cellSize length := by
    rw [Tape.create_natCast] at created
    split at created
    · exact (Except.ok.inj created).symm
    · cases created
  have encodes := Program.encodes_of_compile compiled
  have widens : Widens narrow wide first second := by
    have blanks := Widens.blank within cellSize { pending }
    rw [← blank_of_created created, ← blank_of_created created'] at blanks
    exact blanks
  have inRange : first.runtime.InRange program := by
    have start := Runtime.InRange.blank (by rw [encodes.count_eq]; omega) cellSize positive
    rw [← blank_of_created created] at start
    exact start
  refine ⟨widens.agree_run encodes within inRange count, ?_⟩
  rintro ⟨error, length, outcome_eq, overflow⟩
  have ran : first.run program eofValue count =
      (.halted (.error error), (first.run program eofValue count).2) := Prod.ext outcome_eq rfl
  obtain ⟨steps, before, last, reached, halts⟩ := exists_last_of_halted ran
  have fits : ¬ (first.run program eofValue steps).1.Overflows := by
    rintro ⟨_, _, halted, _⟩
    rw [reached] at halted
    cases halted
  have alike := widens.agree_run encodes within inRange steps fits
  rw [reached] at alike
  have reached' : second.run program eofValue steps =
      (.continued, (second.run program eofValue steps).2) := Prod.ext alike.outcome rfl
  refine ⟨steps, before, last, _, reached, ?_, reached', alike.widens⟩
  rw [run_add_of_continued reached, run_succ_of_halted halts, ran]

/-- The program of a loop that writes, reads and goes on to the right. -/
def echoRight : Program where
  instructions :=
    #[⟨.increment, 0, ⟨1, 1⟩⟩, ⟨.loopStart, 5, ⟨1, 2⟩⟩, ⟨.output, 0, ⟨1, 3⟩⟩,
      ⟨.input, 0, ⟨1, 4⟩⟩, ⟨.moveRight, 0, ⟨1, 5⟩⟩, ⟨.loopEnd, 1, ⟨1, 6⟩⟩,
      ⟨.finish, 0, ⟨1, 7⟩⟩]
  capacity := 4096

/-- Two cells are enough for the program, and with one it does the same up to its fifth step. -/
theorem wider_tape_keeps_echoRight :
    Program.compile {} "+[.,>]" = .ok echoRight ∧
      Tape.create .bits8 (.finite 1) = .ok ⟨.bits8, #[0]⟩ ∧
      Tape.create .bits8 (.finite 2) = .ok ⟨.bits8, #[0, 0]⟩ ∧
      Tape.create .bits8 (.finite 3) = .ok ⟨.bits8, #[0, 0, 0]⟩ ∧
      Agree 2 3 (run echoRight (.finite 0) 9 ⟨{ tape := ⟨.bits8, #[0, 0]⟩ }, { pending := [7] }⟩)
        (run echoRight (.finite 0) 9 ⟨{ tape := ⟨.bits8, #[0, 0, 0]⟩ }, { pending := [7] }⟩) ∧
      ∃ steps < 9, ∃ last last',
        run echoRight (.finite 0) steps ⟨{ tape := ⟨.bits8, #[0]⟩ }, { pending := [7] }⟩ =
          (.continued, last) ∧
        run echoRight (.finite 0) steps ⟨{ tape := ⟨.bits8, #[0, 0, 0]⟩ }, { pending := [7] }⟩ =
          (.continued, last') ∧
        Widens 1 3 last last' := by
  have compiled : Program.compile {} "+[.,>]" = .ok echoRight := by decide
  have one : Tape.create .bits8 (.finite (1 : Nat)) = .ok ⟨.bits8, #[0]⟩ := by decide
  have two : Tape.create .bits8 (.finite (2 : Nat)) = .ok ⟨.bits8, #[0, 0]⟩ := by decide
  have three : Tape.create .bits8 (.finite (3 : Nat)) = .ok ⟨.bits8, #[0, 0, 0]⟩ := by decide
  have fits : ¬ (run echoRight (.finite 0) 9
      ⟨{ tape := ⟨.bits8, #[0, 0]⟩ }, { pending := [7] }⟩).1.Overflows := by
    rintro ⟨error, length, halted, _⟩
    have normal : (run echoRight (.finite 0) 9
        ⟨{ tape := ⟨.bits8, #[0, 0]⟩ }, { pending := [7] }⟩).1 = .halted .normal := by decide
    cases normal.symm.trans halted
  have overflows : (run echoRight (.finite 0) 9
      ⟨{ tape := ⟨.bits8, #[0]⟩ }, { pending := [7] }⟩).1.Overflows := ⟨_, _, rfl, rfl⟩
  obtain ⟨agree, -⟩ :=
    wider_tape_keeps_run compiled (by decide) (by decide) two three (.finite 0) [7] 9
  obtain ⟨-, before⟩ :=
    wider_tape_keeps_run compiled (by decide) (by decide) one three (.finite 0) [7] 9
  obtain ⟨steps, within, last, last', reached, -, reached', widens⟩ := before overflows
  exact ⟨compiled, one, two, three, agree fits, steps, within, last, last', reached, reached',
    widens⟩

end Machine

end TapeDebugger
