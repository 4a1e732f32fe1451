import TapeDebugger.Proofs.Machine.Range

/-!
# Cells of different sizes

The values of a byte divide evenly into those of a cell of any size.  So all that is
stored in a cell has the same low byte at every size, and only a bracket can tell more
of a cell than that.  A program without brackets does the same at all cell sizes.
-/

namespace TapeDebugger

/-! ## Programs without brackets -/

namespace Program

/-- No instruction of the program is a bracket. -/
def Loopless (program : Program) : Prop :=
  .loopStart ∉ program.operatorColumn ∧ .loopEnd ∉ program.operatorColumn

/-- The symbol of an operator of a source is one of its characters. -/
theorem mem_of_mem_operators {chars : List Char} {operator : Operator} {char : Char}
    (mem : operator ∈ operators chars) (symbol_eq : operator.symbol = String.singleton char) :
    char ∈ chars := by
  obtain ⟨found, inside, kind⟩ := List.mem_filterMap.mp mem
  have same := congrArg String.toList (symbol_eq.symm.trans (Operator.symbol_of_ofChar? kind))
  have char_eq : char = found := by simpa using same
  exact char_eq ▸ inside

theorem loopless_of_compile {limits : Limits} {source : String} {program : Program}
    (h : compile limits source = .ok program) (noStart : '[' ∉ source.toList)
    (noEnd : ']' ∉ source.toList) : program.Loopless := by
  rw [Loopless, (encodes_of_compile h).operators_eq]
  constructor
  · intro mem
    rcases List.mem_append.mp mem with inside | last
    · exact noStart (mem_of_mem_operators inside rfl)
    · cases List.mem_singleton.mp last
  · intro mem
    rcases List.mem_append.mp mem with inside | last
    · exact noEnd (mem_of_mem_operators inside rfl)
    · cases List.mem_singleton.mp last

end Program

namespace Machine

variable {program : Program} {machine other : Machine} {index value value' : Nat}

/-! ## Low bytes -/

/-- The value of a cell modulo 256. -/
def Tape.lowByte? (tape : Tape) (index : Nat) : Option Nat :=
  (tape.cell? index).map (· % 256)

theorem Tape.mod_modulus_mod (tape : Tape) (value : Nat) :
    value % tape.modulus % 256 = value % 256 :=
  Nat.mod_mod_of_dvd value tape.cellSize.byte_dvd_modulus

/-- Moved up by any cell size, a value keeps its low byte. -/
theorem Tape.add_modulus_sub_mod (tape : Tape) (value : Nat) :
    (value + tape.modulus - 1) % 256 = (value + 255) % 256 := by
  rw [Tape.modulus]
  cases tape.cellSize <;> simp only [CellSize.modulus] <;> omega

/-- Whatever is stored in a cell, its low byte is kept. -/
theorem Tape.lowByte?_write (tape : Tape) (index value another : Nat) :
    (tape.write index value).lowByte? another =
      if index = another then (tape.lowByte? another).map fun _ => value % 256
      else tape.lowByte? another := by
  unfold lowByte?
  split
  case isTrue same =>
    subst same
    cases found : tape.cell? index with
    | none =>
        have outside : (tape.write index value).cell? index = none := by
          rw [← Option.not_isSome_iff_eq_none, cell?_isSome_iff, length_write,
            ← cell?_isSome_iff, found]
          exact Bool.false_ne_true
        rw [outside]
        rfl
    | some old =>
        rw [cell?_write_self value (lt_length_of_cell? found)]
        exact congrArg some (tape.mod_modulus_mod value)
  case isFalse apart => rw [cell?_write_of_ne value apart]

/-- What the end of the input stores has the low byte of the set value. -/
theorem residue_mod (size : CellSize) (atEnd : Int) :
    Number.residue size.modulus (.finite atEnd) % 256 = (atEnd % 256).toNat := by
  have residue_eq : Number.residue size.modulus (.finite atEnd) = (atEnd % size.modulus).toNat := by
    simp [Number.residue]
  rw [residue_eq]
  cases size <;> simp only [CellSize.modulus] <;> omega

/-! ## Two cell sizes -/

/-- The machines are the same up to the sizes of their cells; these have the same low bytes. -/
structure SameBytes (machine other : Machine) : Prop where
  running : other.runtime.running = machine.runtime.running
  pc : other.runtime.pc = machine.runtime.pc
  pointer : other.runtime.pointer = machine.runtime.pointer
  channel : other.channel = machine.channel
  length : other.runtime.tape.length = machine.runtime.tape.length
  lowByte : ∀ index, other.runtime.tape.lowByte? index = machine.runtime.tape.lowByte? index

/--
The outcomes are of the same kind and for the same reason; errors tell the same but for
the value of a cell, of which only the low byte is the same.
-/
inductive SameReason : Outcome → Outcome → Prop
  | continued : SameReason .continued .continued
  | normal : SameReason (.halted .normal) (.halted .normal)
  | error {fault : Fault} {pc pointer : Position} {operator : Operator} {cell? cell?' : Option Nat}
      (lowByte : cell?'.map (· % 256) = cell?.map (· % 256)) :
      SameReason (.halted (.error ⟨fault, pc, operator, pointer, cell?⟩))
        (.halted (.error ⟨fault, pc, operator, pointer, cell?'⟩))

/-- The outcomes are alike, and the machines behind them up to the sizes of their cells. -/
structure SameUpToSize (result other : Outcome × Machine) : Prop where
  reason : SameReason result.1 other.1
  bytes : SameBytes result.2 other.2

namespace SameBytes

theorem blank (size size' : CellSize) (length : Nat) (channel : Channel) :
    SameBytes ⟨{ tape := .blank size length }, channel⟩
      ⟨{ tape := .blank size' length }, channel⟩ where
  running := rfl
  pc := rfl
  pointer := rfl
  channel := rfl
  length := (Tape.length_blank size' length).trans (Tape.length_blank size length).symm
  lowByte _ := rfl

/-! ### Changes that both make -/

theorem goneTo (same : SameBytes machine other) (pc : Position) :
    SameBytes (machine.goneTo pc) (other.goneTo pc) :=
  ⟨same.running, rfl, same.pointer, same.channel, same.length, same.lowByte⟩

theorem stopped (same : SameBytes machine other) : SameBytes machine.stopped other.stopped :=
  ⟨rfl, same.pc, same.pointer, same.channel, same.length, same.lowByte⟩

theorem movedTo (same : SameBytes machine other) (index : Nat) :
    SameBytes (machine.movedTo index) (other.movedTo index) :=
  ⟨same.running, congrArg Position.next same.pc, rfl, same.channel, same.length, same.lowByte⟩

theorem withChannel (same : SameBytes machine other) (channel : Channel) :
    SameBytes { machine with channel } { other with channel } :=
  ⟨same.running, same.pc, same.pointer, rfl, same.length, same.lowByte⟩

/-- Values with the same low byte may be stored in a cell of either size. -/
theorem storedAt (same : SameBytes machine other) (value_eq : value' % 256 = value % 256)
    (index : Nat) : SameBytes (machine.storedAt index value) (other.storedAt index value') where
  running := same.running
  pc := congrArg Position.next same.pc
  pointer := same.pointer
  channel := same.channel
  length := by
    show (other.runtime.tape.write index value').length =
      (machine.runtime.tape.write index value).length
    rw [Tape.length_write, Tape.length_write, same.length]
  lowByte another := by
    show (other.runtime.tape.write index value').lowByte? another =
      (machine.runtime.tape.write index value).lowByte? another
    rw [Tape.lowByte?_write, Tape.lowByte?_write, same.lowByte another, value_eq]

/-! ### Instructions -/

theorem cell?_lowByte (same : SameBytes machine other) :
    other.runtime.cell?.map (· % 256) = machine.runtime.cell?.map (· % 256) := by
  rw [Runtime.cell?, Runtime.cell?, same.pointer]
  cases machine.runtime.pointer.index? with
  | none => rfl
  | some index => exact same.lowByte index

theorem exists_cell (same : SameBytes machine other)
    (cell_eq : machine.runtime.tape.cell? index = some value) :
    ∃ value', other.runtime.tape.cell? index = some value' ∧ value' % 256 = value % 256 := by
  have low := same.lowByte index
  rw [Tape.lowByte?, Tape.lowByte?, cell_eq] at low
  exact Option.map_eq_some_iff.mp low

theorem fail (same : SameBytes machine other) (operator : Operator) (fault : Fault) :
    SameUpToSize (.halted (.error (machine.errorOf operator fault)), machine.stopped)
      (.halted (.error (other.errorOf operator fault)), other.stopped) := by
  refine ⟨?_, same.stopped⟩
  rw [errorOf, errorOf, same.pc, same.pointer]
  exact .error same.cell?_lowByte

/-- Only a bracket can tell more of a cell than its low byte. -/
theorem step (same : SameBytes machine other) (pointer_eq : machine.runtime.pointer = .index index)
    (cell_eq : machine.runtime.tape.cell? index = some value) {operator : Operator}
    (notStart : operator ≠ .loopStart) (notEnd : operator ≠ .loopEnd) (atEnd : Int)
    (target : Position) :
    SameUpToSize (machine.step (.finite atEnd) operator target)
      (other.step (.finite atEnd) operator target) := by
  have pointer_eq' : other.runtime.pointer = .index index := same.pointer.trans pointer_eq
  obtain ⟨value', cell_eq', value_eq⟩ := same.exists_cell cell_eq
  cases operator with
  | finish => exact ⟨.normal, same.stopped⟩
  | moveRight =>
      rcases Nat.lt_or_ge (index + 1) machine.runtime.tape.length with inside | last
      · rw [step_moveRight pointer_eq inside, step_moveRight pointer_eq' (same.length ▸ inside)]
        exact ⟨.continued, same.movedTo _⟩
      · rw [step_moveRight_last pointer_eq last,
          step_moveRight_last pointer_eq' (same.length ▸ last), same.length]
        exact same.fail _ _
  | moveLeft =>
      cases index with
      | zero =>
          rw [step_moveLeft_first pointer_eq, step_moveLeft_first pointer_eq']
          exact same.fail _ _
      | succ left =>
          rw [step_moveLeft pointer_eq, step_moveLeft pointer_eq']
          exact ⟨.continued, same.movedTo left⟩
  | increment =>
      rw [step_increment pointer_eq cell_eq, step_increment pointer_eq' cell_eq']
      refine ⟨.continued, same.storedAt ?_ index⟩
      rw [Tape.mod_modulus_mod, Tape.mod_modulus_mod]
      omega
  | decrement =>
      rw [step_decrement pointer_eq cell_eq, step_decrement pointer_eq' cell_eq']
      refine ⟨.continued, same.storedAt ?_ index⟩
      rw [Tape.mod_modulus_mod, Tape.mod_modulus_mod, Tape.add_modulus_sub_mod,
        Tape.add_modulus_sub_mod]
      omega
  | output =>
      have byte_eq : value'.toUInt8 = value.toUInt8 :=
        UInt8.toNat_inj.mp (UInt8.toNat_ofNat.trans (value_eq.trans UInt8.toNat_ofNat.symm))
      rw [step_output pointer_eq cell_eq, step_output pointer_eq' cell_eq', same.channel,
        same.pc, byte_eq]
      exact ⟨.continued, (same.withChannel _).goneTo _⟩
  | input =>
      cases pending_eq : machine.channel.pending with
      | nil =>
          have pending_eq' : other.channel.pending = [] := same.channel ▸ pending_eq
          rw [step_input_nil pointer_eq pending_eq, step_input_nil pointer_eq' pending_eq']
          refine ⟨.continued, same.storedAt ?_ index⟩
          exact (residue_mod _ atEnd).trans (residue_mod _ atEnd).symm
      | cons byte rest =>
          have pending_eq' : other.channel.pending = byte :: rest := same.channel ▸ pending_eq
          rw [step_input_cons pointer_eq pending_eq, step_input_cons pointer_eq' pending_eq',
            same.channel]
          exact ⟨.continued, (same.withChannel _).storedAt rfl index⟩
  | loopStart => exact absurd rfl notStart
  | loopEnd => exact absurd rfl notEnd

theorem instruction_eq (same : SameBytes machine other) :
    other.runtime.instruction program = machine.runtime.instruction program := by
  rw [Runtime.instruction, Runtime.instruction, same.pc]

theorem stepIn (same : SameBytes machine other) (inRange : machine.runtime.InRange program)
    (loopless : program.Loopless) (atEnd : Int) :
    SameUpToSize (machine.stepIn program (.finite atEnd))
      (other.stepIn program (.finite atEnd)) := by
  obtain ⟨pointer, value, pointer_eq, cell_eq, -⟩ := inRange.exists_cell
  obtain ⟨pc, pc_eq, found⟩ := inRange.instruction
  have member : (machine.runtime.instruction program).operator ∈ program.operatorColumn :=
    List.mem_map_of_mem (List.mem_of_getElem? (Array.getElem?_toList.trans found))
  rw [Machine.stepIn, Machine.stepIn, same.instruction_eq]
  exact same.step pointer_eq cell_eq (ne_of_mem_of_not_mem member loopless.1)
    (ne_of_mem_of_not_mem member loopless.2) atEnd _

/-! ### Runs -/

/-- A program without brackets does the same on both machines. -/
theorem run {row : List Operator} (encodes : program.Encodes row) (loopless : program.Loopless)
    (same : SameBytes machine other) (inRange : machine.runtime.InRange program) (atEnd : Int)
    (count : Nat) :
    SameUpToSize (machine.run program (.finite atEnd) count)
      (other.run program (.finite atEnd) count) := by
  induction count, machine using count_induction program (.finite atEnd) generalizing other with
  | zero machine => exact ⟨.continued, same⟩
  | continued count machine next stepped ih =>
      have reached := inRange.stepIn encodes (.finite atEnd)
      have alike := same.stepIn inRange loopless atEnd
      generalize stepped' : other.stepIn program (.finite atEnd) = result at alike
      obtain ⟨outcome, next'⟩ := result
      rw [stepped] at reached alike
      cases alike.reason
      rw [run_succ_of_continued stepped, run_succ_of_continued stepped']
      exact ih alike.bytes reached
  | halted count machine halt final stepped =>
      have alike := same.stepIn inRange loopless atEnd
      generalize stepped' : other.stepIn program (.finite atEnd) = result at alike
      obtain ⟨outcome, final'⟩ := result
      rw [stepped] at alike
      obtain ⟨halt', rfl⟩ : ∃ halt', outcome = .halted halt' := by
        cases alike.reason <;> exact ⟨_, rfl⟩
      rw [run_succ_of_halted stepped, run_succ_of_halted stepped']
      exact alike

end SameBytes

/--
The cell size is invisible to a program without brackets.  On new tapes of one length,
with cells of any two sizes, the same end of input and the same pending bytes, any number
of steps has an outcome of the same kind and for the same reason; program counter,
pointer, written bytes and pending input are the same then, and so is every cell
modulo 256.
-/
theorem cell_size_is_invisible {limits : Program.Limits} {source : String}
    {values values' length : Number} {tape tape' : Tape}
    (compiled : Program.compile limits source = .ok program)
    (noStart : '[' ∉ source.toList) (noEnd : ']' ∉ source.toList)
    (created : Tape.ofSizes values length = .ok tape)
    (created' : Tape.ofSizes values' length = .ok tape') (nonempty : 1 ≤ tape.length)
    (atEnd : Int) (pending : List UInt8) (count : Nat) :
    SameUpToSize (run program (.finite atEnd) count ⟨{ tape }, { pending }⟩)
      (run program (.finite atEnd) count ⟨{ tape := tape' }, { pending }⟩) := by
  obtain ⟨size, cells, -, cells_eq, rfl⟩ := Tape.exists_blank_of_ofSizes created
  obtain ⟨size', cells', -, cells_eq', rfl⟩ := Tape.exists_blank_of_ofSizes created'
  cases cells_eq.symm.trans cells_eq'
  have encodes := Program.encodes_of_compile compiled
  have positive : 1 ≤ cells := by simpa using nonempty
  have inRange : ({ tape := .blank size cells } : Runtime).InRange program :=
    Runtime.InRange.blank (by rw [encodes.count_eq]; omega) size positive
  exact (SameBytes.blank size size' cells { pending }).run encodes
    (Program.loopless_of_compile compiled noStart noEnd) inRange atEnd count

/-- A byte, the end of the input below 0, and a move off the only cell, at all three sizes. -/
theorem cell_size_is_invisible_below_zero :
    ∃ program, Program.compile {} ",.,-.>" = .ok program ∧
      Tape.ofSizes (.finite 256) (.finite 1) = .ok ⟨.bits8, #[0]⟩ ∧
      Tape.ofSizes (.finite 65536) (.finite 1) = .ok ⟨.bits16, #[0]⟩ ∧
      Tape.ofSizes (.finite 4294967296) (.finite 1) = .ok ⟨.bits32, #[0]⟩ ∧
      SameUpToSize
        (run program (.finite (-1 : Int)) 6 ⟨{ tape := ⟨.bits8, #[0]⟩ }, { pending := [7] }⟩)
        (run program (.finite (-1 : Int)) 6 ⟨{ tape := ⟨.bits16, #[0]⟩ }, { pending := [7] }⟩) ∧
      SameUpToSize
        (run program (.finite (-1 : Int)) 6 ⟨{ tape := ⟨.bits16, #[0]⟩ }, { pending := [7] }⟩)
        (run program (.finite (-1 : Int)) 6 ⟨{ tape := ⟨.bits32, #[0]⟩ }, { pending := [7] }⟩) := by
  obtain ⟨program, compiled⟩ : ∃ program, Program.compile {} ",.,-.>" = .ok program := ⟨_, rfl⟩
  have small : Tape.ofSizes (.finite 256) (.finite 1) = .ok ⟨.bits8, #[0]⟩ := by decide
  have medium : Tape.ofSizes (.finite 65536) (.finite 1) = .ok ⟨.bits16, #[0]⟩ := by decide
  have large : Tape.ofSizes (.finite 4294967296) (.finite 1) = .ok ⟨.bits32, #[0]⟩ := by decide
  exact ⟨program, compiled, small, medium, large,
    cell_size_is_invisible compiled (by decide) (by decide) small medium (by decide) (-1) [7] 6,
    cell_size_is_invisible compiled (by decide) (by decide) medium large (by decide) (-1) [7] 6⟩

end Machine

end TapeDebugger
