import TapeDebugger.Proofs.Loop.Layout
import TapeDebugger.Proofs.Loop.Mirror
import TapeDebugger.Proofs.Machine.Range

/-!
# Programs execute blocks

A compiled program, run from its start on a blank tape, does what the block of
its source does.  The machine halts exactly if the execution of the block ends,
and then both end the same way in the same state.
-/

namespace TapeDebugger

namespace Block

open Program (Limits compile)

variable {program : Program} {modulus : Nat} {atEnd : Int} {machine next : Machine}

/-! ## Brackets -/

/-- An opening bracket goes into its loop or behind it. -/
theorem stepIn_loopStart (atEnd : Int) {world : World} {first last : Nat}
    (mirrors : Mirrors modulus world machine) (pc_eq : machine.runtime.pc = .index first)
    (has : program.Has first .loopStart last) :
    machine.stepIn program (.finite atEnd) =
      (.continued,
        machine.goneTo (.index (if world.current = 0 then last + 1 else first + 1))) := by
  rw [Machine.stepIn_of_has pc_eq has, Machine.step_loopStart mirrors.pointer_eq mirrors.cell?_eq,
    pc_eq]
  split <;> rfl

theorem stepIn_loopEnd (atEnd : Int) {world : World} {first last : Nat}
    (mirrors : Mirrors modulus world machine) (pc_eq : machine.runtime.pc = .index last)
    (has : program.Has last .loopEnd first) :
    machine.stepIn program (.finite atEnd) =
      (.continued,
        machine.goneTo (.index (if world.current = 0 then last + 1 else first + 1))) := by
  rw [Machine.stepIn_of_has pc_eq has, Machine.step_loopEnd mirrors.pointer_eq mirrors.cell?_eq,
    pc_eq]
  split <;> rfl

/-- At the end of a loop the machine steps as if it stood at the start of the loop. -/
theorem stepIn_goneTo_loopStart (atEnd : Int) {world : World} {first last : Nat}
    (mirrors : Mirrors modulus world machine) (pc_eq : machine.runtime.pc = .index last)
    (opens : program.Has first .loopStart last) (closes : program.Has last .loopEnd first) :
    machine.stepIn program (.finite atEnd) =
      (machine.goneTo (.index first)).stepIn program (.finite atEnd) := by
  rw [stepIn_loopEnd atEnd mirrors pc_eq closes,
    stepIn_loopStart atEnd (mirrors.goneTo _) rfl opens]
  rfl

theorem pc_ne_behind_loop {body rest : Block} (machine : Machine) (start : Nat) :
    (machine.goneTo (.index start)).runtime.pc ≠ .index (start + (loop body rest).size) := by
  intro same
  injection same with same
  rw [size_loop] at same
  omega

/-! ## From blocks to runs -/

/-- A run comes to an index in the state of a world, or halts off an end of the tape in it. -/
def Arrives (program : Program) (modulus : Nat) (atEnd : Int) (machine : Machine) (target : Nat) :
    Ending → World → Prop
  | .finished, final =>
      ∃ count arrived, machine.run program (.finite atEnd) count = (.continued, arrived) ∧
        Mirrors modulus final arrived ∧ arrived.runtime.pc = .index target
  | .ranOff edge, final =>
      ∃ count error halted,
        machine.run program (.finite atEnd) count = (.halted (.error error), halted) ∧
        Mirrors modulus final halted ∧ error.fault.edge = edge

/-- What a run leads to, a longer one that begins with other steps leads to. -/
theorem Arrives.of_run {first target : Nat} {ending : Ending} {final : World}
    (arrives : Arrives program modulus atEnd next target ending final)
    (ran : machine.run program (.finite atEnd) first = (.continued, next)) :
    Arrives program modulus atEnd machine target ending final := by
  cases ending with
  | finished =>
      obtain ⟨count, arrived, rest, mirrors, pc_eq⟩ := arrives
      exact ⟨first + count, arrived, by rw [Machine.run_add_of_continued ran, rest], mirrors, pc_eq⟩
  | ranOff edge =>
      obtain ⟨count, error, halted, rest, mirrors, edge_eq⟩ := arrives
      exact ⟨first + count, error, halted, by rw [Machine.run_add_of_continued ran, rest], mirrors,
        edge_eq⟩

theorem Arrives.of_step {target : Nat} {ending : Ending} {final : World}
    (arrives : Arrives program modulus atEnd next target ending final)
    (stepped : machine.stepIn program (.finite atEnd) = (.continued, next)) :
    Arrives program modulus atEnd machine target ending final := by
  have ran : machine.run program (.finite atEnd) 1 = (.continued, next) := by
    rw [Machine.run_succ_of_continued stepped, Machine.run]
  exact arrives.of_run ran

/-- A machine away from its target may be replaced by one that steps like it. -/
theorem Arrives.of_stepIn_eq {other : Machine} {target : Nat} {ending : Ending} {final : World}
    (arrives : Arrives program modulus atEnd other target ending final)
    (away : other.runtime.pc ≠ .index target)
    (same : machine.stepIn program (.finite atEnd) = other.stepIn program (.finite atEnd)) :
    Arrives program modulus atEnd machine target ending final := by
  cases ending with
  | finished =>
      obtain ⟨count, arrived, ran, mirrors, pc_eq⟩ := arrives
      cases count with
      | zero =>
          cases ran
          exact absurd pc_eq away
      | succ count =>
          exact ⟨count + 1, arrived, by rw [Machine.run_succ_congr same, ran], mirrors, pc_eq⟩
  | ranOff edge =>
      obtain ⟨count, error, halted, ran, mirrors, edge_eq⟩ := arrives
      cases count with
      | zero => cases ran
      | succ count =>
          exact ⟨count + 1, error, halted, by rw [Machine.run_succ_congr same, ran], mirrors,
            edge_eq⟩

/-- What executing a block comes to, a run from its start comes to behind it. -/
theorem arrives_of_executes {block : Block} {world final : World} {ending : Ending}
    (executes : block.Executes modulus atEnd world ending final) {start : Nat}
    (laid : block.Laid program start) (mirrors : Mirrors modulus world machine)
    (pc_eq : machine.runtime.pc = .index start) :
    Arrives program modulus atEnd machine (start + block.size) ending final := by
  -- A loop is executed again from its start, while the machine jumps from its end into the body;
  -- both do the same step.
  induction executes generalizing start machine with
  | done world => exact ⟨0, machine, rfl, mirrors, pc_eq⟩
  | @act action rest _ _ _ _ performed _ ih =>
      obtain ⟨⟨operand, has⟩, laidRest⟩ := laid
      obtain ⟨next, stepped, mirrors', pc_eq'⟩ := mirrors.step_of_perform performed (.index operand)
      rw [pc_eq, Machine.Position.next_index] at pc_eq'
      have arrives := ih laidRest mirrors' pc_eq'
      rw [show start + 1 + rest.size = start + (act action rest).size by
        rw [size_act]; omega] at arrives
      exact arrives.of_step (by rw [Machine.stepIn_of_has pc_eq has, stepped])
  | edge refused =>
      obtain ⟨⟨operand, has⟩, _⟩ := laid
      obtain ⟨error, stepped, edge_eq⟩ := mirrors.step_of_refused refused (.index operand)
      rw [← Machine.stepIn_of_has pc_eq has] at stepped
      exact ⟨1, error, _, Machine.run_succ_of_halted stepped 0, mirrors.stopped, edge_eq⟩
  | @skip body rest world _ _ zero _ ih =>
      obtain ⟨opens, _, _, laidRest⟩ := laid
      have stepped := stepIn_loopStart atEnd mirrors pc_eq opens
      rw [if_pos zero] at stepped
      have arrives := ih laidRest (mirrors.goneTo _) rfl
      rw [show start + 1 + body.size + 1 + rest.size = start + (loop body rest).size by
        rw [size_loop]; omega] at arrives
      exact arrives.of_step stepped
  | @again body rest world _ _ _ nonzero _ _ ihBody ihLoop =>
      have ⟨opens, laidBody, closes, _⟩ := laid
      have stepped := stepIn_loopStart atEnd mirrors pc_eq opens
      rw [if_neg nonzero] at stepped
      obtain ⟨count, back, ran, mirrorsBack, pcBack⟩ := ihBody laidBody (mirrors.goneTo _) rfl
      have repeated := ihLoop laid (mirrorsBack.goneTo (.index start)) rfl
      have same := stepIn_goneTo_loopStart atEnd mirrorsBack pcBack opens closes
      have arrives := repeated.of_stepIn_eq (pc_ne_behind_loop _ _) same
      exact (arrives.of_run ran).of_step stepped
  | @inside body rest _ final edge nonzero _ ih =>
      obtain ⟨opens, laidBody, _, _⟩ := laid
      have stepped := stepIn_loopStart atEnd mirrors pc_eq opens
      rw [if_neg nonzero] at stepped
      obtain ⟨count, error, halted, ran⟩ := ih laidBody (mirrors.goneTo _) rfl
      have arrives : Arrives program modulus atEnd (machine.goneTo (.index (start + 1)))
          (start + (loop body rest).size) (.ranOff edge) final := ⟨count, error, halted, ran⟩
      exact arrives.of_step stepped

/-! ## From runs to blocks -/

/--
The execution of a block accounts for a run: the run comes to an index within a
count and the block has finished there, or the block has left the tape.
-/
def Accounts (program : Program) (modulus : Nat) (atEnd : Int) (block : Block) (world : World)
    (machine : Machine) (target count : Nat) : Prop :=
  (∃ used arrived after, used ≤ count ∧
    machine.run program (.finite atEnd) used = (.continued, arrived) ∧
    arrived.runtime.pc = .index target ∧ Mirrors modulus after arrived ∧
    block.Executes modulus atEnd world .finished after) ∨
  ∃ edge after, block.Executes modulus atEnd world (.ranOff edge) after

theorem Accounts.of_run {inner block : Block} {world between : World} {first target count : Nat}
    (accounts : Accounts program modulus atEnd inner between next target count)
    (ran : machine.run program (.finite atEnd) first = (.continued, next))
    (lift : ∀ ending after, inner.Executes modulus atEnd between ending after →
      block.Executes modulus atEnd world ending after) :
    Accounts program modulus atEnd block world machine target (first + count) := by
  rcases accounts with ⟨used, arrived, after, le, rest, pc_eq, mirrors, executes⟩ |
    ⟨edge, after, executes⟩
  · exact Or.inl ⟨first + used, arrived, after, Nat.add_le_add_left le first,
      by rw [Machine.run_add_of_continued ran, rest], pc_eq, mirrors, lift _ _ executes⟩
  · exact Or.inr ⟨edge, after, lift _ _ executes⟩

theorem Accounts.of_step {inner block : Block} {world between : World} {target count : Nat}
    (accounts : Accounts program modulus atEnd inner between next target count)
    (stepped : machine.stepIn program (.finite atEnd) = (.continued, next))
    (lift : ∀ ending after, inner.Executes modulus atEnd between ending after →
      block.Executes modulus atEnd world ending after) :
    Accounts program modulus atEnd block world machine target (count + 1) := by
  rw [Nat.add_comm]
  exact accounts.of_run (by rw [Machine.run_succ_of_continued stepped, Machine.run]) lift

theorem Accounts.of_stepIn_eq {other : Machine} {block : Block} {world : World}
    {target count : Nat} (accounts : Accounts program modulus atEnd block world other target count)
    (away : other.runtime.pc ≠ .index target)
    (same : machine.stepIn program (.finite atEnd) = other.stepIn program (.finite atEnd)) :
    Accounts program modulus atEnd block world machine target count := by
  rcases accounts with ⟨used, arrived, after, le, ran, pc_eq, rest⟩ | leaves
  · cases used with
    | zero =>
        cases ran
        exact absurd pc_eq away
    | succ used =>
        exact Or.inl ⟨used + 1, arrived, after, le, by rw [Machine.run_succ_congr same, ran],
          pc_eq, rest⟩
  · exact Or.inr leaves

/-- A run that halts from the start of a block is accounted for by the block. -/
theorem accounts_of_halted {count : Nat} {block : Block} {world : World} {start : Nat}
    {halt : Machine.Halt} {final : Machine} (laid : block.Laid program start)
    (mirrors : Mirrors modulus world machine) (pc_eq : machine.runtime.pc = .index start)
    (ran : machine.run program (.finite atEnd) count = (.halted halt, final)) :
    Accounts program modulus atEnd block world machine (start + block.size) count := by
  -- Every part of a block takes a step off the count, also the way back to the start of a loop.
  induction count using Nat.strong_induction_on generalizing block world start machine with
  | _ count ih =>
      cases block with
      | done => exact Or.inl ⟨0, machine, world, Nat.zero_le _, rfl, pc_eq, mirrors, .done world⟩
      | act action rest =>
          obtain ⟨⟨operand, has⟩, laidRest⟩ := laid
          cases performed : action.perform modulus atEnd world with
          | error edge => exact Or.inr ⟨edge, world, .edge performed⟩
          | ok next =>
              obtain ⟨after, stepped, mirrors', pc_eq'⟩ :=
                mirrors.step_of_perform performed (.index operand)
              rw [pc_eq, Machine.Position.next_index] at pc_eq'
              rw [← Machine.stepIn_of_has pc_eq has] at stepped
              cases count with
              | zero => cases ran
              | succ count =>
                  rw [Machine.run_succ_of_continued stepped] at ran
                  have accounts := ih count (Nat.lt_succ_self _) laidRest mirrors' pc_eq' ran
                  rw [show start + 1 + rest.size = start + (act action rest).size by
                    rw [size_act]; omega] at accounts
                  exact accounts.of_step stepped fun _ _ executes => .act performed executes
      | loop body rest =>
          have ⟨opens, laidBody, closes, laidRest⟩ := laid
          have stepped := stepIn_loopStart atEnd mirrors pc_eq opens
          cases count with
          | zero => cases ran
          | succ count =>
              rw [Machine.run_succ_of_continued stepped] at ran
              by_cases zero : world.current = 0
              · rw [if_pos zero] at stepped ran
                have accounts := ih count (Nat.lt_succ_self _) laidRest (mirrors.goneTo _) rfl ran
                rw [show start + 1 + body.size + 1 + rest.size = start + (loop body rest).size by
                  rw [size_loop]; omega] at accounts
                exact accounts.of_step stepped fun _ _ executes => .skip zero executes
              · rw [if_neg zero] at stepped ran
                rcases ih count (Nat.lt_succ_self _) laidBody (mirrors.goneTo _) rfl ran with
                  ⟨used, back, between, le, ranBody, pcBack, mirrorsBack, once⟩ |
                  ⟨edge, after, executes⟩
                · obtain ⟨left, rfl⟩ := Nat.exists_eq_add_of_le le
                  rw [Machine.run_add_of_continued ranBody] at ran
                  have same := stepIn_goneTo_loopStart atEnd mirrorsBack pcBack opens closes
                  cases left with
                  | zero => cases ran
                  | succ left =>
                      rw [Machine.run_succ_congr same] at ran
                      have repeated := ih (left + 1) (by omega) laid (mirrorsBack.goneTo _) rfl ran
                      have accounts := repeated.of_stepIn_eq (pc_ne_behind_loop _ _) same
                      exact (accounts.of_run ranBody fun _ _ => id).of_step stepped
                        fun _ _ executes => .again zero once executes
                · exact Or.inr ⟨edge, after, .inside zero executes⟩

/-! ## Whole programs -/

def startOn (tape : Machine.Tape) (pending : List UInt8) : Machine :=
  ⟨{ tape }, { pending }⟩

theorem blank_of_ofSizes {values length : Number} {tape : Machine.Tape}
    (created : Machine.Tape.ofSizes values length = .ok tape) :
    tape.cells = Array.replicate tape.length 0 := by
  obtain ⟨cellSize, cells, -, -, rfl⟩ := Machine.Tape.exists_blank_of_ofSizes created
  simp [Machine.Tape.blank, Machine.Tape.length]

/-- On a new tape a machine starts in the state of a fresh world. -/
theorem mirrors_startOn {values length : Number} {tape : Machine.Tape} (pending : List UInt8)
    (created : Machine.Tape.ofSizes values length = .ok tape) (nonempty : 1 ≤ tape.length) :
    Mirrors tape.modulus (World.fresh tape.length pending) (startOn tape pending) := by
  refine ⟨rfl, rfl, ?_, rfl, rfl⟩
  obtain ⟨more, more_eq⟩ := Nat.exists_eq_add_of_le nonempty
  change tape.cells.toList = _
  rw [blank_of_ofSizes created, Array.toList_replicate, more_eq, Nat.add_comm]
  rfl

/-- Behind its block a program halts normally. -/
theorem halts_of_executes {block : Block} {world final : World} {ending : Ending}
    (encodes : program.Encodes block.operators)
    (executes : block.Executes modulus atEnd world ending final)
    (mirrors : Mirrors modulus world machine) (pc_eq : machine.runtime.pc = .index 0) :
    ∃ count halt halted, machine.run program (.finite atEnd) count = (.halted halt, halted) ∧
      halt.ending = ending ∧ Mirrors modulus final halted := by
  obtain ⟨laid, operand, has⟩ := laid_at_start encodes
  have arrives := arrives_of_executes executes laid mirrors pc_eq
  rw [Nat.zero_add] at arrives
  cases ending with
  | finished =>
      obtain ⟨count, arrived, ran, mirrors', pc_eq'⟩ := arrives
      have stepped : arrived.stepIn program (.finite atEnd) =
          (.halted .normal, arrived.stopped) := by
        rw [Machine.stepIn_of_has pc_eq' has, Machine.step_finish]
      refine ⟨count + 1, .normal, arrived.stopped, ?_, rfl, mirrors'.stopped⟩
      rw [Machine.run_add_of_continued ran, Machine.run_succ_of_halted stepped]
  | ranOff edge =>
      obtain ⟨count, error, halted, ran, mirrors', edge_eq⟩ := arrives
      exact ⟨count, .error error, halted, ran, congrArg Ending.ranOff edge_eq, mirrors'⟩

/--
A source that compiles is the row of exactly one block, and the program, run
from its start on a new tape, does what the block does on a fresh world.  It
halts under some count exactly if the execution of the block ends.  Then the two
end alike, with the same pointer and cells, the same bytes written and the same
input left.
-/
theorem compiled_program_executes_block {limits : Limits} {source : String}
    {values length : Number} {tape : Machine.Tape} (compiled : compile limits source = .ok program)
    (created : Machine.Tape.ofSizes values length = .ok tape) (nonempty : 1 ≤ tape.length)
    (atEnd : Int) (pending : List UInt8) :
    ∃ block : Block,
      (∀ other : Block, other.operators = Program.operators source.toList ↔ other = block) ∧
      ((∃ count halt halted, (startOn tape pending).run program (.finite atEnd) count =
          (.halted halt, halted)) ↔
        ∃ ending final,
          block.Executes tape.modulus atEnd (World.fresh tape.length pending) ending final) ∧
      ∀ count halt halted ending final,
        (startOn tape pending).run program (.finite atEnd) count = (.halted halt, halted) →
        block.Executes tape.modulus atEnd (World.fresh tape.length pending) ending final →
        halt.ending = ending ∧
          halted.runtime.pointer = .index final.pointer ∧
          halted.runtime.tape.cells.toList = final.cells ∧
          halted.channel.output.toList = final.written ∧
          halted.channel.pending = final.input := by
  have encodes := Program.encodes_of_compile compiled
  obtain ⟨_, balanced⟩ := Program.fine_of_compile compiled
  obtain ⟨block, row_eq⟩ := exists_operators_eq balanced encodes.finish_notMem
  rw [← row_eq] at encodes
  have mirrors := mirrors_startOn pending created nonempty
  refine ⟨block, ?_, ⟨?_, ?_⟩, ?_⟩
  · intro other
    rw [← row_eq]
    exact ⟨operators_injective, congrArg operators⟩
  · rintro ⟨count, halt, halted, ran⟩
    rcases accounts_of_halted (laid_at_start encodes).1 mirrors rfl ran with
      ⟨_, _, final, _, _, _, _, executes⟩ | ⟨edge, final, executes⟩
    · exact ⟨.finished, final, executes⟩
    · exact ⟨.ranOff edge, final, executes⟩
  · rintro ⟨ending, final, executes⟩
    obtain ⟨count, halt, halted, ran, _⟩ := halts_of_executes encodes executes mirrors rfl
    exact ⟨count, halt, halted, ran⟩
  · intro count halt halted ending final ran executes
    obtain ⟨_, halt', halted', ran', ending_eq, mirrors'⟩ :=
      halts_of_executes encodes executes mirrors rfl
    obtain ⟨rfl, rfl⟩ := Machine.halted_unique ran ran'
    exact ⟨ending_eq, mirrors'.pointer_eq, mirrors'.cells_eq, mirrors'.output_eq,
      mirrors'.pending_eq⟩

/-- The program of a loop that reads on to the right. -/
def readRight : Program where
  instructions :=
    #[⟨.increment, 0, ⟨1, 1⟩⟩, ⟨.loopStart, 4, ⟨1, 2⟩⟩, ⟨.input, 0, ⟨1, 3⟩⟩,
      ⟨.moveRight, 0, ⟨1, 4⟩⟩, ⟨.loopEnd, 1, ⟨1, 5⟩⟩, ⟨.finish, 0, ⟨1, 6⟩⟩]
  capacity := 4096

/-- On a tape of one cell, reading on to the right ends off the tape with one byte read. -/
theorem block_runs_off_one_cell :
    compile {} "+[,>]" = .ok readRight ∧
      Machine.Tape.ofSizes (.finite 256) (.finite 1) = .ok ⟨.bits8, #[0]⟩ ∧
      ∃ block : Block, block.operators = Program.operators "+[,>]".toList ∧
        ∃ final, block.Executes 256 0 (World.fresh 1 [7, 8]) (.ranOff .right) final ∧
          final.cells = [7] ∧ final.input = [8] := by
  have compiled : compile {} "+[,>]" = .ok readRight := by decide
  have created : Machine.Tape.ofSizes (.finite 256) (.finite 1) = .ok ⟨.bits8, #[0]⟩ := by decide
  obtain ⟨block, row, halts, agree⟩ :=
    compiled_program_executes_block compiled created (by decide) 0 [7, 8]
  obtain ⟨error, halted, ran, edge, cells, input⟩ : ∃ error halted,
      (startOn ⟨.bits8, #[0]⟩ [7, 8]).run readRight (.finite (0 : Int)) 4 =
        (.halted (.error error), halted) ∧
      error.fault = .pointerOverflow 1 ∧ halted.runtime.tape.cells.toList = [7] ∧
      halted.channel.pending = [8] := ⟨_, _, rfl, rfl, rfl, rfl⟩
  obtain ⟨ending, final, executes⟩ := halts.mp ⟨4, _, _, ran⟩
  obtain ⟨ending_eq, _, cells_eq, _, input_eq⟩ := agree _ _ _ _ _ ran executes
  rw [Machine.Halt.ending, edge] at ending_eq
  cases ending_eq
  exact ⟨compiled, created, block, (row block).mpr rfl, final, executes,
    cells_eq.symm.trans cells, input_eq.symm.trans input⟩

end Block

end TapeDebugger
