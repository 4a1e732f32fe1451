import TapeDebugger.Console.Basic
import TapeDebugger.Proofs.Session.Intake
import TapeDebugger.Proofs.Session.Refusal

/-!
# Jumps

A jump puts the program counter of a run elsewhere and changes nothing besides.
The prompt counts instructions from 1, as a jump does, so that what it shows after
a jump is the index that was asked for, and a jump to what it shows is none.  The
brackets of a compiled program point into it from everywhere, so a run also stays in
the program if it is put inside a loop that it has not entered.
-/

namespace TapeDebugger

open Machine (Execution Position Runtime)
open Program (Instruction)

namespace Session

variable {session : Session} {program : Program} {runtime : Runtime} {pc : Nat}

/-! ## One jump -/

theorem putAt_pc (running : session.phase = .running program runtime) :
    session.putAt program runtime runtime.pc = session := by
  rw [putAt, ← running]

/-- A jump to the instruction that is next is answered, and leaves the session as it was. -/
theorem jump_to_next (running : session.phase = .running program runtime)
    (pc_eq : runtime.pc = .index pc) (inside : pc < program.count) :
    session.jump (some (.finite runtime.pc.next.value)) =
      { answer := .ok pc, session, signals := [.published .running] } := by
  have same := jump_of_inside running inside
  rw [← pc_eq, putAt_pc running] at same
  rw [pc_eq]
  exact same

/-! ## Several jumps -/

/-- Wherever a jump goes, also if it is refused, it moves at most the program counter. -/
theorem exists_putAt_of_jump (session : Session) (program : Program) (runtime : Runtime)
    (position : Position) (index? : Option Number) :
    ∃ position', ((session.putAt program runtime position).jump index?).session =
      session.putAt program runtime position' := by
  have performs := performs_jump (session.putAt program runtime position) index?
  generalize ((session.putAt program runtime position).jump index?).session = next,
    ((session.putAt program runtime position).jump index?).events = events at performs ⊢
  cases performs with
  | refused => exact ⟨position, rfl⟩
  | paused goesOn => cases goesOn
  | halted goesOn => cases goesOn
  | @jumped _ program' runtime' pc running inside =>
      cases running
      exact ⟨.index pc, rfl⟩

/-- After any jumps, valid or not, a valid one leads where it leads without them. -/
theorem last_jump_decides (session : Session) (runtime : Runtime) (inside : pc < program.count)
    (others : List (Option Number)) (position : Position) :
    ∃ reply, (session.putAt program runtime position).performAll
        (others.map .jump ++ [.jump (some (.finite (pc + 1 : Nat)))]) = some reply ∧
      reply.session = session.putAt program runtime (.index pc) := by
  induction others generalizing position with
  | nil =>
      have landed := @jump_of_inside (session.putAt program runtime position) _ _ _ rfl inside
      refine ⟨_, rfl, ?_⟩
      show Reply.session (jump _ _) = _
      rw [landed]
      rfl
  | cons other others ih =>
      obtain ⟨position', first_eq⟩ :=
        session.exists_putAt_of_jump program runtime position other
      obtain ⟨reply, performed, landed⟩ := ih position'
      refine ⟨⟨(), reply.session,
        ((session.putAt program runtime position).jump other).signals ++ reply.signals⟩, ?_, landed⟩
      simp only [List.map_cons, List.cons_append, performAll, perform, Reply.withoutAnswer,
        first_eq, performed, Option.map_some]

/-! ## What is executed then -/

/-- An instruction of the program at the program counter, which is in range before and after it. -/
structure StaysIn (program : Program) (execution : Execution) : Prop where
  before : execution.before.runtime.InRange program
  fetched : ∃ pc, execution.before.runtime.pc = .index pc ∧
    program.instructions[pc]? = some execution.instruction
  after : execution.after.runtime.InRange program

/-- Whatever operation a run goes on with, all that is executed stays in the program. -/
theorem staysIn_of_sound (sound : session.phase.Sound)
    (executing : session.execution = .ok (program, runtime)) (operation : Operation) :
    ∀ execution ∈ session.executions operation, StaysIn program execution := by
  rw [phase_of_execution executing] at sound
  obtain ⟨compiled, inRange⟩ := sound
  obtain ⟨row, encodes⟩ := compiled.encodes
  have kept : ∀ machine : Machine, machine.runtime.InRange program →
      (machine.stepIn program session.eofValue).2.runtime.InRange program :=
    fun _ inRange => inRange.stepIn encodes session.eofValue
  intro execution found
  rw [executions_of_running executing] at found
  obtain ⟨reached, reachedInRange, rfl⟩ := Machine.forall_executions
    (motive := fun machine => machine.runtime.InRange program) kept inRange _ execution found
  exact ⟨reachedInRange, reachedInRange.instruction, kept reached reachedInRange⟩

/-- Every operation that executes anything begins with the instruction at the program counter. -/
theorem first_of_executions (executing : session.execution = .ok (program, runtime))
    {operation : Operation} (some_executed : 0 < session.bound operation) :
    ∃ rest, session.executions operation =
      (session.machineOf runtime).execution program session.eofValue :: rest := by
  obtain ⟨count, bound_eq⟩ := Nat.exists_eq_add_of_lt some_executed
  rw [executions_of_running executing, bound_eq, Nat.zero_add, Machine.executions]
  exact ⟨_, rfl⟩

/-! ## Prompts -/

/-- The prompt shows the index and the symbol of the instruction that is reported as the next. -/
theorem statusLine_of_reported {console : Console} {report : InstructionReport}
    (reported : console.session.currentInstruction = .ok report) :
    console.statusLine.1 = some s!"@{report.index.text}: {report.operator.symbol}" := by
  rw [Console.statusLine, reported]

/-! ## Landing -/

/-- The session stands at an instruction of its program, counted from 1, and goes on with it. -/
structure StandsAt (session : Session) (index : Nat) (instruction : Instruction) : Prop where
  running : session.status = .running
  reported : session.currentInstruction = .ok ⟨.index index, instruction.operator⟩
  shown : ∀ console : Console, console.session = session →
    console.statusLine.1 = some s!"@{(Position.index index).text}: {instruction.operator.symbol}"
  first : ∀ operation, 0 < session.bound operation →
    ∃ execution rest, session.executions operation = execution :: rest ∧
      execution.instruction = instruction
  stepped : ∀ program runtime, session.execution = .ok (program, runtime) →
    ∀ patience, session.next (.finite 1) patience =
      some (session.settle program
        ((session.machineOf runtime).step session.eofValue instruction.operator
          (.index instruction.operand)))
  within : ∀ operations reply program runtime, session.performAll operations = some reply →
    reply.session.execution = .ok (program, runtime) →
    runtime.InRange program ∧
      ∀ operation, ∀ execution ∈ reply.session.executions operation, StaysIn program execution

theorem standsAt_of_running (sound : session.Sound)
    (running : session.phase = .running program runtime) (pc_eq : runtime.pc = .index pc)
    {instruction : Instruction} (found : program.instructions[pc]? = some instruction) :
    session.StandsAt (pc + 1) instruction := by
  have executing := execution_of_running running
  have inside : pc < program.count := (Array.getElem?_eq_some_iff.mp found).1
  have fetched : runtime.instruction program = instruction := by
    have fetch_eq := Program.getElem?_eq_some_fetch inside
    rw [Runtime.instruction, pc_eq, ← Option.some.injEq, ← found]
    exact fetch_eq.symm
  have reported : session.currentInstruction = .ok ⟨.index (pc + 1), instruction.operator⟩ := by
    rw [currentInstruction_of_running running (sound.phase.running running).2, pc_eq, fetched,
      Position.next_index]
  refine
    { running := (state_of_running running).1
      reported
      shown := ?_
      first := ?_
      stepped := ?_
      within := ?_ }
  · rintro console rfl
    rw [statusLine_of_reported reported]
  · intro operation some_executed
    obtain ⟨rest, executions_eq⟩ := first_of_executions executing some_executed
    exact ⟨_, rest, executions_eq, fetched⟩
  · intro program' runtime' again patience
    cases executing.symm.trans again
    rw [next_one sound.phase running, Machine.stepIn]
    simp only [machineOf, fetched]
  · intro operations reply program' runtime' performed executing'
    have sound' : reply.session.Sound :=
      performAll_induction (fun _ _ _ sound performed =>
        sound.performs (performs_of_perform performed)) sound performed
    exact ⟨(sound'.phase.running (phase_of_execution executing')).2,
      staysIn_of_sound sound'.phase executing'⟩

/--
A jump to an index of the program is answered with the place of its instruction in the
program.  The program counter is there then, and tape, pointer, output, pending input
and whatever else a session has are what they were; the prompt shows the index, the run
goes on with its instruction, and whatever happens later, it stays in the program.  Jumps
before it make no difference.  A jump to the index that is shown changes nothing.
-/
theorem jump_is_inverse_to_prompt (reachable : session.Reachable)
    (executing : session.execution = .ok (program, runtime)) :
    (∀ index, 1 ≤ index → index ≤ program.count →
      ∃ instruction after, program.instructions[index - 1]? = some instruction ∧
        (session.jump (some (.finite index))).answer = .ok (index - 1) ∧
        (session.jump (some (.finite index))).session = after ∧
        after = { session with
          phase := .running program { runtime with pc := .index (index - 1) } } ∧
        after.StandsAt index instruction ∧
        ∀ others : List (Option Number), ∃ reply,
          session.performAll (others.map .jump ++ [.jump (some (.finite index))]) = some reply ∧
            reply.session = after) ∧
      ∃ report pc, session.currentInstruction = .ok report ∧
        (session.jump (some (.finite report.index.value))).answer = .ok pc ∧
        (session.jump (some (.finite report.index.value))).session = session := by
  have running := phase_of_execution executing
  have sound := reachable.sound
  obtain ⟨-, inRange⟩ := sound.phase.running running
  constructor
  · intro index positive last
    obtain ⟨pc, rfl⟩ := Nat.exists_eq_add_of_le' positive
    have inside : pc < program.count := last
    have landed := jump_of_inside running inside
    have found := Program.getElem?_eq_some_fetch inside
    have soundThere : (session.putAt program runtime (.index pc)).Sound :=
      sound.performs (@Performs.jumped session none _ _ _ running inside)
    refine ⟨_, _, found, congrArg Reply.answer landed, congrArg Reply.session landed, rfl, ?_, ?_⟩
    · exact standsAt_of_running soundThere rfl rfl found
    · intro others
      obtain ⟨reply, performed, reached⟩ :=
        session.last_jump_decides runtime inside others runtime.pc
      rw [putAt_pc running] at performed
      exact ⟨reply, performed, reached⟩
  · obtain ⟨pc, pc_eq, inside⟩ := inRange.pc
    have stays := jump_to_next running pc_eq inside
    exact ⟨_, pc, currentInstruction_of_running running inRange, congrArg Reply.answer stays,
      congrArg Reply.session stays⟩

/-- A session in front of a loop that its run would pass over. -/
def beforeLoop : Session where
  settings := { tapeSize := 2 }
  phase :=
    .running
      { instructions :=
          #[⟨.loopStart, 3, ⟨1, 1⟩⟩, ⟨.moveRight, 0, ⟨1, 2⟩⟩, ⟨.increment, 0, ⟨1, 3⟩⟩,
            ⟨.loopEnd, 0, ⟨1, 4⟩⟩, ⟨.finish, 0, ⟨1, 5⟩⟩]
        capacity := 4096 }
      { tape := ⟨.bits16, #[0, 0]⟩ }

/-- A run is put into a loop that it has not entered, and goes on there. -/
theorem jump_is_inverse_inside_loop :
    beforeLoop.Reachable ∧
      (beforeLoop.jump (some (.finite (3 : Nat)))).session.StandsAt 3 ⟨.increment, 0, ⟨1, 3⟩⟩ ∧
      (beforeLoop.jump (some (.finite (3 : Nat)))).session.phase.runtime? =
        some { pc := .index 2, tape := ⟨.bits16, #[0, 0]⟩ } := by
  have reachable : beforeLoop.Reachable := by
    refine ⟨.ofTexts [("interpreterTapeSize", "2")], [.load "[>+]" none, .run], ?_⟩
    decide +kernel
  obtain ⟨jumps, -⟩ := jump_is_inverse_to_prompt reachable rfl
  obtain ⟨instruction, after, found, -, landed, rfl, stands, -⟩ := jumps 3 (by decide) (by decide)
  cases found
  rw [landed]
  exact ⟨reachable, stands, rfl⟩

end Session

end TapeDebugger
