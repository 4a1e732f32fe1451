import TapeDebugger.Proofs.Machine.Halting
import TapeDebugger.Proofs.Session.Record
import TapeDebugger.Proofs.Session.Refusal

/-!
# Where a run ends and what is said about it

One instruction of a running session ends the run at the end of the program and where the
pointer would leave the tape.  An error tells what could be seen just before: the
instruction, the pointer and the cell.  Nothing else has changed then, and this holds
however many instructions come before the one that fails.
-/

namespace TapeDebugger

open Machine (Halt Outcome Runtime RuntimeError)

namespace Session

variable {session final : Session} {program : Program} {runtime : Runtime} {halt : Halt}
  {error : RuntimeError}

/-! ## Just before an instruction -/

/-- The instruction that is shown is one for the operator. -/
def IsAt (session : Session) (operator : Operator) : Prop :=
  ∃ report, session.currentInstruction = .ok report ∧ report.operator = operator

/-- The pointer that is shown is at the first cell. -/
def AtFirstCell (session : Session) : Prop :=
  session.dataPointer = .ok (.index 0)

/-- The pointer that is shown is at the last cell. -/
def AtLastCell (session : Session) : Prop :=
  ∃ runtime index, session.phase.runtime? = some runtime ∧
    session.dataPointer = .ok (.index index) ∧ index + 1 = runtime.tape.length

/-- The next instruction is the last of the program. -/
def AtLastInstruction (session : Session) : Prop :=
  ∃ program runtime index, session.phase = .running program runtime ∧
    runtime.pc = .index index ∧ index + 1 = program.count

/-! ## What an error tells -/

/--
The error tells what is shown before, and all that comes after is that the run is over: the
program counter, the pointer, the tape and the channel are the same.
-/
structure Diagnoses (before : Session) (error : RuntimeError) (after : Session) : Prop where
  instruction : before.currentInstruction = .ok ⟨error.pc.next, error.operator⟩
  pointer : before.dataPointer = .ok error.pointer
  cell : ∃ report value, before.cell none = .ok report ∧ report.index = error.pointer.value ∧
    report.value? = some value ∧ error.cell? = some value
  length : ∀ length, error.fault = .pointerOverflow length →
    ∃ runtime, before.phase.runtime? = some runtime ∧ runtime.tape.length = length
  kept : ∃ program runtime, before.phase = .running program runtime ∧
    after = { before with phase := .halted program runtime.stop (.error error) }

/-- One instruction of a session comes to the reply, which is told by what is shown before it. -/
structure HaltsExactly (session : Session) (reply : Reply (Except UserError Outcome)) : Prop where
  stepped : ∀ patience, session.next (.finite 1) patience = some reply
  overflow_iff : (∃ error length, reply.answer = .ok (.halted (.error error)) ∧
    error.fault = .pointerOverflow length) ↔ session.IsAt .moveRight ∧ session.AtLastCell
  underflow_iff : (∃ error, reply.answer = .ok (.halted (.error error)) ∧
    error.fault = .pointerUnderflow) ↔ session.IsAt .moveLeft ∧ session.AtFirstCell
  normal_iff : reply.answer = .ok (.halted .normal) ↔ session.IsAt .finish
  atEnd : session.IsAt .finish → session.AtLastInstruction
  continued_iff : reply.answer = .ok .continued ↔
    ¬ (session.IsAt .moveRight ∧ session.AtLastCell) ∧
    ¬ (session.IsAt .moveLeft ∧ session.AtFirstCell) ∧ ¬ session.IsAt .finish
  diagnosed : ∀ error, reply.answer = .ok (.halted (.error error)) →
    session.Diagnoses error reply.session

/-! ## What is shown while running -/

theorem isAt_iff (running : session.phase = .running program runtime)
    (inRange : runtime.InRange program) {operator : Operator} :
    session.IsAt operator ↔ (runtime.instruction program).operator = operator := by
  rw [IsAt, currentInstruction_of_running running inRange]
  constructor
  · rintro ⟨report, shown, rfl⟩
    cases shown
    rfl
  · exact fun operator_eq => ⟨_, rfl, operator_eq⟩

theorem atFirstCell_iff (running : session.phase = .running program runtime) :
    session.AtFirstCell ↔ runtime.pointer = .index 0 := by
  rw [AtFirstCell, dataPointer_of_running running, Except.ok.injEq]

theorem atLastCell_iff (running : session.phase = .running program runtime)
    (inRange : runtime.InRange program) :
    session.AtLastCell ↔ runtime.pointer.next.isBehind runtime.tape.length = true := by
  rw [inRange.isBehind_iff, AtLastCell, dataPointer_of_running running, running]
  constructor
  · rintro ⟨_, index, found, shown, last⟩
    cases found
    exact ⟨index, Except.ok.inj shown, last⟩
  · rintro ⟨index, pointer_eq, last⟩
    exact ⟨runtime, index, rfl, congrArg Except.ok pointer_eq, last⟩

/-- The cell at the pointer is shown with its value. -/
theorem cell_none_of_running (running : session.phase = .running program runtime)
    (inRange : runtime.InRange program) :
    ∃ report value, session.cell none = .ok report ∧ report.index = runtime.pointer.value ∧
      report.value? = some value ∧ runtime.cell? = some value := by
  obtain ⟨index, value, pointer_eq, cell_eq, -⟩ := inRange.exists_cell
  have inside := Machine.Tape.lt_length_of_cell? cell_eq
  refine ⟨reportAt runtime index, value, ?_, ?_, ?_, ?_⟩
  · rw [cell_of_running running, pointer_eq]
    exact cellAt_of_inside inside
  · rw [pointer_eq]
    rfl
  · rw [reportAt, Number.toNat?_natCast]
    exact cell_eq
  · rw [Runtime.cell?, pointer_eq]
    exact cell_eq

/-! ## One instruction -/

/-- A step is settled as a halt just if its operator halts the machine. -/
theorem answer_settle_stepIn_iff :
    (session.settle program ((session.machineOf runtime).stepIn program session.eofValue)).answer =
        .ok (.halted halt) ↔
      (session.machineOf runtime).Halts (runtime.instruction program).operator halt := by
  rw [answer_settle, Except.ok.injEq]
  constructor
  · intro halted
    exact (Machine.stepIn_eq_halted_iff.mp (Prod.ext halted rfl)).1
  · intro halts
    rw [Machine.stepIn_eq_halted_iff.mpr ⟨halts, rfl⟩]

theorem diagnoses_of_halts (running : session.phase = .running program runtime)
    (inRange : runtime.InRange program)
    (halts : (session.machineOf runtime).Halts (runtime.instruction program).operator
      (.error error)) :
    session.Diagnoses error
      (session.takeOver program
        ((session.machineOf runtime).stepIn program session.eofValue)) where
  instruction := by
    obtain ⟨fault, rfl⟩ := halts.exists_fault
    exact currentInstruction_of_running running inRange
  pointer := by
    obtain ⟨fault, rfl⟩ := halts.exists_fault
    exact dataPointer_of_running running
  cell := by
    obtain ⟨fault, rfl⟩ := halts.exists_fault
    exact cell_none_of_running running inRange
  length length overflow := by
    have current : session.phase.runtime? = some runtime := by
      rw [running]
      rfl
    exact ⟨runtime, current, halts.length_eq overflow⟩
  kept := by
    rw [Machine.stepIn_eq_halted_iff.mpr ⟨halts, rfl⟩]
    exact ⟨program, runtime, running, rfl⟩

/-- A running session halts exactly where its operator and its pointer say. -/
theorem Phase.Sound.haltsExactly (sound : session.phase.Sound)
    (running : session.phase = .running program runtime) :
    session.HaltsExactly
      (session.settle program
        ((session.machineOf runtime).stepIn program session.eofValue)) := by
  obtain ⟨compiled, inRange⟩ := sound.running running
  obtain ⟨row, encodes⟩ := compiled.encodes
  generalize reply_eq : session.settle program
    ((session.machineOf runtime).stepIn program session.eofValue) = reply
  have halted_iff {halt : Halt} : reply.answer = .ok (.halted halt) ↔
      (session.machineOf runtime).Halts (runtime.instruction program).operator halt := by
    rw [← reply_eq]
    exact answer_settle_stepIn_iff
  have overflow_iff : (∃ error length, reply.answer = .ok (.halted (.error error)) ∧
      error.fault = .pointerOverflow length) ↔ session.IsAt .moveRight ∧ session.AtLastCell := by
    simp only [halted_iff, isAt_iff running inRange, atLastCell_iff running inRange]
    exact Machine.halts_overflow_iff
  have underflow_iff : (∃ error, reply.answer = .ok (.halted (.error error)) ∧
      error.fault = .pointerUnderflow) ↔ session.IsAt .moveLeft ∧ session.AtFirstCell := by
    simp only [halted_iff, isAt_iff running inRange, atFirstCell_iff running]
    exact Machine.halts_underflow_iff
  have normal_iff : reply.answer = .ok (.halted .normal) ↔ session.IsAt .finish := by
    rw [halted_iff, isAt_iff running inRange, Machine.halts_normal_iff]
  have stepped := next_one sound running
  rw [reply_eq] at stepped
  refine
    { stepped, overflow_iff, underflow_iff, normal_iff
      atEnd := ?_
      continued_iff := ?_
      diagnosed := ?_ }
  · rw [isAt_iff running inRange, inRange.finish_iff encodes]
    rintro ⟨index, pc_eq, last⟩
    exact ⟨program, runtime, index, running, pc_eq, last⟩
  · rw [← overflow_iff, ← underflow_iff, ← normal_iff, ← reply_eq, answer_settle]
    -- an outcome that is none of the three ways to halt is to go on
    cases ((session.machineOf runtime).stepIn program session.eofValue).1 with
    | continued => simp
    | halted halt =>
        cases halt with
        | normal => simp
        | error error => cases fault_eq : error.fault <;> simp [fault_eq]
  · intro error halted
    rw [← reply_eq, session_settle]
    exact diagnoses_of_halts running inRange (halted_iff.mp halted)

/-! ## Many instructions -/

/-- Instructions are executed one at a time, and none of them halts. -/
inductive StepsTo : (count : Nat) → Session → Session → Prop where
  | none (session : Session) : StepsTo 0 session session
  | more {count : Nat} {session later : Session} {reply : Reply (Except UserError Outcome)}
      (stepped : ∀ patience, session.next (.finite 1) patience = some reply)
      (continued : reply.answer = .ok .continued) (rest : StepsTo count reply.session later) :
      StepsTo (count + 1) session later

/--
The session ends in an error: some number of its instructions go on, and then one meets the
error, which is told from what is shown just before that one.
-/
def EndsIn (session : Session) (error : RuntimeError) (final : Session) : Prop :=
  ∃ done before reply, StepsTo done session before ∧ before.HaltsExactly reply ∧
    reply.answer = .ok (.halted (.error error)) ∧ reply.session = final ∧
    before.Diagnoses error final

theorem takeOver_self (running : session.phase = .running program runtime) :
    session.takeOver program (.continued, session.machineOf runtime) = session := by
  obtain ⟨_, _, _, _, _⟩ := session
  cases running
  rfl

/-- A run that goes on is executed one instruction at a time. -/
theorem stepsTo_of_run (sound : session.phase.Sound)
    (running : session.phase = .running program runtime) {count : Nat} {machine : Machine}
    (ran : (session.machineOf runtime).run program session.eofValue count =
      (.continued, machine)) :
    StepsTo count session (session.takeOver program (.continued, machine)) := by
  induction count generalizing session runtime with
  | zero =>
      cases ran
      rw [takeOver_self running]
      exact .none session
  | succ count ih =>
      have stepped := next_one sound running
      cases found : (session.machineOf runtime).stepIn program session.eofValue with
      | mk outcome middle =>
          rw [found] at stepped
          cases outcome with
          | halted halt =>
              rw [Machine.run_succ_of_halted found] at ran
              cases ran
          | continued =>
              rw [Machine.run_succ_of_continued found] at ran
              have one := (Machine.run_one _ _ _).trans found
              exact .more stepped (answer_settle _)
                (ih (sound.takeOver running one) (takeOver_continued_running _ _ _) ran)

/-- A run that halts with an error does so in its last instruction. -/
theorem endsIn_of_run (sound : session.phase.Sound) (running : session.phase = .running program runtime)
    {count : Nat} {machine : Machine}
    (ran : (session.machineOf runtime).run program session.eofValue count =
      (.halted (.error error), machine)) :
    session.EndsIn error (session.takeOver program (.halted (.error error), machine)) := by
  obtain ⟨done, -, last, reached, halts⟩ := Machine.exists_last_of_halted ran
  have sound_before := sound.takeOver running reached
  have exact_before := sound_before.haltsExactly (takeOver_continued_running session program last)
  have last_eq : ((session.takeOver program (.continued, last)).machineOf last.runtime).stepIn
      program (session.takeOver program (.continued, last)).eofValue =
        (.halted (.error error), machine) := halts
  rw [last_eq] at exact_before
  exact ⟨done, _, _, stepsTo_of_run sound running reached, exact_before, answer_settle _,
    session_settle _, exact_before.diagnosed error (answer_settle _)⟩

theorem HaltsIn.endsIn (halts : session.HaltsIn (.error error) final) (sound : session.phase.Sound) :
    session.EndsIn error final := by
  obtain ⟨program, runtime, count, machine, running, ran, rfl⟩ := halts
  exact endsIn_of_run sound running ran

/--
One instruction of a running session halts exactly at the end of the program and at the two
ends of the tape.  However a run comes to an error, the error tells what was shown just
before the last instruction, which changed nothing but that the run is over.
-/
theorem halts_are_diagnosed (reachable : session.Reachable) (running : session.status = .running) :
    (∃ reply, session.HaltsExactly reply) ∧
    (∀ count patience reply error, session.next count patience = some reply →
      reply.answer = .ok (.halted (.error error)) → session.EndsIn error reply.session) ∧
    ∀ patience reply error, session.resume patience = some reply →
      reply.answer = .ok (.halted (.error error)) → session.EndsIn error reply.session := by
  have sound := reachable.sound.phase
  obtain ⟨program, runtime, running⟩ := exists_running running
  refine ⟨⟨_, sound.haltsExactly running⟩, ?_, ?_⟩
  · intro count patience reply error answered halted
    exact (haltsIn_of_next answered halted).endsIn sound
  · intro patience reply error resumed halted
    exact (haltsIn_of_resume resumed halted).endsIn sound

/-- The second time round its loop the program meets the end of a tape of two cells. -/
theorem halts_are_diagnosed_insideLoop :
    insideLoop.Reachable ∧ insideLoop.status = .running ∧
      ∃ error final, insideLoop.EndsIn error final ∧ error.fault = .pointerOverflow 2 ∧
        error.pc = .index 1 ∧ error.pointer = .index 1 ∧ error.cell? = some 1 := by
  have reachable : insideLoop.Reachable :=
    ⟨.ofTexts [("interpreterTapeSize", "2")], intoLoop, by decide +kernel⟩
  have halted : (insideLoop.next (.finite 9) 0).map Reply.answer =
      some (.ok (.halted
        (.error ⟨.pointerOverflow 2, .index 1, .moveRight, .index 1, some 1⟩))) := by
    decide +kernel
  obtain ⟨reply, answered, halted⟩ := Option.map_eq_some_iff.mp halted
  obtain ⟨-, stepped, -⟩ := halts_are_diagnosed reachable rfl
  exact ⟨reachable, rfl, _, _, stepped _ _ _ _ answered halted, rfl, rfl, rfl, rfl⟩

end Session

end TapeDebugger
