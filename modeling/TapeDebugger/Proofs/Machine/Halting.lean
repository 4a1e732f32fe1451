import TapeDebugger.Proofs.Machine.Range

/-!
# How an instruction halts

An instruction halts the machine at the end of the program and where it would move the
pointer off the tape, and nowhere else.  The machine stays as it was then, but for the flag
of its run.  In range the two errors are met exactly at the two ends of the tape.
-/

namespace TapeDebugger

namespace Machine

variable {program : Program} {eofValue : Number} {target : Position} {machine final : Machine}
  {operator : Operator} {halt : Halt} {error : RuntimeError}

/-- The ways in which an operator halts a machine. -/
inductive Halts (machine : Machine) : Operator → Halt → Prop where
  | finished : Halts machine .finish .normal
  | overflow (behind : machine.runtime.pointer.next.isBehind machine.runtime.tape.length = true) :
      Halts machine .moveRight
        (.error (machine.errorOf .moveRight (.pointerOverflow machine.runtime.tape.length)))
  | underflow (first : machine.runtime.pointer = .index 0) :
      Halts machine .moveLeft (.error (machine.errorOf .moveLeft .pointerUnderflow))

/-- An error is about the instruction that met it and the state it was met in. -/
theorem Halts.exists_fault (halts : machine.Halts operator (.error error)) :
    ∃ fault, error = machine.errorOf operator fault := by
  cases halts with
  | overflow => exact ⟨_, rfl⟩
  | underflow => exact ⟨_, rfl⟩

/-- Only a move to the right meets an overflow. -/
theorem halts_overflow_iff :
    (∃ error length, machine.Halts operator (.error error) ∧
      error.fault = .pointerOverflow length) ↔
      operator = .moveRight ∧
        machine.runtime.pointer.next.isBehind machine.runtime.tape.length = true := by
  constructor
  · rintro ⟨error, length, halts, overflow⟩
    cases halts with
    | overflow behind => exact ⟨rfl, behind⟩
    | underflow => cases overflow
  · rintro ⟨rfl, behind⟩
    exact ⟨_, _, .overflow behind, rfl⟩

/-- Only a move to the left meets an underflow. -/
theorem halts_underflow_iff :
    (∃ error, machine.Halts operator (.error error) ∧ error.fault = .pointerUnderflow) ↔
      operator = .moveLeft ∧ machine.runtime.pointer = .index 0 := by
  constructor
  · rintro ⟨error, halts, underflow⟩
    cases halts with
    | overflow => cases underflow
    | underflow first => exact ⟨rfl, first⟩
  · rintro ⟨rfl, first⟩
    exact ⟨_, .underflow first, rfl⟩

theorem halts_normal_iff : machine.Halts operator .normal ↔ operator = .finish := by
  constructor
  · intro halts
    cases halts
    rfl
  · rintro rfl
    exact .finished

/-- An overflow tells the length of the tape. -/
theorem Halts.length_eq {length : Nat} (halts : machine.Halts operator (.error error))
    (overflow : error.fault = .pointerOverflow length) : machine.runtime.tape.length = length := by
  cases halts with
  | overflow => exact Fault.pointerOverflow.inj overflow
  | underflow => cases overflow

theorem step_of_halts (halts : machine.Halts operator halt) :
    machine.step eofValue operator target = (.halted halt, machine.stopped) := by
  cases halts with
  | finished => exact step_finish
  | overflow behind =>
      simp only [step, behind, if_true]
      rfl
  | underflow first => exact step_moveLeft_first first

theorem proceedChanging_continued (machine : Machine) (change : Nat → Nat) :
    (machine.proceedChanging change).1 = .continued := by
  unfold proceedChanging
  split <;> rfl

/-- What halts does so in one of the three ways, and changes nothing but the flag. -/
theorem halts_of_step (stepped : machine.step eofValue operator target = (.halted halt, final)) :
    machine.Halts operator halt ∧ final = machine.stopped := by
  cases operator with
  | finish =>
      cases stepped
      exact ⟨.finished, rfl⟩
  | moveRight =>
      simp only [step] at stepped
      split at stepped
      · rename_i behind
        cases stepped
        exact ⟨.overflow behind, rfl⟩
      · cases stepped
  | moveLeft =>
      simp only [step] at stepped
      split at stepped
      · rename_i first
        cases stepped
        exact ⟨.underflow first, rfl⟩
      · cases stepped
  | increment | decrement =>
      have continued := (congrArg Prod.fst stepped).symm.trans (machine.proceedChanging_continued _)
      cases continued
  | output | input => cases stepped
  | loopStart | loopEnd =>
      simp only [step] at stepped
      split at stepped <;> cases stepped

theorem stepIn_eq_halted_iff :
    machine.stepIn program eofValue = (.halted halt, final) ↔
      machine.Halts (machine.runtime.instruction program).operator halt ∧
        final = machine.stopped := by
  refine ⟨halts_of_step, ?_⟩
  rintro ⟨halts, rfl⟩
  exact step_of_halts halts

namespace Runtime.InRange

variable {runtime : Runtime} {row : List Operator}

/-- A move to the right leads off the tape from its last cell alone. -/
theorem isBehind_iff (inRange : runtime.InRange program) :
    runtime.pointer.next.isBehind runtime.tape.length = true ↔
      ∃ index, runtime.pointer = .index index ∧ index + 1 = runtime.tape.length := by
  obtain ⟨index, pointer_eq, inside⟩ := inRange.pointer
  rw [pointer_eq, Position.next_index, Position.isBehind_index, decide_eq_true_eq]
  constructor
  · exact fun behind => ⟨index, rfl, by omega⟩
  · rintro ⟨other, same, last⟩
    cases same
    omega

/-- The program ends with its last instruction alone. -/
theorem finish_iff (inRange : runtime.InRange program) (encodes : program.Encodes row) :
    (runtime.instruction program).operator = .finish ↔
      ∃ index, runtime.pc = .index index ∧ index + 1 = program.count := by
  obtain ⟨pc, pc_eq, inside⟩ := inRange.pc
  have operator_eq : program.operatorColumn[pc]? = some (runtime.instruction program).operator := by
    rw [Runtime.instruction, pc_eq]
    exact ((Program.has_iff _ _ _ _).mp (Program.has_fetch inside)).1
  rw [← Option.some.injEq, ← operator_eq, encodes.finish_iff]
  constructor
  · exact fun last => ⟨pc, pc_eq, last⟩
  · rintro ⟨other, other_eq, last⟩
    rw [pc_eq] at other_eq
    cases other_eq
    exact last

end Runtime.InRange

end Machine

end TapeDebugger
