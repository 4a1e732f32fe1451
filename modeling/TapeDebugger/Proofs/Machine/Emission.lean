import TapeDebugger.Proofs.Machine.Intake

/-!
# What a run writes

The bytes that the instructions of a run write stand behind those that were
written before, in the order in which the instructions are executed.
-/

namespace TapeDebugger

namespace Machine

variable {program : Program} {eofValue : Number}

/-- The byte that an instruction writes, if it writes one: the low byte of the cell. -/
def Execution.emitted? (execution : Execution) : Option UInt8 :=
  if execution.instruction.operator = .output then
    some (execution.before.runtime.cell?.getD 0).toUInt8
  else none

/-- The bytes that a row of instructions writes. -/
def emitted (executions : List Execution) : List UInt8 :=
  executions.filterMap Execution.emitted?

theorem emitted_cons (execution : Execution) (rest : List Execution) :
    emitted (execution :: rest) = execution.emitted?.toList ++ emitted rest := by
  cases found : execution.emitted? with
  | none => exact List.filterMap_cons_none found
  | some byte => exact List.filterMap_cons_some found

theorem output_step_of_not_output {machine : Machine} {operator : Operator} (target : Position)
    (notOutput : operator ≠ .output) :
    (machine.step eofValue operator target).2.channel.output = machine.channel.output := by
  by_cases input : operator = .input
  · subst input
    exact machine.channel.output_read
  · rw [channel_step_of_silent eofValue target notOutput input]

/-- An instruction adds what it writes behind what was written before. -/
theorem output_stepIn (program : Program) (eofValue : Number) (machine : Machine) :
    (machine.stepIn program eofValue).2.channel.output.toList =
      machine.channel.output.toList ++ (machine.execution program eofValue).emitted?.toList := by
  by_cases output : (machine.runtime.instruction program).operator = .output
  · have emitted_eq : (machine.execution program eofValue).emitted? =
        some (machine.runtime.cell?.getD 0).toUInt8 := if_pos output
    rw [emitted_eq, stepIn, output]
    exact Array.toList_push
  · have emitted_eq : (machine.execution program eofValue).emitted? = none := if_neg output
    rw [emitted_eq, stepIn, output_step_of_not_output _ output]
    exact (List.append_nil _).symm

/-- A run loses no byte, writes none twice and none out of turn. -/
theorem output_run (program : Program) (eofValue : Number) (count : Nat) (machine : Machine) :
    (machine.run program eofValue count).2.channel.output.toList =
      machine.channel.output.toList ++ emitted (machine.executions program eofValue count) := by
  induction count, machine using count_induction program eofValue with
  | zero machine => exact (List.append_nil _).symm
  | continued count machine next stepped ih =>
      have first := output_stepIn program eofValue machine
      rw [stepped] at first
      rw [run_succ_of_continued stepped, executions_succ_of_continued stepped, emitted_cons, ih,
        first, List.append_assoc]
  | halted count machine halt final stepped =>
      have first := output_stepIn program eofValue machine
      rw [stepped] at first
      rw [run_succ_of_halted stepped, executions_succ_of_halted stepped, emitted_cons, first]
      exact congrArg _ (List.append_nil _).symm

end Machine

end TapeDebugger
