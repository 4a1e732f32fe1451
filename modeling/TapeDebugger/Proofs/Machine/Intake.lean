import TapeDebugger.Proofs.Machine.Frame
import TapeDebugger.Proofs.Machine.Range
import TapeDebugger.Proofs.Machine.Resumption

/-!
# What a run takes from its input

The instructions that a run executes make up a list, each with the machine before
and after it.  The bytes that they take and those that are still pending then are
those that were pending before, in their order.  If no instruction finds the input
at its end, then more input behind it changes nothing but what is left pending.
-/

namespace TapeDebugger

namespace Machine

variable {program : Program} {eofValue : Number} {machine next final : Machine} {halt : Halt}

/-! ## Executed instructions -/

/-- An instruction that is executed, with the machine before and after it. -/
structure Execution where
  instruction : Program.Instruction
  before : Machine
  after : Machine

namespace Execution

/-- The byte that the instruction takes from what is pending, if it takes one. -/
def taken? (execution : Execution) : Option UInt8 :=
  if execution.instruction.operator = .input then execution.before.channel.read.1 else none

/-- The instruction is to take a byte and finds none. -/
def Starves (execution : Execution) : Prop :=
  execution.instruction.operator = .input ∧ execution.before.channel.pending = []

instance (execution : Execution) : Decidable execution.Starves :=
  inferInstanceAs (Decidable (_ ∧ _))

/-- A value is in the cell at the pointer afterwards, and the pointer is where it was. -/
structure Stores (execution : Execution) (value : Nat) : Prop where
  pointer : execution.after.runtime.pointer = execution.before.runtime.pointer
  sizes : execution.after.runtime.tape.sizes = execution.before.runtime.tape.sizes
  cell : execution.after.runtime.cell? = some value

end Execution

/-- The instruction at the program counter as it is executed. -/
def execution (program : Program) (eofValue : Number) (machine : Machine) : Execution where
  instruction := machine.runtime.instruction program
  before := machine
  after := (machine.stepIn program eofValue).2

/-- The instructions that a run executes, one after the other. -/
def executions (program : Program) (eofValue : Number) : Nat → Machine → List Execution
  | 0, _ => []
  | count + 1, machine =>
      machine.execution program eofValue ::
        match machine.stepIn program eofValue with
        | (.continued, next) => executions program eofValue count next
        | (.halted _, _) => []

/-- The bytes that a row of instructions takes. -/
def taken (executions : List Execution) : List UInt8 :=
  executions.filterMap Execution.taken?

theorem taken_cons (execution : Execution) (rest : List Execution) :
    taken (execution :: rest) = execution.taken?.toList ++ taken rest := by
  cases found : execution.taken? with
  | none => exact List.filterMap_cons_none found
  | some byte => exact List.filterMap_cons_some found

theorem executions_succ_of_continued
    (stepped : machine.stepIn program eofValue = (.continued, next)) (count : Nat) :
    machine.executions program eofValue (count + 1) =
      machine.execution program eofValue :: next.executions program eofValue count := by
  rw [executions, stepped]

theorem executions_succ_of_halted
    (stepped : machine.stepIn program eofValue = (.halted halt, final)) (count : Nat) :
    machine.executions program eofValue (count + 1) = [machine.execution program eofValue] := by
  rw [executions, stepped]

/-- What every step keeps holds of each machine that executes an instruction of a run. -/
theorem forall_executions {motive : Machine → Prop}
    (kept : ∀ machine, motive machine → motive (machine.stepIn program eofValue).2)
    (before : motive machine) (count : Nat) :
    ∀ execution ∈ machine.executions program eofValue count,
      ∃ reached, motive reached ∧ execution = reached.execution program eofValue := by
  intro execution found
  induction count, machine using count_induction program eofValue with
  | zero machine => exact absurd found List.not_mem_nil
  | continued count machine next stepped ih =>
      rw [executions_succ_of_continued stepped] at found
      rcases List.mem_cons.mp found with first | later
      · exact ⟨machine, before, first⟩
      · have keptFirst := kept machine before
        rw [stepped] at keptFirst
        exact ih keptFirst later
  | halted count machine halt final stepped =>
      rw [executions_succ_of_halted stepped] at found
      exact ⟨machine, before, List.eq_of_mem_singleton found⟩

/-! ## Taken bytes -/

/-- What an instruction takes and what it leaves pending was pending before. -/
theorem taken?_append_pending (program : Program) (eofValue : Number) (machine : Machine) :
    (machine.execution program eofValue).taken?.toList ++
      (machine.stepIn program eofValue).2.channel.pending = machine.channel.pending := by
  by_cases input : (machine.runtime.instruction program).operator = .input
  · have taken_eq : (machine.execution program eofValue).taken? = machine.channel.read.1 :=
      if_pos input
    have channel_eq : (machine.stepIn program eofValue).2.channel = machine.channel.read.2 := by
      rw [stepIn, input]
      rfl
    rw [taken_eq, channel_eq]
    exact machine.channel.read_append_pending
  · have taken_eq : (machine.execution program eofValue).taken? = none := if_neg input
    rw [taken_eq, Option.toList_none, List.nil_append]
    exact pending_step_of_not_input eofValue _ input

/-- No byte is lost, taken twice or taken out of turn by a run. -/
theorem taken_append_pending (program : Program) (eofValue : Number) (count : Nat)
    (machine : Machine) :
    taken (machine.executions program eofValue count) ++
      (machine.run program eofValue count).2.channel.pending = machine.channel.pending := by
  induction count, machine using count_induction program eofValue with
  | zero machine => rfl
  | continued count machine next stepped ih =>
      have first := taken?_append_pending program eofValue machine
      rw [stepped] at first
      rw [executions_succ_of_continued stepped, run_succ_of_continued stepped, taken_cons,
        List.append_assoc, ih, first]
  | halted count machine halt final stepped =>
      have first := taken?_append_pending program eofValue machine
      rw [stepped] at first
      rw [executions_succ_of_halted stepped, run_succ_of_halted stepped, taken_cons,
        List.append_assoc]
      exact first

/-- A byte is one of the values of every cell size, so it is stored as it is. -/
theorem byte_mod_modulus (byte : UInt8) (size : CellSize) :
    byte.toNat % size.modulus = byte.toNat := by
  apply Nat.mod_eq_of_lt
  exact Nat.lt_of_lt_of_le byte.toNat_lt (Nat.le_of_dvd size.modulus_pos size.byte_dvd_modulus)

theorem stores_of_taken (inRange : machine.runtime.InRange program) {byte : UInt8}
    (took : (machine.execution program eofValue).taken? = some byte) :
    (machine.execution program eofValue).Stores byte.toNat := by
  obtain ⟨pointer, pointer_eq, onTape⟩ := inRange.pointer
  obtain ⟨input, read_eq⟩ : (machine.runtime.instruction program).operator = .input ∧
      machine.channel.read.1 = some byte := by
    rw [Execution.taken?] at took
    split at took
    · exact ⟨‹_›, took⟩
    · cases took
  obtain ⟨rest, pending_eq⟩ : ∃ rest, machine.channel.pending = byte :: rest := by
    have all := machine.channel.read_append_pending
    rw [read_eq] at all
    exact ⟨_, all.symm⟩
  have stepped : machine.stepIn program eofValue =
      (.continued, { machine with channel.pending := rest }.storedAt pointer byte.toNat) := by
    rw [stepIn, input]
    exact step_input_cons pointer_eq pending_eq
  have after_eq : (machine.execution program eofValue).after =
      { machine with channel.pending := rest }.storedAt pointer byte.toNat :=
    congrArg Prod.snd stepped
  have pointer_after : (machine.execution program eofValue).after.runtime.pointer =
      .index pointer := by
    rw [after_eq]
    exact pointer_eq
  refine ⟨pointer_after.trans pointer_eq.symm, sizes_step eofValue _ _, ?_⟩
  rw [cell?_eq_of_index pointer_after, after_eq]
  refine (Tape.cell?_write_self byte.toNat onTape).trans ?_
  exact congrArg some (byte_mod_modulus byte _)

/-! ## More input -/

def Channel.feed (channel : Channel) (bytes : List UInt8) : Channel :=
  { channel with pending := channel.pending ++ bytes }

/-- The machine with more bytes behind those that are pending. -/
def feed (machine : Machine) (bytes : List UInt8) : Machine :=
  { machine with channel := machine.channel.feed bytes }

/-- With an operator that finds what it is to take, a machine does the same before more input. -/
theorem step_feed {operator : Operator} {channel : Channel} (target : Position)
    (runtime : Runtime) (bytes : List UInt8)
    (provided : operator = .input → channel.pending ≠ []) :
    step eofValue operator target ⟨runtime, channel.feed bytes⟩ =
      ((step eofValue operator target ⟨runtime, channel⟩).1,
        (step eofValue operator target ⟨runtime, channel⟩).2.feed bytes) := by
  cases operator with
  | finish | output => rfl
  | moveRight | moveLeft | loopStart | loopEnd =>
      simp only [step]
      split <;> rfl
  | increment | decrement =>
      simp only [step, proceedChanging]
      split <;> rfl
  | input =>
      obtain ⟨output, pending⟩ := channel
      cases pending with
      | nil => exact absurd rfl (provided rfl)
      | cons byte rest => rfl

theorem stepIn_feed (bytes : List UInt8)
    (provided : ¬ (machine.execution program eofValue).Starves) :
    (machine.feed bytes).stepIn program eofValue =
      ((machine.stepIn program eofValue).1, (machine.stepIn program eofValue).2.feed bytes) := by
  apply step_feed
  intro input empty
  exact provided ⟨input, empty⟩

/-- A run in which nothing starves is the same before more input. -/
theorem run_feed (bytes : List UInt8) {count : Nat}
    (provided : ∀ execution ∈ machine.executions program eofValue count, ¬ execution.Starves) :
    (machine.feed bytes).run program eofValue count =
      ((machine.run program eofValue count).1,
        (machine.run program eofValue count).2.feed bytes) := by
  induction count, machine using count_induction program eofValue with
  | zero machine => rfl
  | continued count machine next stepped ih =>
      have fed := stepIn_feed bytes (provided _ List.mem_cons_self)
      rw [stepped] at fed
      rw [run_succ_of_continued stepped, run_succ_of_continued fed]
      apply ih
      intro execution found
      apply provided
      rw [executions_succ_of_continued stepped]
      exact List.mem_cons_of_mem _ found
  | halted count machine halt final stepped =>
      have fed := stepIn_feed bytes (provided _ List.mem_cons_self)
      rw [stepped] at fed
      rw [run_succ_of_halted stepped, run_succ_of_halted fed]

/-- The result of a run with more bytes behind those that are pending. -/
def fed (bytes : List UInt8) (result : Outcome × Machine) : Outcome × Machine :=
  (result.1, result.2.feed bytes)

theorem tryStep_feed (bytes : List UInt8)
    (provided : ¬ (machine.execution program eofValue).Starves) :
    (machine.feed bytes).tryStep program eofValue =
      (machine.tryStep program eofValue).map (fed bytes) := by
  have inside_eq : (machine.feed bytes).runtime.isInside program =
      machine.runtime.isInside program := rfl
  rw [tryStep, tryStep, inside_eq]
  split
  · exact congrArg Except.ok (stepIn_feed bytes provided)
  · rfl

/-- A counted run in which nothing starves comes to the same before more input, or to nothing. -/
theorem runFrom_feed (bytes : List UInt8) {count : Number} {fuel counter : Nat}
    (provided : ∀ execution ∈ machine.executions program eofValue fuel, ¬ execution.Starves) :
    runFrom program eofValue count fuel counter (machine.feed bytes) =
      (runFrom program eofValue count fuel counter machine).map (fed bytes) := by
  cases below : isBelow counter count with
  | false =>
      rw [runFrom_of_reached below, runFrom_of_reached below]
      rfl
  | true =>
      induction fuel, machine using count_induction program eofValue generalizing counter with
      | zero machine =>
          rw [runFrom, runFrom, below]
          rfl
      | continued fuel machine next stepped ih =>
          have first := tryStep_feed bytes (provided _ List.mem_cons_self)
          rw [runFrom_succ below, runFrom_succ below, first]
          cases tried : machine.tryStep program eofValue with
          | error interrupt => rfl
          | ok result =>
              cases stepped.symm.trans (tryStep_eq_ok_iff.mp tried).2
              have providedRest : ∀ execution ∈ next.executions program eofValue fuel,
                  ¬ execution.Starves := by
                intro execution found
                apply provided
                rw [executions_succ_of_continued stepped]
                exact List.mem_cons_of_mem _ found
              cases below' : isBelow (tick counter) count with
              | true => exact ih providedRest below'
              | false =>
                  show runFrom _ _ _ _ _ _ = Except.map _ (runFrom _ _ _ _ _ _)
                  rw [runFrom_of_reached below', runFrom_of_reached below']
                  rfl
      | halted fuel machine halt final stepped =>
          have first := tryStep_feed bytes (provided _ List.mem_cons_self)
          rw [runFrom_succ below, runFrom_succ below, first]
          cases tried : machine.tryStep program eofValue with
          | error interrupt => rfl
          | ok result =>
              cases stepped.symm.trans (tryStep_eq_ok_iff.mp tried).2
              rfl

theorem runNumber_feed (bytes : List UInt8) {count : Number} {patience : Nat}
    (provided : ∀ execution ∈ machine.executions program eofValue
      ((rounds? count).getD patience), ¬ execution.Starves) :
    (machine.feed bytes).runNumber program eofValue count patience =
      (machine.runNumber program eofValue count patience).map (fed bytes) :=
  runFrom_feed bytes provided

/-- Going on comes to the same before more input, too. -/
theorem resume_feed (bytes : List UInt8) {limit patience : Nat}
    (provided : ∀ execution ∈ machine.executions program eofValue (resumeBound limit patience),
      ¬ execution.Starves) :
    (machine.feed bytes).resume program eofValue limit patience =
      (machine.resume program eofValue limit patience).map fun answer =>
        (answer.1, answer.2.feed bytes) := by
  rw [← getD_rounds?_countOf] at provided
  rw [resume_eq_runNumber, resume_eq_runNumber, runNumber_feed bytes provided]
  cases machine.runNumber program eofValue (countOf limit) patience <;> rfl

end Machine

end TapeDebugger
