import TapeDebugger.Proofs.Machine.Runs

/-!
# The flag of a run

An instruction that goes on leaves the flag of the run as it was, and one that
halts clears it.  No instruction ever sets it, and so no run of instructions does.
-/

namespace TapeDebugger

namespace Machine

/-- Going on keeps the flag that the machine had, and a halt clears it. -/
def KeepsFlag (machine : Machine) : Outcome × Machine → Prop
  | (.continued, next) => next.runtime.running = machine.runtime.running
  | (.halted _, final) => final.runtime.running = false

variable {machine : Machine}

@[simp] theorem Runtime.running_store (runtime : Runtime) (value : Nat) :
    (runtime.store value).running = runtime.running := by
  unfold store
  split <;> rfl

theorem keepsFlag_proceedWith (value : Nat) : machine.KeepsFlag (machine.proceedWith value) :=
  machine.runtime.running_store value

theorem keepsFlag_proceedChanging (change : Nat → Nat) :
    machine.KeepsFlag (machine.proceedChanging change) := by
  unfold proceedChanging
  split
  · exact keepsFlag_proceedWith _
  · rfl

theorem keepsFlag_step (eofValue : Number) (operator : Operator) (target : Position) :
    machine.KeepsFlag (machine.step eofValue operator target) := by
  cases operator with
  | finish => rfl
  | moveRight =>
      simp only [step]
      split <;> rfl
  | moveLeft =>
      simp only [step]
      split <;> rfl
  | increment => exact keepsFlag_proceedChanging _
  | decrement => exact keepsFlag_proceedChanging _
  | output => rfl
  | input => exact machine.runtime.running_store _
  | loopStart =>
      simp only [step]
      split <;> rfl
  | loopEnd =>
      simp only [step]
      split <;> rfl

/-- What keeps the flag of a machine keeps it of every machine with the same flag. -/
theorem KeepsFlag.of_running_eq {next : Machine} {result : Outcome × Machine}
    (kept : next.KeepsFlag result) (same : next.runtime.running = machine.runtime.running) :
    machine.KeepsFlag result := by
  obtain ⟨outcome, final⟩ := result
  cases outcome with
  | continued => exact kept.trans same
  | halted halt => exact kept

/-- A run keeps the flag for as long as it goes on. -/
theorem keepsFlag_run (machine : Machine) (program : Program) (eofValue : Number) (count : Nat) :
    machine.KeepsFlag (machine.run program eofValue count) := by
  induction count, machine using count_induction program eofValue with
  | zero machine => rfl
  | continued count machine next stepped ih =>
      rw [run_succ_of_continued stepped]
      have kept : machine.KeepsFlag (machine.stepIn program eofValue) := keepsFlag_step _ _ _
      rw [stepped] at kept
      exact ih.of_running_eq kept
  | halted count machine halt final stepped =>
      rw [run_succ_of_halted stepped, ← stepped]
      exact keepsFlag_step _ _ _

variable {program : Program} {eofValue : Number} {count : Nat}

theorem running_of_continued {next : Machine}
    (ran : machine.run program eofValue count = (.continued, next)) :
    next.runtime.running = machine.runtime.running := by
  have kept := machine.keepsFlag_run program eofValue count
  rw [ran] at kept
  exact kept

theorem running_of_halted {halt : Halt} {final : Machine}
    (ran : machine.run program eofValue count = (.halted halt, final)) :
    final.runtime.running = false := by
  have kept := machine.keepsFlag_run program eofValue count
  rw [ran] at kept
  exact kept

end Machine

end TapeDebugger
