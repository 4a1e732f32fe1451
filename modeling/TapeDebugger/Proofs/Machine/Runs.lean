import TapeDebugger.Machine.Run
import TapeDebugger.Proofs.Program.Linking

/-!
# Runs step by step

A run goes on from what its first step leaves, and a run that has halted ends
the same way under every larger count.
-/

namespace TapeDebugger

namespace Machine

variable {program : Program} {eofValue : Number} {machine next final : Machine} {halt : Halt}

theorem stepIn_of_has {pc operand : Nat} {operator : Operator}
    (pc_eq : machine.runtime.pc = .index pc) (has : program.Has pc operator operand) :
    machine.stepIn program eofValue = machine.step eofValue operator (.index operand) := by
  obtain ⟨operator_eq, operand_eq⟩ := has.fetch_eq
  simp only [stepIn, Runtime.instruction, pc_eq, Position.index?, Option.getD_some, operator_eq,
    operand_eq]

theorem run_succ_of_continued (stepped : machine.stepIn program eofValue = (.continued, next))
    (count : Nat) :
    machine.run program eofValue (count + 1) = next.run program eofValue count := by
  rw [run, stepped]

theorem run_succ_of_halted (stepped : machine.stepIn program eofValue = (.halted halt, final))
    (count : Nat) : machine.run program eofValue (count + 1) = (.halted halt, final) := by
  rw [run, stepped]

theorem run_one (machine : Machine) (program : Program) (eofValue : Number) :
    machine.run program eofValue 1 = machine.stepIn program eofValue := by
  cases stepped : machine.stepIn program eofValue with
  | mk outcome next =>
      cases outcome with
      | continued => exact run_succ_of_continued stepped 0
      | halted halt => exact run_succ_of_halted stepped 0

/-- Two machines that do the same step do the same runs, except for a count of 0. -/
theorem run_succ_congr {other : Machine}
    (same : machine.stepIn program eofValue = other.stepIn program eofValue) (count : Nat) :
    machine.run program eofValue (count + 1) = other.run program eofValue (count + 1) := by
  rw [run, run, same]

theorem run_add_of_continued {first : Nat}
    (ran : machine.run program eofValue first = (.continued, next)) (second : Nat) :
    machine.run program eofValue (first + second) = next.run program eofValue second := by
  rw [run_add, ran]

theorem run_add_of_halted {first : Nat}
    (ran : machine.run program eofValue first = (.halted halt, final)) (extra : Nat) :
    machine.run program eofValue (first + extra) = (.halted halt, final) := by
  rw [run_add, ran]

/-- All counts under which a run halts end it the same way. -/
theorem halted_unique {first second : Nat} {halt' : Halt} {final' : Machine}
    (ran : machine.run program eofValue first = (.halted halt, final))
    (another : machine.run program eofValue second = (.halted halt', final')) :
    halt = halt' ∧ final = final' := by
  have longer := run_add_of_halted ran second
  rw [Nat.add_comm, run_add_of_halted another first] at longer
  cases longer
  exact ⟨rfl, rfl⟩

/-- A run by its count: it is over, its first instruction goes on, or it halts there. -/
theorem count_induction (program : Program) (eofValue : Number) {motive : Nat → Machine → Prop}
    (zero : ∀ machine, motive 0 machine)
    (continued : ∀ count machine next,
      machine.stepIn program eofValue = (.continued, next) → motive count next →
        motive (count + 1) machine)
    (halted : ∀ count machine halt final,
      machine.stepIn program eofValue = (.halted halt, final) → motive (count + 1) machine)
    (count : Nat) (machine : Machine) : motive count machine := by
  induction count generalizing machine with
  | zero => exact zero machine
  | succ count ih =>
      cases stepped : machine.stepIn program eofValue with
      | mk outcome next =>
          cases outcome with
          | continued => exact continued count machine next stepped (ih next)
          | halted halt => exact halted count machine halt next stepped

/-- A run that halts does so in one instruction, which comes behind all that go on. -/
theorem exists_last_of_halted {count : Nat}
    (ran : machine.run program eofValue count = (.halted halt, final)) :
    ∃ steps < count, ∃ last, machine.run program eofValue steps = (.continued, last) ∧
      last.stepIn program eofValue = (.halted halt, final) := by
  induction count, machine using count_induction program eofValue with
  | zero machine => cases ran
  | continued count machine next stepped ih =>
      rw [run_succ_of_continued stepped] at ran
      obtain ⟨steps, before, last, reached, halts⟩ := ih ran
      refine ⟨steps + 1, Nat.succ_lt_succ before, last, ?_, halts⟩
      rw [run_succ_of_continued stepped, reached]
  | halted count machine halt' final' stepped =>
      rw [run_succ_of_halted stepped] at ran
      cases ran
      exact ⟨0, Nat.succ_pos count, machine, rfl, stepped⟩

/-- What every step keeps is kept by a run. -/
theorem run_induction {motive : Machine → Prop}
    (kept : ∀ machine, motive machine → motive (machine.stepIn program eofValue).2)
    (before : motive machine) (count : Nat) : motive (machine.run program eofValue count).2 := by
  induction count, machine using count_induction program eofValue with
  | zero machine => exact before
  | continued count machine next stepped ih =>
      rw [run_succ_of_continued stepped]
      apply ih
      have keptFirst := kept machine before
      rwa [stepped] at keptFirst
  | halted count machine halt final stepped =>
      rw [run_succ_of_halted stepped]
      have keptFirst := kept machine before
      rwa [stepped] at keptFirst

end Machine

end TapeDebugger
