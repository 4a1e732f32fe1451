import TapeDebugger.Proofs.Machine.Runs
import TapeDebugger.Proofs.Number.Rounding

/-!
# Counting instructions

A counter is exact as far as a count can be reached, and the run that it counts is then the
run of that many instructions.  A count beyond that is never reached: only a halt ends the
run, and it ends as a run of some number of instructions does.  A run whose program counter
stays inside the program is not interrupted by a missing instruction.
-/

namespace TapeDebugger

namespace Machine

variable {program : Program} {eofValue count : Number} {machine next final : Machine}
  {result : Outcome × Machine} {halt : Halt} {counter fuel last patience more : Nat}

/-! ## Counters -/

theorem tick_of_lt (below : counter < Number.exactIntegerBound) : tick counter = counter + 1 :=
  if_pos below

theorem tick_le (small : counter ≤ Number.exactIntegerBound) :
    tick counter ≤ Number.exactIntegerBound := by
  unfold tick
  split
  · assumption
  · exact small

/-- A counter goes on as the binary64 value does that it stands for. -/
theorem natCast_tick (small : counter ≤ Number.exactIntegerBound) :
    ((tick counter : Nat) : Rat) = Number.round (counter + 1) := by
  rcases Nat.lt_or_eq_of_le small with below | rfl
  · have next : (((counter + 1 : Nat) : Int) : Rat) = counter + 1 := by push_cast; rfl
    rw [tick_of_lt below, ← next, Number.round_intCast (by omega)]
    push_cast
    rfl
  · -- 2 ^ 53 + 1 is halfway between two values, and the even one is 2 ^ 53
    decide +kernel

/-- A count with a number of rounds is reached by a counter, and just by that number. -/
theorem isBelow_of_rounds (counted : rounds? count = some last) :
    last ≤ Number.exactIntegerBound ∧
      ∀ counter, isBelow counter count = decide (counter < last) := by
  unfold rounds? at counted
  split at counted
  · cases counted
    exact ⟨Nat.zero_le _, fun _ => rfl⟩
  · split at counted
    · cases counted
      rename_i negative
      exact ⟨Nat.zero_le _, fun _ => by simp [isBelow, negative]⟩
    · cases counted
  · rename_i value
    split at counted
    · rename_i small
      cases counted
      have ceil_le : value.ceil ≤ (Number.exactIntegerBound : Int) :=
        Rat.ceil_le_iff.mpr (by exact_mod_cast small)
      refine ⟨by omega, fun counter => ?_⟩
      have reached : value.ceil ≤ (counter : Int) ↔ value ≤ counter := by
        rw [Rat.ceil_le_iff, Int.cast_natCast]
      rw [isBelow, decide_eq_decide, ← not_le, ← reached]
      omega
    · cases counted

/-- A number of rounds is exact in a counter. -/
theorem le_of_rounds (counted : rounds? count = some last) :
    last ≤ Number.exactIntegerBound :=
  (isBelow_of_rounds counted).1

theorem isBelow_of_lt (counted : rounds? count = some last) (lt : counter < last) :
    isBelow counter count = true := by
  rw [(isBelow_of_rounds counted).2]
  exact decide_eq_true lt

theorem isBelow_of_le (counted : rounds? count = some last) (le : last ≤ counter) :
    isBelow counter count = false := by
  rw [(isBelow_of_rounds counted).2]
  exact decide_eq_false (Nat.not_lt_of_le le)

/-- No counter reaches a count without a number of rounds. -/
theorem isBelow_of_no_rounds (uncounted : rounds? count = none)
    (small : counter ≤ Number.exactIntegerBound) : isBelow counter count = true := by
  unfold rounds? at uncounted
  split at uncounted
  · cases uncounted
  · split at uncounted
    · cases uncounted
    · rename_i positive
      simp [isBelow, positive]
  · split at uncounted
    · cases uncounted
    · rename_i value large
      have small : (counter : Rat) ≤ Number.exactIntegerBound := Nat.cast_le.mpr small
      exact decide_eq_true (small.trans_lt (not_le.mp large))

theorem rounds?_natCast (number : Nat) :
    rounds? (.finite number) = if number ≤ Number.exactIntegerBound then some number else none := by
  have ceil_eq : (number : Rat).ceil = number := by
    rw [← Int.cast_natCast number, Rat.ceil_intCast]
  simp only [rounds?, Nat.cast_le, ceil_eq, Int.toNat_natCast]

/-! ## Inside the program -/

/-- As long as the machine goes on, its program counter is at an instruction. -/
def StaysInside (program : Program) (eofValue : Number) (machine : Machine) : Prop :=
  ∀ count reached, machine.run program eofValue count = (.continued, reached) →
    reached.runtime.isInside program = true

namespace StaysInside

theorem tryStep (inside : machine.StaysInside program eofValue) :
    machine.tryStep program eofValue = .ok (machine.stepIn program eofValue) :=
  tryStep_of_inside (inside 0 machine rfl) eofValue

theorem goneOn (inside : machine.StaysInside program eofValue)
    (stepped : machine.stepIn program eofValue = (.continued, next)) :
    next.StaysInside program eofValue := by
  intro count reached ran
  exact inside (count + 1) reached ((run_succ_of_continued stepped count).trans ran)

end StaysInside

/-! ## Counted runs -/

theorem runFrom_of_reached (reached : isBelow counter count = false) (fuel : Nat) :
    runFrom program eofValue count fuel counter machine = .ok (.continued, machine) := by
  cases fuel <;> rw [runFrom, reached] <;> rfl

theorem runFrom_succ (below : isBelow counter count = true) (fuel : Nat) :
    runFrom program eofValue count (fuel + 1) counter machine =
      match machine.tryStep program eofValue with
      | .error interrupt => .error interrupt
      | .ok (.continued, next) => runFrom program eofValue count fuel (tick counter) next
      | .ok halted => .ok halted := by
  rw [runFrom, below]
  rfl

/-- A run that has an answer has executed its first instruction, and gone on or halted then. -/
theorem cases_of_runFrom (below : isBelow counter count = true)
    (ran : runFrom program eofValue count (fuel + 1) counter machine = .ok result) :
    (∃ next, machine.stepIn program eofValue = (.continued, next) ∧
        runFrom program eofValue count fuel (tick counter) next = .ok result) ∨
      ∃ halt final, machine.stepIn program eofValue = (.halted halt, final) ∧
        result = (.halted halt, final) := by
  rw [runFrom_succ below] at ran
  split at ran
  · cases ran
  · rename_i next tried
    exact .inl ⟨next, (tryStep_eq_ok_iff.mp tried).2, ran⟩
  · rename_i ended goesOn tried
    cases ran
    obtain ⟨outcome, final⟩ := result
    cases outcome with
    | continued => exact absurd rfl (goesOn final)
    | halted halt => exact .inr ⟨halt, final, (tryStep_eq_ok_iff.mp tried).2, rfl⟩

/-- With just the fuel that its count takes, a counted run is the run of that length. -/
theorem run_of_runFrom (counted : rounds? count = some last) (sum : counter + fuel = last)
    (ran : runFrom program eofValue count fuel counter machine = .ok result) :
    machine.run program eofValue fuel = result := by
  have small := le_of_rounds counted
  induction fuel generalizing counter machine with
  | zero =>
      rw [runFrom_of_reached (isBelow_of_le counted (by omega))] at ran
      exact Except.ok.inj ran
  | succ fuel ih =>
      rcases cases_of_runFrom (isBelow_of_lt counted (by omega)) ran with
        ⟨next, stepped, rest⟩ | ⟨halt, final, stepped, rfl⟩
      · rw [tick_of_lt (by omega)] at rest
        rw [run_succ_of_continued stepped]
        exact ih (by omega) rest
      · exact run_succ_of_halted stepped fuel

/-- A counted run that stays inside the program comes to an end. -/
theorem runFrom_of_staysInside (inside : machine.StaysInside program eofValue)
    (counted : rounds? count = some last) (sum : counter + fuel = last) :
    runFrom program eofValue count fuel counter machine =
      .ok (machine.run program eofValue fuel) := by
  have small := le_of_rounds counted
  induction fuel, machine using count_induction program eofValue generalizing counter with
  | zero machine => exact runFrom_of_reached (isBelow_of_le counted (by omega)) 0
  | continued fuel machine next stepped ih =>
      rw [runFrom_succ (isBelow_of_lt counted (by omega)), inside.tryStep, stepped,
        run_succ_of_continued stepped, tick_of_lt (by omega)]
      exact ih (inside.goneOn stepped) (by omega)
  | halted fuel machine halt final stepped =>
      rw [runFrom_succ (isBelow_of_lt counted (by omega)), inside.tryStep, stepped,
        run_succ_of_halted stepped]

/-- Where no counter reaches the count, only a halt ends the run, as it ends that of the fuel. -/
theorem halted_of_runFrom (beyond : rounds? count = none)
    (small : counter ≤ Number.exactIntegerBound)
    (ran : runFrom program eofValue count fuel counter machine = .ok result) :
    ∃ halt final, result = (.halted halt, final) ∧
      machine.run program eofValue fuel = (.halted halt, final) := by
  induction fuel generalizing counter machine with
  | zero =>
      rw [runFrom, isBelow_of_no_rounds beyond small] at ran
      cases ran
  | succ fuel ih =>
      rcases cases_of_runFrom (isBelow_of_no_rounds beyond small) ran with
        ⟨next, stepped, rest⟩ | ⟨halt, final, stepped, rfl⟩
      · rw [run_succ_of_continued stepped]
        exact ih (tick_le small) rest
      · exact ⟨halt, final, rfl, run_succ_of_halted stepped fuel⟩

theorem runFrom_of_halted (inside : machine.StaysInside program eofValue)
    (beyond : rounds? count = none) (small : counter ≤ Number.exactIntegerBound)
    (ran : machine.run program eofValue fuel = (.halted halt, final)) :
    runFrom program eofValue count fuel counter machine = .ok (.halted halt, final) := by
  induction fuel, machine using count_induction program eofValue generalizing counter with
  | zero machine => cases ran
  | continued fuel machine next stepped ih =>
      rw [run_succ_of_continued stepped] at ran
      rw [runFrom_succ (isBelow_of_no_rounds beyond small), inside.tryStep, stepped]
      exact ih (inside.goneOn stepped) (tick_le small) ran
  | halted fuel machine halt' final' stepped =>
      rw [run_succ_of_halted stepped] at ran
      rw [runFrom_succ (isBelow_of_no_rounds beyond small), inside.tryStep, stepped, ran]

/-- A run inside the program can only lose patience. -/
theorem runFrom_ne_missing (inside : machine.StaysInside program eofValue) (fuel counter : Nat) :
    runFrom program eofValue count fuel counter machine ≠ .error .missingInstruction := by
  fun_induction runFrom program eofValue count fuel counter machine with
  | case1 | case2 | case5 | case6 => exact nofun
  | case3 fuel counter machine below interrupt tried =>
      rw [inside.tryStep] at tried
      cases tried
  | case4 fuel counter machine below next tried ih =>
      exact ih (inside.goneOn (tryStep_eq_ok_iff.mp tried).2)

/-- More fuel changes no answer that is there already. -/
theorem runFrom_add_fuel (extra : Nat)
    (ran : runFrom program eofValue count fuel counter machine = .ok result) :
    runFrom program eofValue count (fuel + extra) counter machine = .ok result := by
  fun_induction runFrom program eofValue count fuel counter machine with
  | case1 | case3 => cases ran
  | case2 counter machine reached | case6 fuel counter machine reached =>
      rw [runFrom_of_reached (Bool.eq_false_iff.mpr reached)]
      exact ran
  | case4 fuel counter machine below next tried ih =>
      rw [Nat.succ_add, runFrom_succ below, tried]
      exact ih ran
  | case5 fuel counter machine below ended goesOn tried =>
      rw [Nat.succ_add, runFrom_succ below, tried]
      obtain ⟨outcome, final⟩ := ended
      cases outcome with
      | continued => exact absurd rfl (goesOn final)
      | halted halt => exact ran

/-! ## Any count -/

/-- What comes of a count comes of a run of as many instructions, or as many as patience allows. -/
theorem run_of_runNumber (ran : machine.runNumber program eofValue count patience = .ok result) :
    machine.run program eofValue ((rounds? count).getD patience) = result := by
  unfold runNumber at ran
  cases counted : rounds? count with
  | none =>
      rw [counted] at ran
      obtain ⟨halt, final, rfl, halted⟩ := halted_of_runFrom counted (Nat.zero_le _) ran
      exact halted
  | some last =>
      rw [counted] at ran
      exact run_of_runFrom counted (Nat.zero_add last) ran

theorem runNumber_of_rounds (inside : machine.StaysInside program eofValue)
    (counted : rounds? count = some last) (patience : Nat) :
    machine.runNumber program eofValue count patience =
      .ok (machine.run program eofValue last) := by
  rw [runNumber, counted]
  exact runFrom_of_staysInside inside counted (Nat.zero_add last)

theorem halted_of_runNumber (uncounted : rounds? count = none)
    (ran : machine.runNumber program eofValue count patience = .ok result) :
    ∃ halt final, result = (.halted halt, final) ∧
      machine.run program eofValue patience = (.halted halt, final) := by
  rw [runNumber, uncounted] at ran
  exact halted_of_runFrom uncounted (Nat.zero_le _) ran

theorem runNumber_of_halted (inside : machine.StaysInside program eofValue)
    (uncounted : rounds? count = none)
    (ran : machine.run program eofValue patience = (.halted halt, final)) :
    machine.runNumber program eofValue count patience = .ok (.halted halt, final) := by
  rw [runNumber, uncounted]
  exact runFrom_of_halted inside uncounted (Nat.zero_le _) ran

theorem runNumber_of_le (ran : machine.runNumber program eofValue count patience = .ok result)
    (le : patience ≤ more) : machine.runNumber program eofValue count more = .ok result := by
  unfold runNumber at ran ⊢
  cases counted : rounds? count with
  | none =>
      rw [counted] at ran
      obtain ⟨extra, rfl⟩ := Nat.exists_eq_add_of_le le
      exact runFrom_add_fuel extra ran
  | some last =>
      rw [counted] at ran
      exact ran

/-! ## With enough patience -/

namespace ComesTo

variable {rounds : Option Nat}

end ComesTo

end Machine

end TapeDebugger
