import TapeDebugger.Proofs.Machine.Counting

/-!
# Going on to a limit and without one

Going on to a limit is the same as a run with the limit as its count.  Going on
without a limit ends exactly if some run halts, and it ends as that run does.
-/

namespace TapeDebugger

namespace Machine

variable {program : Program} {eofValue : Number} {machine next final : Machine} {halt : Halt}
  {limit : Nat}

/-! ## Counting instructions -/

/-- Exactly `count` instructions are executed in a row, and only the last of them may halt. -/
inductive Executes (program : Program) (eofValue : Number) :
    (count : Nat) → Machine → Outcome → Machine → Prop where
  | none (machine : Machine) : Executes program eofValue 0 machine .continued machine
  | last {machine final : Machine} {halt : Halt}
      (stepped : machine.stepIn program eofValue = (.halted halt, final)) :
      Executes program eofValue 1 machine (.halted halt) final
  | more {count : Nat} {machine next final : Machine} {outcome : Outcome}
      (stepped : machine.stepIn program eofValue = (.continued, next))
      (rest : Executes program eofValue count next outcome final) :
      Executes program eofValue (count + 1) machine outcome final

/-- What comes of going on to a limit, by the outcome of a run with that count. -/
def Resumption.ofOutcome (limit : Nat) : Outcome → Resumption
  | .continued => paused limit
  | .halted halt => halted halt

/-- The outcome of the run behind a resumption: one that has paused has not halted. -/
def Resumption.outcome : Resumption → Outcome
  | halted halt => .halted halt
  | paused _ => .continued

@[simp] theorem outcome_ofOutcome (limit : Nat) (outcome : Outcome) :
    (Resumption.ofOutcome limit outcome).outcome = outcome := by
  cases outcome <;> rfl

/-- What going on to a limit makes of the result of a run. -/
def resumed (limit : Nat) (result : Outcome × Machine) : Resumption × Machine :=
  (.ofOutcome limit result.1, result.2)

/-- The count that a limit is; no limit is a count without an end. -/
def countOf (limit : Nat) : Number :=
  if 0 < limit then .finite limit else .infinite false

theorem rounds?_countOf (limit : Nat) :
    rounds? (countOf limit) = if Reached limit then some limit else none := by
  unfold countOf
  rcases Nat.eq_zero_or_pos limit with rfl | positive
  · rfl
  · rw [if_pos positive, rounds?_natCast]
    simp only [Reached, positive, true_and]

section Within

variable {steps : Nat} (within : 0 < limit → steps ≤ limit)
include within

/-- The limit is tested by an equation, the count by an inequality; below the limit they agree. -/
theorem isBelow_countOf : isBelow steps (countOf limit) = !decide (0 < limit ∧ steps = limit) := by
  unfold countOf
  rcases Nat.eq_zero_or_pos limit with rfl | positive
  · rfl
  · have le := within positive
    simp only [if_pos positive, isBelow, Nat.cast_lt, ← decide_not, decide_eq_decide]
    omega

theorem tick_within (unpaused : ¬ (0 < limit ∧ steps = limit)) :
    0 < limit → tick steps ≤ limit := by
  intro positive
  have le := within positive
  unfold tick
  split <;> omega

/-- Going on to a limit and executing as many instructions are one loop. -/
theorem resumeFrom_eq_runFrom (fuel : Nat) (machine : Machine) :
    resumeFrom program eofValue limit fuel steps machine =
      (runFrom program eofValue (countOf limit) fuel steps machine).map (resumed limit) := by
  induction fuel generalizing steps machine with
  | zero =>
      have below := isBelow_countOf within
      by_cases paused : 0 < limit ∧ steps = limit
      · rw [decide_eq_true paused] at below
        rw [resumeFrom, if_pos paused, runFrom_of_reached below, paused.2]
        rfl
      · rw [decide_eq_false paused] at below
        rw [resumeFrom, if_neg paused, runFrom, below]
        rfl
  | succ fuel ih =>
      have below := isBelow_countOf within
      by_cases paused : 0 < limit ∧ steps = limit
      · rw [decide_eq_true paused] at below
        rw [resumeFrom, if_pos paused, runFrom_of_reached below, paused.2]
        rfl
      · rw [decide_eq_false paused] at below
        rw [resumeFrom, if_neg paused, runFrom_succ below]
        cases machine.tryStep program eofValue with
        | error interrupt => rfl
        | ok result =>
            obtain ⟨outcome, next⟩ := result
            cases outcome with
            | halted halt => rfl
            | continued => exact ih (tick_within within paused) next

end Within

theorem resume_eq_runNumber (limit patience : Nat) :
    machine.resume program eofValue limit patience =
      (machine.runNumber program eofValue (countOf limit) patience).map (resumed limit) := by
  have fuel_eq : (if Reached limit then limit else patience) =
      (rounds? (countOf limit)).getD patience := by
    rw [rounds?_countOf]
    split <;> rfl
  rw [resume, runNumber, fuel_eq]
  exact resumeFrom_eq_runFrom (fun _ => Nat.zero_le limit) _ machine

/-- Whatever comes of going on comes of a counted run. -/
theorem exists_runNumber_of_resume {patience : Nat} {answer : Resumption × Machine}
    (found : machine.resume program eofValue limit patience = .ok answer) :
    ∃ result, machine.runNumber program eofValue (countOf limit) patience = .ok result ∧
      answer = resumed limit result := by
  rw [resume_eq_runNumber] at found
  cases ran : machine.runNumber program eofValue (countOf limit) patience with
  | error interrupt =>
      rw [ran] at found
      cases found
  | ok result =>
      rw [ran] at found
      exact ⟨result, rfl, (Except.ok.inj found).symm⟩

/-- More patience changes no answer that is there already. -/
theorem resume_of_le {patience more : Nat} {answer : Resumption × Machine}
    (found : machine.resume program eofValue limit patience = .ok answer)
    (le : patience ≤ more) : machine.resume program eofValue limit more = .ok answer := by
  obtain ⟨result, ran, rfl⟩ := exists_runNumber_of_resume found
  rw [resume_eq_runNumber, runNumber_of_le ran le]
  rfl

/-! ## To a limit -/

/-- Without a limit that is reached going on ends just as a run does that halts, or not at all. -/
theorem resume_iff_run (inside : machine.StaysInside program eofValue) (beyond : ¬ Reached limit)
    {resumption : Resumption} :
    (∃ patience, machine.resume program eofValue limit patience = .ok (resumption, final)) ↔
      ∃ halt count, resumption = .halted halt ∧
        machine.run program eofValue count = (.halted halt, final) := by
  have uncounted : rounds? (countOf limit) = none := by rw [rounds?_countOf, if_neg beyond]
  constructor
  · rintro ⟨patience, found⟩
    obtain ⟨result, ran, same⟩ := exists_runNumber_of_resume found
    obtain ⟨halt, final, rfl, halted⟩ := halted_of_runNumber uncounted ran
    cases same
    exact ⟨halt, patience, rfl, halted⟩
  · rintro ⟨halt, count, rfl, ran⟩
    refine ⟨count, ?_⟩
    rw [resume_eq_runNumber, runNumber_of_halted inside uncounted ran]
    rfl

/-! ## Any limit -/

/-- How many instructions are executed on the way, unless a halt comes before. -/
def resumeBound (limit patience : Nat) : Nat :=
  if Reached limit then limit else patience

theorem getD_rounds?_countOf (limit patience : Nat) :
    (rounds? (countOf limit)).getD patience = resumeBound limit patience := by
  rw [rounds?_countOf, resumeBound]
  split <;> rfl

/-- An answer is that of a run with the limit as its count, or the patience where none is reached. -/
theorem run_of_resume {patience : Nat} {resumption : Resumption}
    (found : machine.resume program eofValue limit patience = .ok (resumption, final)) :
    machine.run program eofValue (resumeBound limit patience) = (resumption.outcome, final) := by
  obtain ⟨result, ran, same⟩ := exists_runNumber_of_resume found
  cases same
  rw [← getD_rounds?_countOf, run_of_runNumber ran, outcome_ofOutcome]

end Machine

end TapeDebugger
