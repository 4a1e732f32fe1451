import TapeDebugger.Machine.Basic

/-!
# Runs

A run executes instructions one after the other until the program halts, a
given number of them is done, or the step limit is reached.

What is done is counted in binary64 values.  A counter is exact up to the 53rd power of
2 and stays there for good, so that a greater number of instructions is never reached.
-/

namespace TapeDebugger

namespace Machine

/-! ## Exact counts -/

/-- Executes the instruction at the program counter, which is to be in the program. -/
def stepIn (program : Program) (eofValue : Number) (machine : Machine) : Outcome × Machine :=
  let instruction := machine.runtime.instruction program
  machine.step eofValue instruction.operator (.index instruction.operand)

/-- Executes up to `count` instructions, and no more once the program has halted. -/
def run (program : Program) (eofValue : Number) : Nat → Machine → Outcome × Machine
  | 0, machine => (.continued, machine)
  | count + 1, machine =>
      match machine.stepIn program eofValue with
      | (.continued, machine) => run program eofValue count machine
      | halted => halted

/-- A count of two parts is executed part by part, unless the first part halts. -/
theorem run_add (program : Program) (eofValue : Number) (first second : Nat)
    (machine : Machine) :
    machine.run program eofValue (first + second) =
      match machine.run program eofValue first with
      | (.continued, machine) => machine.run program eofValue second
      | halted => halted := by
  induction first generalizing machine with
  | zero => simp [run]
  | succ first ih =>
      rw [Nat.succ_add]
      simp only [run]
      split
      · exact ih _
      · split
        · simp_all
        · rfl

/-! ## Interruptions -/

/-- Why instructions in a row have no outcome. -/
inductive Interrupt where
  | missingInstruction
  | outOfPatience
  deriving DecidableEq, Repr

/-- The error that is thrown; losing patience is none. -/
def Interrupt.message? : Interrupt → Option String
  | missingInstruction => some "Cannot read properties of undefined (reading 'operator')"
  | outOfPatience => none

/-- Executes the instruction at the program counter, if there is one. -/
def tryStep (program : Program) (eofValue : Number) (machine : Machine) :
    Except Interrupt (Outcome × Machine) :=
  if machine.runtime.isInside program then .ok (machine.stepIn program eofValue)
  else .error .missingInstruction

theorem tryStep_of_inside {program : Program} {machine : Machine}
    (inside : machine.runtime.isInside program = true) (eofValue : Number) :
    machine.tryStep program eofValue = .ok (machine.stepIn program eofValue) :=
  if_pos inside

theorem tryStep_eq_ok_iff {program : Program} {eofValue : Number} {machine : Machine}
    {result : Outcome × Machine} :
    machine.tryStep program eofValue = .ok result ↔
      machine.runtime.isInside program = true ∧ machine.stepIn program eofValue = result := by
  rw [tryStep]
  split
  · rename_i inside
    simp [inside]
  · rename_i outside
    simp [outside]

/-! ## Counters -/

/-- A counter after one more round: the next number, rounded. -/
def tick (counter : Nat) : Nat :=
  if counter < Number.exactIntegerBound then counter + 1 else counter

/-- Whether a counter is below a number; none is below a number that is NaN. -/
def isBelow (counter : Nat) : Number → Bool
  | .nan => false
  | .infinite negative => !negative
  | .finite value => (counter : Rat) < value

/--
Executes instructions while the counter is below `count` and the program has not
halted.  There is no answer if the fuel is spent before.
-/
def runFrom (program : Program) (eofValue count : Number) :
    (fuel counter : Nat) → Machine → Except Interrupt (Outcome × Machine)
  | 0, counter, machine =>
      if isBelow counter count then .error .outOfPatience else .ok (.continued, machine)
  | fuel + 1, counter, machine =>
      if isBelow counter count then
        match machine.tryStep program eofValue with
        | .error interrupt => .error interrupt
        | .ok (.continued, machine) => runFrom program eofValue count fuel (tick counter) machine
        | .ok halted => .ok halted
      else .ok (.continued, machine)

/-- How many rounds a count stands for: none of less than one, and no bound beyond all counters. -/
def rounds? : Number → Option Nat
  | .nan => some 0
  | .infinite negative => if negative then some 0 else none
  | .finite value =>
      if value ≤ (Number.exactIntegerBound : Rat) then some value.ceil.toNat else none

/--
Executes up to `count` instructions.  A count bounds the run by itself if a counter
reaches it; otherwise the run is bounded by the given patience.
-/
def runNumber (program : Program) (eofValue count : Number) (patience : Nat)
    (machine : Machine) : Except Interrupt (Outcome × Machine) :=
  runFrom program eofValue count ((rounds? count).getD patience) 0 machine

/-! ## Going on -/

/-- What comes of going on without a count. -/
inductive Resumption where
  | halted (halt : Halt)
  | paused (steps : Nat)
  deriving DecidableEq, Repr

/--
Executes instructions until the program halts or the counter is at `limit`; a
limit of 0 is none.  There is no answer if the fuel is spent before.
-/
def resumeFrom (program : Program) (eofValue : Number) (limit : Nat) :
    (fuel steps : Nat) → Machine → Except Interrupt (Resumption × Machine)
  | 0, steps, machine =>
      if 0 < limit ∧ steps = limit then .ok (.paused steps, machine) else .error .outOfPatience
  | fuel + 1, steps, machine =>
      if 0 < limit ∧ steps = limit then .ok (.paused steps, machine)
      else
        match machine.tryStep program eofValue with
        | .error interrupt => .error interrupt
        | .ok (.continued, machine) =>
            resumeFrom program eofValue limit fuel (tick steps) machine
        | .ok (.halted halt, machine) => .ok (.halted halt, machine)

/-- A limit that a counter comes to. -/
def Reached (limit : Nat) : Prop :=
  0 < limit ∧ limit ≤ Number.exactIntegerBound

instance (limit : Nat) : Decidable (Reached limit) :=
  inferInstanceAs (Decidable (_ ∧ _))

/--
Executes instructions until the program halts or the limit is reached.  A limit
bounds the run by itself if a counter reaches it; otherwise, and without a limit, the run
is bounded by the given patience.
-/
def resume (program : Program) (eofValue : Number) (limit patience : Nat) (machine : Machine) :
    Except Interrupt (Resumption × Machine) :=
  resumeFrom program eofValue limit (if Reached limit then limit else patience) 0 machine

end Machine

end TapeDebugger
