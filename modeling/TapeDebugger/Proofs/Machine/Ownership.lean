import TapeDebugger.Proofs.Machine.Emission
import TapeDebugger.Proofs.Machine.Flag
import TapeDebugger.Proofs.Machine.Halting

/-!
# What an instruction owns

On the tape every operator changes its own part of the machine and no other: three of them
the cell at the pointer, two the pointer, one what has been written and one what is
pending.  All of them go on to the next instruction, but for a bracket that jumps and an
instruction that halts, which changes the flag of the run alone.  So a run changes no cell
but those at which one of the three was executed.
-/

namespace TapeDebugger

namespace Machine

variable {program : Program} {eofValue : Number} {target : Position} {machine : Machine}
  {operator : Operator} {index value : Nat}

/-- The operators that store a value in the cell at the pointer. -/
def storing : List Operator :=
  [.increment, .decrement, .input]

/-- The operators that move the pointer. -/
def moving : List Operator :=
  [.moveRight, .moveLeft]

/-- A bracket jumps: an opening one at a cell that is 0, a closing one at any other. -/
def Jumps (machine : Machine) (operator : Operator) : Prop :=
  operator = .loopStart ∧ machine.runtime.cell? = some 0 ∨
    operator = .loopEnd ∧ machine.runtime.cell? ≠ some 0

instance (machine : Machine) (operator : Operator) : Decidable (machine.Jumps operator) :=
  inferInstanceAs (Decidable (_ ∨ _))

theorem not_jumps_of_alone (notStart : operator ≠ .loopStart) (notEnd : operator ≠ .loopEnd) :
    ¬ machine.Jumps operator :=
  not_or.mpr ⟨fun jumps => notStart jumps.1, fun jumps => notEnd jumps.1⟩

theorem tape_step_of_notMem_storing (eofValue : Number) (target : Position)
    (notStoring : operator ∉ storing) :
    (machine.step eofValue operator target).2.runtime.tape = machine.runtime.tape := by
  simp only [storing, List.mem_cons, List.not_mem_nil, or_false, not_or] at notStoring
  exact tape_step_of_not_storing eofValue target notStoring.1 notStoring.2.1 notStoring.2.2

/-! ## The pointer -/

@[simp] theorem Runtime.pointer_store (runtime : Runtime) (value : Nat) :
    (runtime.store value).pointer = runtime.pointer := by
  unfold store
  split <;> rfl

theorem pointer_proceedChanging (change : Nat → Nat) :
    (machine.proceedChanging change).2.runtime.pointer = machine.runtime.pointer := by
  unfold proceedChanging
  split
  · exact machine.runtime.pointer_store _
  · rfl

theorem pointer_step_of_not_moving (eofValue : Number) (target : Position)
    (still : operator ∉ moving) :
    (machine.step eofValue operator target).2.runtime.pointer = machine.runtime.pointer := by
  cases operator with
  | moveRight | moveLeft => exact absurd (by decide) still
  | finish | output => rfl
  | increment | decrement => exact pointer_proceedChanging _
  | input => exact machine.runtime.pointer_store _
  | loopStart | loopEnd =>
      simp only [step]
      split <;> rfl

/-! ## The program counter -/

@[simp] theorem Runtime.pc_store (runtime : Runtime) (value : Nat) :
    (runtime.store value).pc = runtime.pc := by
  unfold store
  split <;> rfl

/-- What goes on goes to the next instruction, or behind its target if it jumps. -/
theorem pc_step_of_continued
    (continued : (machine.step eofValue operator target).1 = .continued) :
    (machine.step eofValue operator target).2.runtime.pc =
      if machine.Jumps operator then target.next else machine.runtime.pc.next := by
  have changing (change : Nat → Nat) :
      (machine.proceedChanging change).2.runtime.pc = machine.runtime.pc.next := by
    unfold proceedChanging
    split
    · exact congrArg Position.next (machine.runtime.pc_store _)
    · rfl
  cases operator with
  | finish => cases continued
  | moveRight | moveLeft =>
      rw [if_neg (not_jumps_of_alone (by decide) (by decide))]
      simp only [step] at continued ⊢
      split at continued
      · cases continued
      · rename_i inside
        rw [if_neg inside]
        rfl
  | increment | decrement =>
      rw [if_neg (not_jumps_of_alone (by decide) (by decide))]
      exact changing _
  | output =>
      rw [if_neg (not_jumps_of_alone (by decide) (by decide))]
      rfl
  | input =>
      rw [if_neg (not_jumps_of_alone (by decide) (by decide))]
      exact congrArg Position.next (machine.runtime.pc_store _)
  | loopStart =>
      simp only [step, Jumps, reduceCtorEq, false_and, or_false, true_and]
      split <;> rfl
  | loopEnd =>
      simp only [step, Jumps, reduceCtorEq, false_and, false_or, true_and, ne_eq, ite_not]
      split <;> rfl

/-- What goes on leaves the flag of the run as it was. -/
theorem running_step_of_continued
    (continued : (machine.step eofValue operator target).1 = .continued) :
    (machine.step eofValue operator target).2.runtime.running = machine.runtime.running := by
  have kept := machine.keepsFlag_step eofValue operator target
  cases stepped : machine.step eofValue operator target with
  | mk outcome next =>
      rw [stepped] at kept continued
      cases continued
      exact kept

/-! ## One instruction -/

/--
What an operator may change of a machine whose pointer is at an index of the tape: all that
is not named here is as it was.
-/
structure Confined (machine : Machine) (index : Nat) (operator : Operator) (target : Position)
    (outcome : Outcome) (next : Machine) : Prop where
  sizes : next.runtime.tape.sizes = machine.runtime.tape.sizes
  otherCells : ∀ other, other ≠ index →
    next.runtime.tape.cell? other = machine.runtime.tape.cell? other
  tape : operator ∉ storing → next.runtime.tape = machine.runtime.tape
  pointer : operator ∉ moving → next.runtime.pointer = .index index
  right : operator = .moveRight → outcome = .continued → next.runtime.pointer = .index (index + 1)
  left : operator = .moveLeft → outcome = .continued →
    ∃ before, index = before + 1 ∧ next.runtime.pointer = .index before
  output : operator ≠ .output → next.channel.output = machine.channel.output
  written : operator = .output →
    next.channel.output = machine.channel.output.push (machine.runtime.cell?.getD 0).toUInt8
  pending : operator ≠ .input → next.channel.pending = machine.channel.pending
  taken : operator = .input → next.channel.pending = machine.channel.pending.drop 1
  running : outcome = .continued → next.runtime.running = machine.runtime.running
  pc : outcome = .continued →
    next.runtime.pc = if machine.Jumps operator then target.next else machine.runtime.pc.next
  halted : ∀ halt, outcome = .halted halt →
    next = { machine with runtime := { machine.runtime with running := false } }

/-- Every operator changes what is its own, and nothing else. -/
theorem step_is_confined (eofValue : Number) (operator : Operator) (target : Position)
    (pointer_eq : machine.runtime.pointer = .index index)
    (onTape : index < machine.runtime.tape.length) :
    machine.Confined index operator target (machine.step eofValue operator target).1
      (machine.step eofValue operator target).2 where
  sizes := sizes_step eofValue operator target
  otherCells other elsewhere := by
    apply cell_step_of_elsewhere
    rw [pointer_eq]
    rintro ⟨⟩
    exact elsewhere rfl
  tape notStoring := tape_step_of_notMem_storing eofValue target notStoring
  pointer still := (pointer_step_of_not_moving eofValue target still).trans pointer_eq
  right moves continued := by
    subst moves
    rcases Nat.lt_or_ge (index + 1) machine.runtime.tape.length with inside | last
    · rw [step_moveRight pointer_eq inside]
      rfl
    · rw [step_moveRight_last pointer_eq last] at continued
      cases continued
  left moves continued := by
    subst moves
    cases index with
    | zero =>
        rw [step_moveLeft_first pointer_eq] at continued
        cases continued
    | succ before =>
        rw [step_moveLeft pointer_eq]
        exact ⟨before, rfl, rfl⟩
  output notOutput := output_step_of_not_output target notOutput
  written outputs := by
    subst outputs
    rfl
  pending notInput := pending_step_of_not_input eofValue target notInput
  taken takes := by
    subst takes
    show machine.channel.read.2.pending = machine.channel.pending.drop 1
    unfold Channel.read
    split <;> simp_all
  running := running_step_of_continued
  pc := pc_step_of_continued
  halted halt halts := (halts_of_step (Prod.ext halts rfl)).2

/-- A machine at the fourth instruction, with its pointer on the second of three cells. -/
def midTape : Machine where
  runtime := { pc := .index 3, pointer := .index 1, tape := ⟨.bits8, #[0, 7, 9]⟩ }
  channel := { output := #[65], pending := [66, 67] }

/-- A closing bracket at a cell that is not 0 goes behind its target; reading takes one byte. -/
theorem step_is_confined_midTape :
    midTape.runtime.pointer = .index 1 ∧ 1 < midTape.runtime.tape.length ∧
      (midTape.step (.finite 0) .loopEnd (.index 1)).2.runtime.pc = .index 2 ∧
      (midTape.step (.finite 0) .loopEnd (.index 1)).2.runtime.tape = midTape.runtime.tape ∧
      (midTape.step (.finite 0) .input (.index 0)).2.channel.pending = [67] ∧
      (midTape.step (.finite 0) .input (.index 0)).2.runtime.tape.cell? 2 = some 9 := by
  have onTape : 1 < midTape.runtime.tape.length := by decide
  have jumped := step_is_confined (.finite 0) .loopEnd (.index 1)
    (show midTape.runtime.pointer = .index 1 from rfl) onTape
  have read := step_is_confined (.finite 0) .input (.index 0)
    (show midTape.runtime.pointer = .index 1 from rfl) onTape
  exact ⟨rfl, onTape, jumped.pc rfl, jumped.tape (by decide), read.taken rfl,
    read.otherCells 2 (by decide)⟩

/-! ## Runs -/

/-- What every instruction of a run leaves alone is left alone by the run. -/
theorem run_leaves {α : Type} {count : Nat} (view : Machine → α) (owned : Execution → Prop)
    (kept : ∀ machine : Machine, ¬ owned (machine.execution program eofValue) →
      view (machine.stepIn program eofValue).2 = view machine)
    (untouched : ∀ execution ∈ machine.executions program eofValue count, ¬ owned execution) :
    view (machine.run program eofValue count).2 = view machine := by
  induction count, machine using count_induction program eofValue with
  | zero machine => rfl
  | continued count machine next stepped ih =>
      rw [executions_succ_of_continued stepped] at untouched
      obtain ⟨here, later⟩ := List.forall_mem_cons.mp untouched
      have first := kept machine here
      rw [stepped] at first
      rw [run_succ_of_continued stepped, ih later, first]
  | halted count machine halt final stepped =>
      rw [executions_succ_of_halted stepped] at untouched
      have here : ¬ owned (machine.execution program eofValue) :=
        untouched _ (List.mem_singleton_self _)
      have first := kept machine here
      rw [stepped] at first
      rw [run_succ_of_halted stepped, first]

/-- A run changes no cell but those at which it executes an operator that stores. -/
theorem cell_run_of_untouched {count : Nat}
    (untouched : ∀ execution ∈ machine.executions program eofValue count,
      ¬ (execution.instruction.operator ∈ storing ∧
        execution.before.runtime.pointer = .index index)) :
    (machine.run program eofValue count).2.runtime.tape.cell? index =
      machine.runtime.tape.cell? index := by
  refine run_leaves (fun machine => machine.runtime.tape.cell? index) _ ?_ untouched
  intro machine notHere
  by_cases stores : (machine.runtime.instruction program).operator ∈ storing
  · exact cell_step_of_elsewhere eofValue _ _ fun here => notHere ⟨stores, here⟩
  · exact congrArg (Tape.cell? · index) (tape_step_of_notMem_storing eofValue _ stores)

/-- Without an operator that moves it the pointer is at the end of a run where it was. -/
theorem pointer_run_of_still {count : Nat}
    (still : ∀ execution ∈ machine.executions program eofValue count,
      ¬ execution.instruction.operator ∈ moving) :
    (machine.run program eofValue count).2.runtime.pointer = machine.runtime.pointer :=
  run_leaves (fun machine => machine.runtime.pointer) _
    (fun _ still => pointer_step_of_not_moving eofValue _ still) still

end Machine

end TapeDebugger
