import TapeDebugger.Proofs.Loop.Execution
import TapeDebugger.Proofs.Machine.Step

/-!
# Machines that mirror a world

A machine mirrors a world if its pointer, cells, pending input and output are
those of the world; the program counter is left open.  One step of an action
then does to the machine what the action does to the world.
-/

namespace TapeDebugger

/-- The end of the tape that a fault of the machine is about. -/
def Machine.Fault.edge : Machine.Fault → Edge
  | .pointerOverflow _ => .right
  | .pointerUnderflow => .left

/-- The ending of a block that a halt of the machine stands for. -/
def Machine.Halt.ending : Machine.Halt → Ending
  | .normal => .finished
  | .error report => .ranOff report.fault.edge

/-- A machine in the state of a world. -/
structure Mirrors (modulus : Nat) (world : World) (machine : Machine) : Prop where
  modulus_eq : machine.runtime.tape.modulus = modulus
  pointer_eq : machine.runtime.pointer = .index world.pointer
  cells_eq : machine.runtime.tape.cells.toList = world.cells
  pending_eq : machine.channel.pending = world.input
  output_eq : machine.channel.output.toList = world.written

namespace Mirrors

variable {modulus : Nat} {world next : World} {machine : Machine}

theorem length_eq (mirrors : Mirrors modulus world machine) :
    machine.runtime.tape.length = world.left.length + world.right.length + 1 := by
  have lengths := congrArg List.length mirrors.cells_eq
  simp only [World.cells, Array.length_toList, List.length_append, List.length_reverse,
    List.length_cons] at lengths
  rw [Machine.Tape.length]
  omega

theorem cell?_eq (mirrors : Mirrors modulus world machine) :
    machine.runtime.tape.cell? world.pointer = some world.current := by
  have found : machine.runtime.tape.cells.toList[world.pointer]? = some world.current := by
    rw [mirrors.cells_eq, World.cells, World.pointer, ← List.length_reverse,
      List.getElem?_append_right (Nat.le_refl _), Nat.sub_self]
    rfl
  rw [Array.getElem?_toList] at found
  exact found

theorem byte_le_modulus (mirrors : Mirrors modulus world machine) : 256 ≤ modulus := by
  rw [← mirrors.modulus_eq]
  exact Nat.le_of_dvd (Machine.CellSize.modulus_pos _) (Machine.CellSize.byte_dvd_modulus _)

theorem goneTo (mirrors : Mirrors modulus world machine) (pc : Machine.Position) :
    Mirrors modulus world (machine.goneTo pc) :=
  ⟨mirrors.modulus_eq, mirrors.pointer_eq, mirrors.cells_eq, mirrors.pending_eq,
    mirrors.output_eq⟩

theorem stopped (mirrors : Mirrors modulus world machine) :
    Mirrors modulus world machine.stopped :=
  ⟨mirrors.modulus_eq, mirrors.pointer_eq, mirrors.cells_eq, mirrors.pending_eq,
    mirrors.output_eq⟩

theorem storedAt (mirrors : Mirrors modulus world machine) {value : Nat}
    (bound : value < modulus) :
    Mirrors modulus { world with current := value } (machine.storedAt world.pointer value) := by
  refine ⟨mirrors.modulus_eq, mirrors.pointer_eq, ?_, mirrors.pending_eq, mirrors.output_eq⟩
  change (machine.runtime.tape.cells.setIfInBounds world.pointer
    (value % machine.runtime.tape.modulus)).toList = _
  rw [mirrors.modulus_eq, Nat.mod_eq_of_lt bound, Array.toList_setIfInBounds, mirrors.cells_eq,
    World.cells, World.cells, World.pointer, ← List.length_reverse,
    List.set_append_right _ _ (Nat.le_refl _), Nat.sub_self, List.set_cons_zero]

/-! ## Residues -/

theorem residue_lt (mirrors : Mirrors modulus world machine) (value : Int) :
    Action.residue modulus value < modulus := by
  have bound := mirrors.byte_le_modulus
  have low := Int.emod_nonneg value (show (modulus : Int) ≠ 0 by omega)
  have high := Int.emod_lt_of_pos value (show (0 : Int) < modulus by omega)
  rw [Action.residue]
  omega

theorem increment_eq (modulus value : Nat) :
    (value + 1) % modulus = Action.residue modulus (value + 1) := by
  have cast : ((value : Int) + 1) % modulus = ((value + 1) % modulus : Nat) := by norm_cast
  rw [Action.residue, cast, Int.toNat_natCast]

theorem decrement_eq {modulus : Nat} (positive : 0 < modulus) (value : Nat) :
    (value + modulus - 1) % modulus = Action.residue modulus (value - 1) := by
  have moved : (value : Int) - 1 + modulus = (value + modulus - 1 : Nat) := by omega
  have cast : ((value : Int) - 1) % modulus = ((value + modulus - 1) % modulus : Nat) := by
    rw [← Int.add_emod_right, moved]
    norm_cast
  rw [Action.residue, cast, Int.toNat_natCast]

/-- At the end of the input the machine takes the residue of an integer. -/
theorem residue_eq (modulus : Nat) (value : Int) :
    Number.residue modulus (.finite value) = Action.residue modulus value := by
  simp [Number.residue, Action.residue]

/-! ## One action -/

/-- What an action does, the machine does in one step. -/
theorem step_of_perform {atEnd : Int} {action : Action} (mirrors : Mirrors modulus world machine)
    (performed : action.perform modulus atEnd world = .ok next) (target : Machine.Position) :
    ∃ machine', machine.step (.finite atEnd) action.operator target = (.continued, machine') ∧
      Mirrors modulus next machine' ∧ machine'.runtime.pc = machine.runtime.pc.next := by
  have pointer_eq := mirrors.pointer_eq
  have cell_eq := mirrors.cell?_eq
  have length_eq := mirrors.length_eq
  have byte_le := mirrors.byte_le_modulus
  cases action with
  | moveRight =>
      cases right : world.right with
      | nil => simp [Action.perform, right] at performed
      | cons nearest others =>
          simp only [Action.perform, right] at performed
          cases performed
          have inside : world.pointer + 1 < machine.runtime.tape.length := by
            rw [length_eq, right, World.pointer, List.length_cons]
            omega
          refine ⟨_, Machine.step_moveRight pointer_eq inside, ?_, rfl⟩
          refine ⟨mirrors.modulus_eq, rfl, ?_, mirrors.pending_eq, mirrors.output_eq⟩
          simp [Machine.movedTo, mirrors.cells_eq, World.cells, right]
  | moveLeft =>
      cases left : world.left with
      | nil => simp [Action.perform, left] at performed
      | cons nearest others =>
          simp only [Action.perform, left] at performed
          cases performed
          have inside : machine.runtime.pointer = .index (others.length + 1) := by
            rw [pointer_eq, World.pointer, left, List.length_cons]
          refine ⟨_, Machine.step_moveLeft inside, ?_, rfl⟩
          refine ⟨mirrors.modulus_eq, rfl, ?_, mirrors.pending_eq, mirrors.output_eq⟩
          simp [Machine.movedTo, mirrors.cells_eq, World.cells, left]
  | increment =>
      cases performed
      refine ⟨_, Machine.step_increment pointer_eq cell_eq, ?_, rfl⟩
      rw [mirrors.modulus_eq, increment_eq]
      exact mirrors.storedAt (mirrors.residue_lt _)
  | decrement =>
      cases performed
      refine ⟨_, Machine.step_decrement pointer_eq cell_eq, ?_, rfl⟩
      rw [mirrors.modulus_eq, decrement_eq (by omega)]
      exact mirrors.storedAt (mirrors.residue_lt _)
  | output =>
      cases performed
      refine ⟨_, Machine.step_output pointer_eq cell_eq, ?_, rfl⟩
      refine ⟨mirrors.modulus_eq, pointer_eq, mirrors.cells_eq, mirrors.pending_eq, ?_⟩
      have low : UInt8.ofNat (world.current % 256) = world.current.toUInt8 := by
        apply UInt8.toNat_inj.mp
        simp
      simp [Machine.goneTo, mirrors.output_eq, low]
  | input =>
      cases pending : world.input with
      | nil =>
          simp only [Action.perform, pending] at performed
          cases performed
          refine ⟨_, Machine.step_input_nil pointer_eq (mirrors.pending_eq.trans pending), ?_, rfl⟩
          rw [mirrors.modulus_eq, residue_eq]
          have stored := mirrors.storedAt (mirrors.residue_lt atEnd)
          exact ⟨stored.modulus_eq, stored.pointer_eq, stored.cells_eq,
            stored.pending_eq.trans pending, stored.output_eq⟩
      | cons byte rest =>
          simp only [Action.perform, pending] at performed
          cases performed
          refine ⟨_, Machine.step_input_cons pointer_eq (mirrors.pending_eq.trans pending), ?_, rfl⟩
          have small : byte.toNat < modulus := by
            have bound := byte.toNat_lt
            omega
          have stored := mirrors.storedAt small
          exact ⟨stored.modulus_eq, stored.pointer_eq, stored.cells_eq, rfl, stored.output_eq⟩

/-- Where an action would leave the tape the machine halts without a change. -/
theorem step_of_refused {atEnd : Int} {action : Action} {edge : Edge}
    (mirrors : Mirrors modulus world machine)
    (refused : action.perform modulus atEnd world = .error edge) (target : Machine.Position) :
    ∃ error, machine.step (.finite atEnd) action.operator target =
        (.halted (.error error), machine.stopped) ∧ error.fault.edge = edge := by
  have pointer_eq := mirrors.pointer_eq
  have length_eq := mirrors.length_eq
  cases action with
  | moveRight =>
      cases right : world.right with
      | nil =>
          simp only [Action.perform, right] at refused
          cases refused
          rw [right, List.length_nil, Nat.add_zero] at length_eq
          have last : machine.runtime.tape.length ≤ world.pointer + 1 := Nat.le_of_eq length_eq
          exact ⟨_, Machine.step_moveRight_last pointer_eq last, rfl⟩
      | cons nearest others => simp [Action.perform, right] at refused
  | moveLeft =>
      cases left : world.left with
      | nil =>
          simp only [Action.perform, left] at refused
          cases refused
          have first : machine.runtime.pointer = .index 0 := by
            rw [pointer_eq, World.pointer, left, List.length_nil]
          exact ⟨_, Machine.step_moveLeft_first first, rfl⟩
      | cons nearest others => simp [Action.perform, left] at refused
  | increment => cases refused
  | decrement => cases refused
  | output => cases refused
  | input =>
      cases pending : world.input with
      | nil => simp [Action.perform, pending] at refused
      | cons byte rest => simp [Action.perform, pending] at refused

end Mirrors

end TapeDebugger
