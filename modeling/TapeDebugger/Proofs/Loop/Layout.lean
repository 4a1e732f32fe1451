import TapeDebugger.Proofs.Loop.Block
import TapeDebugger.Proofs.Program.Linking

/-!
# Blocks laid out in a program

A block is laid out at an index of a program if its operators stand there one
after the other and the two brackets of each of its loops point at each other.
A program that encodes the row of a block has the block laid out at its start.
-/

namespace TapeDebugger

namespace Block

open Brackets (Pair)

/-- The instructions of a block stand in a program from an index on. -/
def Laid (program : Program) : Nat → Block → Prop
  | _, done => True
  | start, act action rest =>
      (∃ operand, program.Has start action.operator operand) ∧ Laid program (start + 1) rest
  | start, loop body rest =>
      program.Has start .loopStart (start + 1 + body.size) ∧
        Laid program (start + 1) body ∧
        program.Has (start + 1 + body.size) .loopEnd start ∧
        Laid program (start + 1 + body.size + 1) rest

theorem pair_of_loop (before after : List Operator) (body : Block) :
    Pair (before ++ Operator.loopStart :: (body.operators ++ .loopEnd :: after)) before.length
      (before.length + 1 + body.size) := by
  have start : (before ++ [Operator.loopStart]).length = before.length + 1 := by simp
  have last : (before ++ Operator.loopStart :: body.operators).length =
      before.length + 1 + body.size := by
    simp only [size, List.length_append, List.length_cons]
    omega
  refine ⟨by omega, ?_, ?_, ?_⟩
  · rw [List.getElem?_append_right (Nat.le_refl _), Nat.sub_self]
    rfl
  · have split : before ++ Operator.loopStart :: (body.operators ++ .loopEnd :: after) =
        (before ++ Operator.loopStart :: body.operators) ++ .loopEnd :: after := by simp
    rw [split, ← last, List.getElem?_append_right (Nat.le_refl _), Nat.sub_self]
    rfl
  · have split : before ++ Operator.loopStart :: (body.operators ++ .loopEnd :: after) =
        ((before ++ [Operator.loopStart]) ++ body.operators) ++ .loopEnd :: after := by simp
    have last' : ((before ++ [Operator.loopStart]) ++ body.operators).length =
        before.length + 1 + body.size := by
      rw [List.length_append, start, size]
    rw [split, ← last', List.take_left, ← start, List.drop_left]
    exact body.balanced_operators

/-- A part of a row that writes a block is laid out where it stands. -/
theorem laid_of_encodes {program : Program} {row : List Operator} (encodes : program.Encodes row)
    (block : Block) {before after : List Operator}
    (split : program.operatorColumn = before ++ (block.operators ++ after)) :
    Laid program before.length block := by
  induction block generalizing before after with
  | done => trivial
  | act action rest ih =>
      have found : program.operatorColumn[before.length]? = some action.operator := by
        rw [split, List.getElem?_append_right (Nat.le_refl _), Nat.sub_self]
        rfl
      have splitRest : program.operatorColumn =
          (before ++ [action.operator]) ++ (rest.operators ++ after) := by
        rw [split]
        simp [operators]
      have laid := ih splitRest
      rw [List.length_append, List.length_singleton] at laid
      exact ⟨Program.exists_has found, laid⟩
  | loop body rest ihBody ihRest =>
      have whole : program.operatorColumn =
          before ++
            Operator.loopStart :: (body.operators ++ .loopEnd :: (rest.operators ++ after)) := by
        rw [split]
        simp [operators]
      have pair := pair_of_loop before (rest.operators ++ after) body
      rw [← whole] at pair
      obtain ⟨opens, closes⟩ := encodes.has_of_pair pair
      have splitBody : program.operatorColumn =
          (before ++ [Operator.loopStart]) ++
            (body.operators ++ .loopEnd :: (rest.operators ++ after)) := by
        rw [whole]
        simp
      have splitRest : program.operatorColumn =
          (before ++ Operator.loopStart :: (body.operators ++ [Operator.loopEnd])) ++
            (rest.operators ++ after) := by
        rw [whole]
        simp
      have inner := ihBody splitBody
      have outer := ihRest splitRest
      rw [List.length_append, List.length_singleton] at inner
      have behind :
          (before ++ Operator.loopStart :: (body.operators ++ [Operator.loopEnd])).length =
            before.length + 1 + body.size + 1 := by
        simp only [size, List.length_append, List.length_cons, List.length_nil]
        omega
      rw [behind] at outer
      exact ⟨opens, inner, closes, outer⟩

/-- A program that encodes the row of a block has the block at its start and its end behind it. -/
theorem laid_at_start {program : Program} {block : Block}
    (encodes : program.Encodes block.operators) :
    Laid program 0 block ∧ ∃ operand, program.Has block.size .finish operand := by
  have split : program.operatorColumn = [] ++ (block.operators ++ [.finish]) :=
    encodes.operators_eq
  have laid := laid_of_encodes encodes block split
  have last : program.operatorColumn[block.size]? = some .finish :=
    encodes.finish_iff.mpr encodes.count_eq.symm
  exact ⟨laid, Program.exists_has last⟩

end Block

end TapeDebugger
