import TapeDebugger.Proofs.Program.Brackets

/-!
# Blocks

A block is a structured program: actions in sequence, and loops around blocks.
Written out as a row of operators it is balanced, every balanced row is written
by a block, and no two blocks write the same row.
-/

namespace TapeDebugger

/-- What a program can do beside repeating a loop. -/
inductive Action where
  | moveRight
  | moveLeft
  | increment
  | decrement
  | output
  | input
  deriving DecidableEq, Repr

def Action.operator : Action → Operator
  | moveRight => .moveRight
  | moveLeft => .moveLeft
  | increment => .increment
  | decrement => .decrement
  | output => .output
  | input => .input

/-- Actions and loops in sequence; a loop has a block for its body. -/
inductive Block where
  | done
  | act (action : Action) (rest : Block)
  | loop (body rest : Block)
  deriving DecidableEq, Repr

namespace Block

open Brackets (depth level Balanced)

/-- The row of operators that writes a block. -/
def operators : Block → List Operator
  | done => []
  | act action rest => action.operator :: rest.operators
  | loop body rest => .loopStart :: (body.operators ++ .loopEnd :: rest.operators)

def size (block : Block) : Nat :=
  block.operators.length

@[simp] theorem size_act (action : Action) (rest : Block) :
    (act action rest).size = rest.size + 1 := rfl

@[simp] theorem size_loop (body rest : Block) :
    (loop body rest).size = body.size + rest.size + 2 := by
  simp only [size, operators, List.length_cons, List.length_append]
  omega

/-! ## Blocks are balanced -/

theorem depth_action (action : Action) : depth [action.operator] = 0 := by
  cases action <;> rfl

theorem balanced_operators (block : Block) : Balanced block.operators := by
  induction block with
  | done => exact ⟨fun index => by simp [operators, level], rfl⟩
  | act action rest ih =>
      constructor
      · intro index
        cases index with
        | zero => simp
        | succ index =>
            rw [operators, Brackets.level_cons_succ, depth_action, Int.zero_add]
            exact ih.nonneg index
      · rw [operators, Brackets.depth_cons, depth_action, Int.zero_add]
        exact ih.closed
  | loop body rest ihBody ihRest =>
      have whole := ihBody.wrap.append ihRest
      simpa [operators] using whole

/-! ## Balanced rows are blocks -/

/-- Blocks with one closing bracket behind each but the last. -/
inductive Closing : Nat → List Operator → Prop where
  | last (block : Block) : Closing 0 block.operators
  | more (block : Block) {height : Nat} {rest : List Operator} (closing : Closing height rest) :
      Closing (height + 1) (block.operators ++ .loopEnd :: rest)

/-- What can be put in front of a block can be put in front of the first of several. -/
theorem Closing.extend {height : Nat} {row : List Operator} (front : List Operator)
    (wrap : Block → Block)
    (wrap_eq : ∀ block, (wrap block).operators = front ++ block.operators)
    (closing : Closing height row) : Closing height (front ++ row) := by
  cases closing with
  | last block =>
      rw [← wrap_eq]
      exact .last (wrap block)
  | more block closing =>
      rw [← List.append_assoc, ← wrap_eq]
      exact .more (wrap block) closing

/-- A row that never closes more than `height` loops, and in the end closes as many. -/
theorem closing_of_levels {row : List Operator} {height : Nat}
    (noFinish : Operator.finish ∉ row) (above : ∀ index, -(height : Int) ≤ level row index)
    (back : depth row = -(height : Int)) : Closing height row := by
  induction row generalizing height with
  | nil =>
      have flat : height = 0 := by
        rw [Brackets.depth_nil] at back
        omega
      subst flat
      exact .last .done
  | cons operator rest ih =>
      have restNoFinish : Operator.finish ∉ rest := fun mem => noFinish (List.mem_cons_of_mem _ mem)
      have below : ∀ index, -(height : Int) ≤ depth [operator] + level rest index := by
        intro index
        rw [← Brackets.level_cons_succ]
        exact above (index + 1)
      rw [Brackets.depth_cons] at back
      have action (action : Action) (same : operator = action.operator) :
          Closing height (operator :: rest) := by
        subst same
        simp only [depth_action, Int.zero_add] at back below
        exact (ih restNoFinish below back).extend [action.operator] (.act action) fun block => rfl
      cases operator with
      | finish => exact absurd List.mem_cons_self noFinish
      | loopStart =>
          simp only [Brackets.depth_loopStart] at back below
          have inside : ∀ index, -((height + 1 : Nat) : Int) ≤ level rest index := by
            intro index
            have here := below index
            omega
          have inner : Closing (height + 1) rest := ih restNoFinish inside (by omega)
          cases inner with
          | more body closing =>
              have whole := closing.extend (.loopStart :: (body.operators ++ [.loopEnd]))
                (.loop body) fun block => by simp [operators]
              simpa using whole
      | loopEnd =>
          simp only [Brackets.depth_loopEnd] at back below
          have here := below 0
          rw [Brackets.level_zero] at here
          obtain ⟨less, rfl⟩ : ∃ less, height = less + 1 := ⟨height - 1, by omega⟩
          have behind : ∀ index, -(less : Int) ≤ level rest index := by
            intro index
            have here := below index
            omega
          exact .more .done (ih restNoFinish behind (by omega))
      | moveRight => exact action .moveRight rfl
      | moveLeft => exact action .moveLeft rfl
      | increment => exact action .increment rfl
      | decrement => exact action .decrement rfl
      | output => exact action .output rfl
      | input => exact action .input rfl

/-- A balanced row of operators is written by a block. -/
theorem exists_operators_eq {row : List Operator} (balanced : Balanced row)
    (noFinish : Operator.finish ∉ row) : ∃ block : Block, block.operators = row := by
  have closing : Closing 0 row := closing_of_levels noFinish balanced.nonneg balanced.closed
  cases closing with
  | last block => exact ⟨block, rfl⟩

/-! ## One block for each row -/

/-- A row that does not go on a block: it is empty or starts with a closing bracket. -/
def Stops (row : List Operator) : Prop :=
  ∀ operator rest, row = operator :: rest → operator = .loopEnd

theorem stops_nil : Stops [] := by
  intro operator rest same
  cases same

theorem stops_loopEnd (rest : List Operator) : Stops (.loopEnd :: rest) := by
  intro operator rest' same
  cases same
  rfl

/-- Where a block stops can be read off its row. -/
theorem append_inj {block other : Block} {rest rest' : List Operator} (stops : Stops rest)
    (stops' : Stops rest') (same : block.operators ++ rest = other.operators ++ rest') :
    block = other ∧ rest = rest' := by
  induction block generalizing other rest rest' with
  | done =>
      cases other with
      | done => exact ⟨rfl, same⟩
      | act action tail =>
          have ends := stops _ _ same
          cases action <;> cases ends
      | loop body tail =>
          have ends := stops _ _ same
          cases ends
  | act action tail ih =>
      cases other with
      | done =>
          have ends := stops' _ _ same.symm
          cases action <;> cases ends
      | act action' tail' =>
          injection same with head rows
          obtain ⟨rfl, rests⟩ := ih stops stops' rows
          have actions : action = action' := by
            cases action <;> cases action' <;> first | rfl | cases head
          exact ⟨by rw [actions], rests⟩
      | loop body tail' =>
          injection same with head rows
          cases action <;> cases head
  | loop body tail ihBody ihTail =>
      cases other with
      | done =>
          have ends := stops' _ _ same.symm
          cases ends
      | act action' tail' =>
          injection same with head rows
          cases action' <;> cases head
      | loop body' tail' =>
          rw [operators, operators, List.cons_append, List.cons_append, List.append_assoc,
            List.append_assoc] at same
          injection same with _ rows
          obtain ⟨rfl, tails⟩ := ihBody (stops_loopEnd _) (stops_loopEnd _) rows
          injection tails with _ rows
          obtain ⟨rfl, rests⟩ := ihTail stops stops' rows
          exact ⟨rfl, rests⟩

/-- Two blocks that are written alike are the same. -/
theorem operators_injective {block other : Block} (same : block.operators = other.operators) :
    block = other := by
  have whole : block.operators ++ [] = other.operators ++ [] := by
    rw [List.append_nil, List.append_nil]
    exact same
  exact (append_inj stops_nil stops_nil whole).1

end Block

end TapeDebugger
