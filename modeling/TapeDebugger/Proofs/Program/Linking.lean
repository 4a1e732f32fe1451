import TapeDebugger.Proofs.Program.ScanInvariant

/-!
# How the brackets of a program are linked

A program encodes the row of operators of its source: its instructions are those
operators and the end behind them, and the operands of its brackets are the
indices of their partners.  So the links are a bijection between the opening and
the closing brackets, two linked pairs never cross, and no jump leaves the program.
-/

namespace TapeDebugger

namespace Program

open Brackets (Balanced Pair Pending Linked)

/-! ## The two columns of a program -/

def operatorColumn (program : Program) : List Operator :=
  program.instructions.toList.map Instruction.operator

def operandColumn (program : Program) : List Nat :=
  program.instructions.toList.map Instruction.operand

/-- At an index stands an instruction with an operator and an operand. -/
def Has (program : Program) (index : Nat) (operator : Operator) (operand : Nat) : Prop :=
  ∃ location, program.instructions[index]? = some ⟨operator, operand, location⟩

@[simp] theorem length_operatorColumn (program : Program) :
    program.operatorColumn.length = program.count := by
  simp [operatorColumn, count]

/-- An instruction is read off the two columns. -/
theorem has_iff (program : Program) (index : Nat) (operator : Operator) (operand : Nat) :
    program.Has index operator operand ↔
      program.operatorColumn[index]? = some operator ∧
        program.operandColumn[index]? = some operand := by
  simp only [Has, operatorColumn, operandColumn, List.getElem?_map, Array.getElem?_toList]
  constructor
  · rintro ⟨location, found⟩
    simp [found]
  · rintro ⟨operatorFound, operandFound⟩
    cases found : program.instructions[index]? with
    | none =>
        rw [found] at operatorFound
        cases operatorFound
    | some instruction =>
        rw [found] at operatorFound operandFound
        cases operatorFound
        cases operandFound
        exact ⟨instruction.location, rfl⟩

theorem Has.index_lt {program : Program} {index operand : Nat} {operator : Operator}
    (has : program.Has index operator operand) : index < program.count := by
  obtain ⟨location, found⟩ := has
  exact (Array.getElem?_eq_some_iff.mp found).1

theorem has_fetch {program : Program} {index : Nat} (h : index < program.count) :
    program.Has index (program.fetch index).operator (program.fetch index).operand :=
  ⟨(program.fetch index).location, getElem?_eq_some_fetch h⟩

theorem exists_has {program : Program} {index : Nat} {operator : Operator}
    (found : program.operatorColumn[index]? = some operator) :
    ∃ operand, program.Has index operator operand := by
  have bound := (List.getElem?_eq_some_iff.mp found).1
  rw [length_operatorColumn] at bound
  have fetched := has_fetch bound
  have operator_eq := Option.some.inj (((has_iff _ _ _ _).mp fetched).1.symm.trans found)
  exact ⟨_, operator_eq ▸ fetched⟩

theorem Has.fetch_eq {program : Program} {index operand : Nat} {operator : Operator}
    (has : program.Has index operator operand) :
    (program.fetch index).operator = operator ∧ (program.fetch index).operand = operand := by
  obtain ⟨location, found⟩ := has
  have fetched := getElem?_eq_some_fetch (Array.getElem?_eq_some_iff.mp found).1
  rw [found] at fetched
  rw [← Option.some.inj fetched]
  exact ⟨rfl, rfl⟩

/-! ## Programs that encode a row -/

/-- A program is the compiled form of a row of operators. -/
structure Encodes (program : Program) (row : List Operator) : Prop where
  operators_eq : program.operatorColumn = row ++ [.finish]
  finish_notMem : Operator.finish ∉ row
  pending : Pending program.operatorColumn []
  linked : Linked program.operatorColumn program.operandColumn

/-- A compiled program encodes the operators of its source. -/
theorem encodes_of_compile {limits : Limits} {source : String} {program : Program}
    (h : compile limits source = .ok program) : program.Encodes (operators source.toList) := by
  obtain ⟨scan, ran, empty, rfl⟩ := compile_eq_ok h
  have sound := (Scan.sound_of_run ran).1
  have pending := sound.pending
  rw [empty] at pending
  have operators_eq : scan.instructions.toList.map Instruction.operator =
      operators source.toList := by
    rw [← map_operator_marks, ← sound.marks_eq, List.map_map]
    rfl
  refine ⟨?_, finish_notMem_operators _, ?_, ?_⟩
  · simp [operatorColumn, operators_eq]
  · have ended := pending.alone (show Operator.finish ≠ .loopStart by decide) (by decide)
    simpa [operatorColumn, operators_eq] using ended
  · have ended := sound.linked.concat (show Operator.finish ≠ .loopEnd by decide)
    simpa [operatorColumn, operandColumn, operators_eq] using ended

/-- Some source compiles to the program. -/
def Compiled (program : Program) : Prop :=
  ∃ limits source, compile limits source = .ok program

theorem Compiled.encodes {program : Program} (compiled : program.Compiled) :
    ∃ row, program.Encodes row := by
  obtain ⟨limits, source, compiled⟩ := compiled
  exact ⟨_, encodes_of_compile compiled⟩

namespace Encodes

variable {program : Program} {row : List Operator} {first last index operand : Nat}
  {operator : Operator}

theorem count_eq (encodes : program.Encodes row) : program.count = row.length + 1 := by
  rw [← length_operatorColumn, encodes.operators_eq, List.length_append, List.length_singleton]

/-- The end of a program is its last instruction, and no other is. -/
theorem finish_iff (encodes : program.Encodes row) :
    program.operatorColumn[index]? = some .finish ↔ index + 1 = program.count := by
  rw [encodes.count_eq, encodes.operators_eq]
  constructor
  · intro found
    rcases Brackets.concat_cases found with ⟨_, inside⟩ | ⟨same, _⟩
    · exact absurd (List.mem_of_getElem? inside) encodes.finish_notMem
    · omega
  · intro last
    have same : index = row.length := by omega
    rw [same, List.getElem?_concat_length]

/-- Behind every instruction but the end stands another one. -/
theorem succ_lt (encodes : program.Encodes row) (has : program.Has index operator operand)
    (notFinish : operator ≠ .finish) : index + 1 < program.count := by
  have bound := has.index_lt
  rcases Nat.lt_or_ge (index + 1) program.count with inside | outside
  · exact inside
  · have atEnd := encodes.finish_iff.mpr (show index + 1 = program.count by omega)
    rw [((has_iff _ _ _ _).mp has).1] at atEnd
    exact absurd (Option.some.inj atEnd) notFinish

/-- The operands of two partners are the indices of each other. -/
theorem has_of_pair (encodes : program.Encodes row)
    (pair : Pair program.operatorColumn first last) :
    program.Has first .loopStart last ∧ program.Has last .loopEnd first := by
  obtain ⟨atFirst, atLast⟩ := encodes.linked.paired first last pair
  exact ⟨(has_iff _ _ _ _).mpr ⟨pair.opens, atFirst⟩,
    (has_iff _ _ _ _).mpr ⟨pair.closes, atLast⟩⟩

/-- The operand of an opening bracket is its partner. -/
theorem pair_of_loopStart (encodes : program.Encodes row)
    (has : program.Has first .loopStart last) : Pair program.operatorColumn first last := by
  obtain ⟨opens, operand⟩ := (has_iff _ _ _ _).mp has
  rcases encodes.pending.start_cases first opens with waits | ⟨partner, pair⟩
  · cases waits
  · have target := (encodes.linked.paired first partner pair).1
    rw [operand] at target
    exact Option.some.inj target ▸ pair

/-- The operand of a closing bracket is its partner. -/
theorem pair_of_loopEnd (encodes : program.Encodes row)
    (has : program.Has last .loopEnd first) : Pair program.operatorColumn first last := by
  obtain ⟨closes, operand⟩ := (has_iff _ _ _ _).mp has
  obtain ⟨partner, pair⟩ := encodes.pending.end_paired last closes
  have target := (encodes.linked.paired partner last pair).2
  rw [operand] at target
  exact Option.some.inj target ▸ pair

theorem operand_eq_zero (encodes : program.Encodes row)
    (has : program.Has index operator operand) (notStart : operator ≠ .loopStart)
    (notEnd : operator ≠ .loopEnd) : operand = 0 := by
  have bound := has.index_lt
  obtain ⟨found, target⟩ := (has_iff _ _ _ _).mp has
  have zero := encodes.linked.alone index (by rw [length_operatorColumn]; exact bound) (by
    intro other
    refine ⟨fun pair => notStart ?_, fun pair => notEnd ?_⟩
    · exact Option.some.inj (found.symm.trans pair.opens)
    · exact Option.some.inj (found.symm.trans pair.closes))
  rw [target] at zero
  exact Option.some.inj zero

/-- Behind the operand of every instruction but the end stands another instruction. -/
theorem operand_succ_lt (encodes : program.Encodes row)
    (has : program.Has index operator operand) (notFinish : operator ≠ .finish) :
    operand + 1 < program.count := by
  by_cases start : operator = .loopStart
  · have pair := encodes.pair_of_loopStart (start ▸ has)
    exact encodes.succ_lt (encodes.has_of_pair pair).2 (by decide)
  by_cases ends : operator = .loopEnd
  · have pair := encodes.pair_of_loopEnd (ends ▸ has)
    exact encodes.succ_lt (encodes.has_of_pair pair).1 (by decide)
  have inside := encodes.succ_lt has notFinish
  rw [encodes.operand_eq_zero has start ends]
  omega

end Encodes

/-! ## Links -/

/-- The links of a program are a bijection between its brackets that nests without overlap. -/
structure WellLinked (program : Program) : Prop where
  size_eq : program.instructions.size = program.count
  finish_iff : ∀ index,
    (∃ operand, program.Has index .finish operand) ↔ index + 1 = program.count
  loopStart : ∀ first last, program.Has first .loopStart last →
    first < last ∧ last + 1 < program.count ∧ program.Has last .loopEnd first
  loopEnd : ∀ first last, program.Has last .loopEnd first →
    first < last ∧ program.Has first .loopStart last
  nested : ∀ first last first' last', program.Has first .loopStart last →
    program.Has first' .loopStart last' → first < first' → last < first' ∨ last' < last
  inner : ∀ first last, program.Has first .loopStart last →
    Balanced ((program.operatorColumn.take last).drop (first + 1))
  alone : ∀ index operator operand, program.Has index operator operand →
    operator ≠ .loopStart → operator ≠ .loopEnd → operand = 0

/-- Compiling links every bracket with its partner. -/
theorem wellLinked_of_compile {limits : Limits} {source : String} {program : Program}
    (h : compile limits source = .ok program) : program.WellLinked := by
  have encodes := encodes_of_compile h
  refine ⟨rfl, ?_, ?_, ?_, ?_, ?_, ?_⟩
  · intro index
    constructor
    · rintro ⟨operand, has⟩
      exact encodes.finish_iff.mp ((has_iff _ _ _ _).mp has).1
    · intro last
      exact exists_has (encodes.finish_iff.mpr last)
  · intro first last has
    have pair := encodes.pair_of_loopStart has
    have linked := (encodes.has_of_pair pair).2
    exact ⟨pair.lt, encodes.succ_lt linked (by decide), linked⟩
  · intro first last has
    have pair := encodes.pair_of_loopEnd has
    exact ⟨pair.lt, (encodes.has_of_pair pair).1⟩
  · intro first last first' last' has another later
    exact (encodes.pair_of_loopStart has).disjoint_or_nested
      (encodes.pair_of_loopStart another) later
  · intro first last has
    exact (encodes.pair_of_loopStart has).inner
  · intro index operator operand has notStart notEnd
    exact encodes.operand_eq_zero has notStart notEnd

/-- The links of two nested loops and one behind them, among comments. -/
theorem wellLinked_nested_loops :
    ∃ program, compile { programSize := 9, stackSize := 2 } "[a[+]]\n[]" = .ok program ∧
      program.operandColumn = [4, 3, 0, 1, 0, 6, 5, 0] ∧ program.WellLinked := by
  have compiled : compile { programSize := 9, stackSize := 2 } "[a[+]]\n[]" =
      .ok
        { instructions :=
            #[⟨.loopStart, 4, ⟨1, 1⟩⟩, ⟨.loopStart, 3, ⟨1, 3⟩⟩, ⟨.increment, 0, ⟨1, 4⟩⟩,
              ⟨.loopEnd, 1, ⟨1, 5⟩⟩, ⟨.loopEnd, 0, ⟨1, 6⟩⟩, ⟨.loopStart, 6, ⟨2, 1⟩⟩,
              ⟨.loopEnd, 5, ⟨2, 2⟩⟩, ⟨.finish, 0, ⟨2, 3⟩⟩]
          capacity := 9 } := by decide
  exact ⟨_, compiled, rfl, wellLinked_of_compile compiled⟩

end Program

end TapeDebugger
