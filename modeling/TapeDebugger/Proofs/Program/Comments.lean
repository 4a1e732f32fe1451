import TapeDebugger.Proofs.Program.Linking
import TapeDebugger.Proofs.Program.Places

/-!
# Comments

What a source compiles to, places left aside, depends on its operators alone.  So
comments can be left out of it and put into it anywhere.  The symbols of a program
print the operators of its source, and compile to the same program again.
-/

namespace TapeDebugger

namespace Program

/-! ## Programs and errors without places -/

/-- A program without the places of its instructions. -/
@[ext] structure Unplaced where
  instructions : List (Operator × Nat)
  capacity : Int
  deriving DecidableEq

def unplaced (program : Program) : Unplaced where
  instructions := program.instructions.toList.map fun instruction =>
    (instruction.operator, instruction.operand)
  capacity := program.capacity

/-- What a source compiles to without places; an error then keeps its name and its message. -/
def withoutPlaces : Except CompileError Program → Except Fault Unplaced
  | .ok program => .ok program.unplaced
  | .error error => .error error.fault

theorem length_unplaced (program : Program) :
    program.unplaced.instructions.length = program.count := by
  simp [unplaced, count]

/-- Without its places a program is made up of its two columns. -/
theorem unplaced_eq_zip (program : Program) :
    program.unplaced.instructions = program.operatorColumn.zip program.operandColumn :=
  List.zip_map'.symm

/-- Programs that encode the same row have the same instructions, places left aside. -/
theorem Encodes.instructions_unique {program program' : Program} {row : List Operator}
    (encodes : program.Encodes row) (another : program'.Encodes row) :
    program.unplaced.instructions = program'.unplaced.instructions := by
  have operators_eq : program.operatorColumn = program'.operatorColumn :=
    encodes.operators_eq.trans another.operators_eq.symm
  have operands_eq : program.operandColumn = program'.operandColumn :=
    encodes.linked.unique (operators_eq ▸ another.linked)
  rw [unplaced_eq_zip, unplaced_eq_zip, operators_eq, operands_eq]

/-- What a source compiles to, places left aside, depends on its operators alone. -/
theorem withoutPlaces_congr {limits : Limits} {source other : String}
    (same : operators other.toList = operators source.toList) :
    withoutPlaces (compile limits other) = withoutPlaces (compile limits source) := by
  have accepted : (∃ program, compile limits other = .ok program) ↔
      ∃ program, compile limits source = .ok program := by
    rw [compile_isOk_iff, compile_isOk_iff, same]
  cases compiled : compile limits source with
  | ok program =>
      obtain ⟨program', compiled'⟩ := accepted.mpr ⟨program, compiled⟩
      have encodes' := encodes_of_compile compiled'
      rw [same] at encodes'
      have capacity_eq : program'.capacity = program.capacity :=
        (count_of_compile compiled').2.trans (count_of_compile compiled).2.symm
      have instructions_eq := encodes'.instructions_unique (encodes_of_compile compiled)
      rw [compiled', withoutPlaces, withoutPlaces]
      exact congrArg Except.ok (Unplaced.ext instructions_eq capacity_eq)
  | error error =>
      cases compiled' : compile limits other with
      | ok program' =>
          obtain ⟨program, compiled''⟩ := accepted.mp ⟨program', compiled'⟩
          cases compiled.symm.trans compiled''
      | error error' =>
          obtain ⟨_, _, blames, -⟩ := blames_of_compile compiled
          obtain ⟨_, _, blames', -⟩ := blames_of_compile compiled'
          rw [same] at blames'
          exact congrArg Except.error (blames'.fault_unique blames)

/-! ## Sources without their comments -/

def isOperator (char : Char) : Bool :=
  (Operator.ofChar? char).isSome

/-- The operators of a source as they are written, all comments left out. -/
def operatorText (source : String) : String :=
  String.ofList (source.toList.filter isOperator)

theorem operators_operatorText (source : String) :
    operators (operatorText source).toList = operators source.toList := by
  rw [operatorText, String.toList_ofList, operators, List.filterMap_filter]
  apply List.filterMap_congr
  intro char _
  cases kind : Operator.ofChar? char <;> simp [isOperator, kind]

/-- A comment holds no operator. -/
theorem operators_eq_nil {text : List Char}
    (comment : ∀ char ∈ text, Operator.ofChar? char = none) : operators text = [] :=
  List.filterMap_eq_nil_iff.mpr comment

/-! ## Printing -/

/-- The symbols of all instructions of a program but its end. -/
def print (program : Program) : String :=
  String.join (program.instructions.toList.dropLast.map fun instruction =>
    instruction.operator.symbol)

/-- The symbols of the operators of a source are their characters. -/
theorem toList_join_symbols (chars : List Char) :
    (String.join ((operators chars).map Operator.symbol)).toList = chars.filter isOperator := by
  induction chars with
  | nil => rfl
  | cons char rest ih =>
      cases kind : Operator.ofChar? char with
      | none => simp [operators_cons, isOperator, kind, ih]
      | some operator =>
          simp [operators_cons, isOperator, kind, ih, Operator.symbol_of_ofChar? kind]

theorem print_of_compile {limits : Limits} {source : String} {program : Program}
    (h : compile limits source = .ok program) : program.print = operatorText source := by
  have column : program.instructions.toList.map Instruction.operator =
      operators source.toList ++ [.finish] := (encodes_of_compile h).operators_eq
  have symbols : program.instructions.toList.dropLast.map
        (fun instruction => instruction.operator.symbol) =
      (operators source.toList).map Operator.symbol := by
    calc program.instructions.toList.dropLast.map (fun instruction => instruction.operator.symbol)
        = (program.instructions.toList.map Instruction.operator).dropLast.map Operator.symbol := by
          rw [← List.map_dropLast, List.map_map]
          rfl
      _ = (operators source.toList).map Operator.symbol := by
          rw [column, List.dropLast_concat]
  rw [print, symbols, operatorText, ← toList_join_symbols, String.ofList_toList]

/-! ## The rule -/

/--
Comments are irrelevant.  Sources with the same operators, as a source and what is left
of it without its comments, or with one more comment anywhere, compile to the same
instructions up to places or are refused for the same fault.  The symbols of a program
are the operators of its source, and compile to the program again, up to places.
-/
theorem comments_are_irrelevant (limits : Limits) (source : String) :
    (∀ other, operators other.toList = operators source.toList →
      withoutPlaces (compile limits other) = withoutPlaces (compile limits source)) ∧
    withoutPlaces (compile limits (operatorText source)) =
      withoutPlaces (compile limits source) ∧
    (∀ before comment after, source = before ++ after →
      (∀ char ∈ comment.toList, Operator.ofChar? char = none) →
      withoutPlaces (compile limits (before ++ comment ++ after)) =
        withoutPlaces (compile limits source)) ∧
    ∀ program, compile limits source = .ok program →
      program.print = operatorText source ∧
      ∃ reprinted, compile limits program.print = .ok reprinted ∧
        reprinted.unplaced = program.unplaced ∧ reprinted.count = program.count := by
  refine ⟨fun other same => withoutPlaces_congr same,
    withoutPlaces_congr (operators_operatorText source), ?_, ?_⟩
  · rintro before comment after rfl free
    apply withoutPlaces_congr
    simp [operators_eq_nil free]
  · intro program compiled
    have printed := print_of_compile compiled
    have same : withoutPlaces (compile limits (operatorText source)) =
        withoutPlaces (compile limits source) :=
      withoutPlaces_congr (operators_operatorText source)
    rw [compiled, ← printed] at same
    refine ⟨printed, ?_⟩
    cases again : compile limits program.print with
    | error error =>
        rw [again] at same
        cases same
    | ok reprinted =>
        rw [again] at same
        have unplaced_eq : reprinted.unplaced = program.unplaced := Except.ok.inj same
        refine ⟨reprinted, rfl, unplaced_eq, ?_⟩
        rw [← length_unplaced, unplaced_eq, length_unplaced]

/-- A loop among comments, one comment more, and a source that is refused with any comment. -/
theorem comments_are_irrelevant_around_loop :
    withoutPlaces (compile { stackSize := 1 } "a[+\nb]é") =
        withoutPlaces (compile { stackSize := 1 } "[+]") ∧
      withoutPlaces (compile { stackSize := 1 } ("[+" ++ "no\n" ++ "]")) =
        withoutPlaces (compile { stackSize := 1 } "[+]") ∧
      (∃ program, compile { stackSize := 1 } "a[+\nb]é" = .ok program ∧ program.print = "[+]") ∧
      withoutPlaces (compile { stackSize := 1 } "no[[\n]") = .error (.tooManyOpens 1) := by
  have accepted : ∃ program, compile { stackSize := 1 } "a[+\nb]é" = .ok program := ⟨_, rfl⟩
  obtain ⟨program, compiled⟩ := accepted
  obtain ⟨congr, -, insert, -⟩ := comments_are_irrelevant { stackSize := 1 } "[+]"
  obtain ⟨congr', -⟩ := comments_are_irrelevant { stackSize := 1 } "[[]"
  obtain ⟨-, -, -, prints⟩ := comments_are_irrelevant { stackSize := 1 } "a[+\nb]é"
  refine ⟨congr _ (by decide), insert "[+" "no\n" "]" rfl (by simp [Operator.ofChar?]),
    ⟨program, compiled, (prints program compiled).1⟩, ?_⟩
  rw [congr' _ (by decide)]
  decide

end Program

end TapeDebugger
