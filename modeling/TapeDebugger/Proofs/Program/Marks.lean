import TapeDebugger.Program.Basic
import Mathlib.Data.List.DropRight

/-!
# The operators of a source

A source is read as the row of its operators, each marked with its place: the
line is counted by the line feeds before it, the column by the characters since
the last of them.  All other characters are comment.
-/

namespace TapeDebugger

namespace Program

/-- The place of a character that stands behind others. -/
def placeBehind (before : List Char) : Location :=
  ⟨before.count '\n' + 1, (before.rtakeWhile (· ≠ '\n')).length + 1⟩

/-- An operator of a source and the place of its character. -/
structure Mark where
  operator : Operator
  location : Location
  deriving DecidableEq, Repr

/-- The row of the operators of a source. -/
def operators (chars : List Char) : List Operator :=
  chars.filterMap Operator.ofChar?

def marksBehind (before : List Char) : List Char → List Mark
  | [] => []
  | char :: rest =>
      ((Operator.ofChar? char).map fun operator => Mark.mk operator (placeBehind before)).toList ++
        marksBehind (before ++ [char]) rest

/-- The marks of a source, one for each operator. -/
def marks (chars : List Char) : List Mark :=
  marksBehind [] chars

/-- The mark of an instruction, its target left aside. -/
def Instruction.mark (instruction : Instruction) : Mark :=
  ⟨instruction.operator, instruction.location⟩

/-! ## Places -/

theorem placeBehind_lineFeed (before : List Char) :
    placeBehind (before ++ ['\n']) = ⟨(placeBehind before).line + 1, 1⟩ := by
  simp [placeBehind]

theorem placeBehind_concat {char : Char} (before : List Char) (h : char ≠ '\n') :
    placeBehind (before ++ [char]) =
      ⟨(placeBehind before).line, (placeBehind before).column + 1⟩ := by
  simp [placeBehind, h]

/-! ## Operators -/

@[simp] theorem operators_append (first second : List Char) :
    operators (first ++ second) = operators first ++ operators second :=
  List.filterMap_append

theorem operators_cons (char : Char) (rest : List Char) :
    operators (char :: rest) = (Operator.ofChar? char).toList ++ operators rest := by
  cases kind : Operator.ofChar? char <;> simp [operators, kind]

theorem operators_comment {char : Char} (h : Operator.ofChar? char = none) :
    operators [char] = [] := by
  simp [operators, h]

theorem operators_singleton {char : Char} {operator : Operator}
    (h : Operator.ofChar? char = some operator) : operators [char] = [operator] := by
  simp [operators, h]

/-- No character of a source stands for the end of a program. -/
theorem finish_notMem_operators (chars : List Char) : Operator.finish ∉ operators chars := by
  intro mem
  obtain ⟨char, _, kind⟩ := List.mem_filterMap.mp mem
  unfold Operator.ofChar? at kind
  split at kind <;> cases kind

/-! ## Marks -/

/-- The marks of a longer source are those of its two parts. -/
theorem marksBehind_append (before first second : List Char) :
    marksBehind before (first ++ second) =
      marksBehind before first ++ marksBehind (before ++ first) second := by
  induction first generalizing before with
  | nil => simp [marksBehind]
  | cons char rest ih => simp [marksBehind, ih]

theorem marks_comment {char : Char} (chars : List Char) (h : Operator.ofChar? char = none) :
    marks (chars ++ [char]) = marks chars := by
  simp [marks, marksBehind_append, marksBehind, h]

theorem marks_concat {char : Char} {operator : Operator} (chars : List Char)
    (h : Operator.ofChar? char = some operator) :
    marks (chars ++ [char]) = marks chars ++ [⟨operator, placeBehind chars⟩] := by
  simp [marks, marksBehind_append, marksBehind, h]

/-- The operators of the marks are those of the source. -/
theorem map_operator_marks (chars : List Char) :
    (marks chars).map Mark.operator = operators chars := by
  suffices every : ∀ before,
      (marksBehind before chars).map Mark.operator = operators chars from every []
  induction chars with
  | nil => intro before; rfl
  | cons char rest ih =>
      intro before
      cases kind : Operator.ofChar? char with
      | none => simp [marksBehind, operators_cons, kind, ih]
      | some operator => simp [marksBehind, operators_cons, kind, ih]

@[simp] theorem length_marks (chars : List Char) :
    (marks chars).length = (operators chars).length := by
  rw [← map_operator_marks, List.length_map]

end Program

end TapeDebugger
