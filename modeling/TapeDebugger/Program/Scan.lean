import TapeDebugger.Program.Basic

/-!
# Compiling a source

One scan from the left turns the operators of a source into instructions.  The
indices of the brackets that are still open wait on a stack, the innermost last:
a closing bracket takes that one, and each of the two then points at the other.
The end of the program takes a slot of its own, so one slot stays free during
the scan.
-/

namespace TapeDebugger

namespace Program

/-- What a scan has made of the characters so far; `column` is that of the last one. -/
structure Scan where
  instructions : Array Instruction := #[]
  opens : Array Nat := #[]
  line : Nat := 1
  column : Nat := 0
  deriving DecidableEq, Repr

namespace Scan

def location (scan : Scan) : Location :=
  ⟨scan.line, scan.column⟩

/-- Moves on to the place of one more character; only a line feed starts a new line. -/
def advance (scan : Scan) (char : Char) : Scan :=
  if char = '\n' then { scan with line := scan.line + 1, column := 0 }
  else { scan with column := scan.column + 1 }

/-- Appends an instruction at the place of the last character. -/
def emit (scan : Scan) (operator : Operator) (operand : Nat) : Scan :=
  let location := scan.location
  { scan with instructions := scan.instructions.push ⟨operator, operand, location⟩ }

def refuse (scan : Scan) (fault : Fault) : Except CompileError Scan :=
  .error ⟨fault, scan.location⟩

/-- Appends an opening bracket and lets it wait for its partner. -/
def openLoop (limits : Limits) (scan : Scan) : Except CompileError Scan :=
  if limits.stackSize ≤ scan.opens.size then
    scan.refuse (.tooManyOpens limits.stackSize)
  else
    let index := scan.instructions.size
    .ok ({ scan with opens := scan.opens.push index }.emit .loopStart 0)

/-- Lets the instruction at an index point at another one. -/
def pointAt (instructions : Array Instruction) (index target : Nat) : Array Instruction :=
  instructions.modify index fun instruction => { instruction with operand := target }

/-- Appends a closing bracket and links it with the innermost bracket that waits. -/
def closeLoop : Scan → Except CompileError Scan
  | ⟨instructions, opens, line, column⟩ =>
      match opens.back? with
      | none => .error ⟨.unmatchedClose, ⟨line, column⟩⟩
      | some partner =>
          let linked := pointAt instructions partner instructions.size
          .ok
            { instructions := linked.push ⟨.loopEnd, partner, ⟨line, column⟩⟩
              opens := opens.pop
              line, column }

def place (limits : Limits) (scan : Scan) (operator : Operator) : Except CompileError Scan :=
  if limits.programSize - 1 ≤ scan.instructions.size then
    scan.refuse (.programTooLarge limits.programSize)
  else
    match operator with
    | .loopStart => scan.openLoop limits
    | .loopEnd => scan.closeLoop
    | simple => .ok (scan.emit simple 0)

def step (limits : Limits) (scan : Scan) (char : Char) : Except CompileError Scan :=
  let scan := scan.advance char
  match Operator.ofChar? char with
  | none => .ok scan
  | some operator => scan.place limits operator

/-- Takes in characters, up to the first fault. -/
def run (limits : Limits) (scan : Scan) (chars : List Char) : Except CompileError Scan :=
  chars.foldlM (step limits) scan

/-- Characters in two parts are taken in part by part. -/
theorem run_append (limits : Limits) (scan : Scan) (first second : List Char) :
    scan.run limits (first ++ second) =
      (do let scan ← scan.run limits first; scan.run limits second) := by
  simp [run]

/-- A comment only moves the scan on. -/
theorem step_comment (limits : Limits) (scan : Scan) {char : Char}
    (h : Operator.ofChar? char = none) : scan.step limits char = .ok (scan.advance char) := by
  simp [step, h]

/-- Completes the program behind the last character, unless a bracket still waits. -/
def complete (limits : Limits) (scan : Scan) : Except CompileError Program :=
  match scan.opens.back? with
  | some innermost =>
      .error ⟨.unmatchedOpen,
        ((scan.instructions[innermost]?).map Instruction.location).getD scan.location⟩
  | none =>
      .ok
        { instructions :=
            scan.instructions.push ⟨.finish, 0, ⟨scan.line, scan.column + 1⟩⟩
          capacity := limits.programSize }

end Scan

/-- The program that a source denotes, or its first fault. -/
def compile (limits : Limits) (source : String) : Except CompileError Program := do
  let scan ← Scan.run limits {} source.toList
  scan.complete limits

end Program

end TapeDebugger
