import TapeDebugger.Number.Decimal

/-!
# The tape

A tape is a row of cells.  A cell holds one of 256, 65536 or 4294967296 values
and wraps around at its ends.
-/

namespace TapeDebugger

namespace Machine

/-! ## Cell sizes -/

/-- How many bits a cell has. -/
inductive CellSize where
  | bits8
  | bits16
  | bits32
  deriving DecidableEq, Repr

namespace CellSize

def all : List CellSize :=
  [bits8, bits16, bits32]

def modulus : CellSize → Nat
  | bits8 => 256
  | bits16 => 65536
  | bits32 => 4294967296

theorem modulus_pos (size : CellSize) : 0 < size.modulus := by
  cases size <;> decide

/-- The values of a byte divide evenly into those of a cell. -/
theorem byte_dvd_modulus (size : CellSize) : 256 ∣ size.modulus := by
  cases size <;> decide

/-- The cell size with as many values as a number says. -/
def ofNumber? (values : Number) : Option CellSize :=
  all.find? fun size => values = .finite size.modulus

end CellSize

/-! ## Tapes -/

/-- A row of cells of one size. -/
structure Tape where
  cellSize : CellSize
  cells : Array Nat
  deriving DecidableEq, Repr

/-- Why there is no tape of the size asked for. -/
inductive TapeError where
  | unsupportedCellSize (values : Number)
  | invalidLength (length : Number)
  deriving DecidableEq, Repr

def TapeError.message : TapeError → String
  | unsupportedCellSize values => s!"Unsupported cell size: {values.text}"
  | invalidLength length => s!"Invalid typed array length: {length.text}"

namespace Tape

/-- The greatest length of a tape, one below the 53rd power of 2. -/
def maxLength : Nat := 9007199254740991

def modulus (tape : Tape) : Nat :=
  tape.cellSize.modulus

def length (tape : Tape) : Nat :=
  tape.cells.size

def blank (cellSize : CellSize) (length : Nat) : Tape :=
  ⟨cellSize, Array.replicate length 0⟩

/-- The length that a number asks for: it is cut toward 0, and what is no number asks for 0. -/
def lengthOf? : Number → Option Nat
  | .infinite _ => none
  | length =>
      let cells := length.truncated
      if 0 ≤ cells ∧ cells ≤ maxLength then some cells.toNat else none

/-- A tape of a given cell size and length, all of whose cells are 0. -/
def create (cellSize : CellSize) (length : Number) : Except TapeError Tape :=
  match lengthOf? length with
  | some cells => .ok (blank cellSize cells)
  | none => .error (.invalidLength length)

/-- A tape whose cell size is given by its number of values. -/
def ofSizes (values length : Number) : Except TapeError Tape :=
  match CellSize.ofNumber? values with
  | some cellSize => create cellSize length
  | none => .error (.unsupportedCellSize values)

/-- The value of the cell at an index; an index off the tape has none. -/
def cell? (tape : Tape) (index : Nat) : Option Nat :=
  tape.cells[index]?

/-- Stores a value, modulo the cell size; off the tape nothing is stored. -/
def write (tape : Tape) (index value : Nat) : Tape :=
  { tape with cells := tape.cells.setIfInBounds index (value % tape.cellSize.modulus) }

/--
Puts a number into a cell: it is cut toward 0 and taken modulo the cell size.
An index that is none of the tape changes nothing.
-/
def put (tape : Tape) (index value : Number) : Tape :=
  match index.toNat? with
  | some index => tape.write index (value.truncated % tape.cellSize.modulus).toNat
  | none => tape

/-- The cells that are not 0 with their indices, ascending. -/
def nonzero (tape : Tape) : List (Nat × Nat) :=
  (tape.cells.foldl
    (fun (found : Array (Nat × Nat) × Nat) value =>
      (if value = 0 then found.1 else found.1.push (found.2, value), found.2 + 1))
    (#[], 0)).1.toList

@[simp] theorem length_blank (cellSize : CellSize) (length : Nat) :
    (blank cellSize length).length = length := by
  simp [blank, Tape.length]

/-- There is a cell exactly at the indices below the length. -/
theorem cell?_isSome_iff (tape : Tape) (index : Nat) :
    (tape.cell? index).isSome ↔ index < tape.length := by
  simp [cell?, Tape.length]

theorem lt_length_of_cell? {tape : Tape} {index value : Nat}
    (found : tape.cell? index = some value) : index < tape.length := by
  rw [← cell?_isSome_iff, found]
  rfl

@[simp] theorem length_write (tape : Tape) (index value : Nat) :
    (tape.write index value).length = tape.length := by
  simp [write, Tape.length]

@[simp] theorem cellSize_write (tape : Tape) (index value : Nat) :
    (tape.write index value).cellSize = tape.cellSize := rfl

/-- What is stored on the tape is read back modulo the cell size. -/
theorem cell?_write_self {tape : Tape} {index : Nat} (value : Nat) (h : index < tape.length) :
    (tape.write index value).cell? index = some (value % tape.modulus) := by
  simp only [Tape.length] at h
  simp [write, cell?, modulus, h]

/-- Storing leaves every other cell alone. -/
theorem cell?_write_of_ne {tape : Tape} {index other : Nat} (value : Nat) (h : index ≠ other) :
    (tape.write index value).cell? other = tape.cell? other := by
  simp [write, cell?, h]

end Tape

/-- Whether a number is the code of a character that can be shown as it is. -/
def isPrintable : Number → Bool
  | .finite value => 0x20 ≤ value ∧ value ≤ 0x7e
  | _ => false

end Machine

end TapeDebugger
