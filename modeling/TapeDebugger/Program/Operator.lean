/-!
# Operators

A brainfuck program is made of eight operators, each written as one character.
A compiled program has one more, its end, which no character stands for.
-/

namespace TapeDebugger

/-- What one instruction does. -/
inductive Operator where
  | finish
  | moveRight
  | moveLeft
  | increment
  | decrement
  | output
  | input
  | loopStart
  | loopEnd
  deriving DecidableEq, Repr

namespace Operator

def all : List Operator :=
  [finish, moveRight, moveLeft, increment, decrement, output, input, loopStart, loopEnd]

def code : Operator → Nat
  | finish => 0
  | moveRight => 1
  | moveLeft => 2
  | increment => 3
  | decrement => 4
  | output => 5
  | input => 6
  | loopStart => 7
  | loopEnd => 8

def ofCode? (code : Nat) : Option Operator :=
  all[code]?

def symbol : Operator → String
  | finish => "EOF"
  | moveRight => ">"
  | moveLeft => "<"
  | increment => "+"
  | decrement => "-"
  | output => "."
  | input => ","
  | loopStart => "["
  | loopEnd => "]"

def name : Operator → String
  | finish => "End"
  | moveRight => "IncPtr"
  | moveLeft => "DecPtr"
  | increment => "IncCell"
  | decrement => "DecCell"
  | output => "Output"
  | input => "Input"
  | loopStart => "JumpIfZero"
  | loopEnd => "JumpIfNonZero"

/-- The operator that a character of a source stands for; all other characters are comment. -/
def ofChar? : Char → Option Operator
  | '>' => some moveRight
  | '<' => some moveLeft
  | '+' => some increment
  | '-' => some decrement
  | '.' => some output
  | ',' => some input
  | '[' => some loopStart
  | ']' => some loopEnd
  | _ => none

/-- The operators that stand alone, without a partner, and their characters. -/
def simple : List (Char × Operator) :=
  [('>', moveRight), ('<', moveLeft), ('+', increment), ('-', decrement),
    ('.', output), (',', input)]

@[simp] theorem ofCode?_code (operator : Operator) : ofCode? operator.code = some operator := by
  cases operator <;> rfl

theorem symbol_of_ofChar? {char : Char} {operator : Operator}
    (h : ofChar? char = some operator) : operator.symbol = String.singleton char := by
  unfold ofChar? at h
  split at h <;> first | contradiction | (cases h; rfl)

/-- The table of simple operators agrees with the reading of characters. -/
theorem ofChar?_of_mem_simple :
    ∀ entry ∈ simple, ofChar? entry.1 = some entry.2 := by
  decide

end Operator

end TapeDebugger
