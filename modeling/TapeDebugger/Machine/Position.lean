import TapeDebugger.Number.Decimal

/-!
# Positions

The pointer and the program counter stand at an index.  Whoever drives a
machine by hand can also put them at a number that is none: below 0, between
two indices, or far out.  Such a stray position is counted on with rounding and
may come back to an index.
-/

namespace TapeDebugger

namespace Machine

/-- An index, or a number that is taken for none. -/
inductive Position where
  | index (number : Nat)
  | stray (value : Rat)
  deriving DecidableEq, Repr

namespace Position

/--
Where the numbers begin that are taken for no index, the 52nd power of 2.  An
index is counted on without rounding, and no run is long enough to count from
below this bound to where rounding would show.
-/
def indexBound : Nat := 4503599627370496

def ofRat (value : Rat) : Position :=
  if value.den = 1 ∧ 0 ≤ value.num ∧ value.num < indexBound then index value.num.toNat
  else stray value

def ofNumber? : Number → Option Position
  | .finite value => some (ofRat value)
  | _ => none

def value : Position → Rat
  | index number => number
  | stray value => value

def index? : Position → Option Nat
  | index number => some number
  | stray _ => none

def next : Position → Position
  | index number => index (number + 1)
  | stray value => ofRat (Number.round (value + 1))

def previous : Position → Position
  | index (number + 1) => index number
  | index 0 => stray (-1)
  | stray value => ofRat (Number.round (value - 1))

/-- Whether a position is behind the last of `length` indices. -/
def isBehind (length : Nat) : Position → Bool
  | index number => length ≤ number
  | stray value => length ≤ value

def text (position : Position) : String :=
  Number.text (.finite position.value)

/-- An index is at the position of its number. -/
theorem ofRat_natCast {index : Nat} (h : index < indexBound) :
    ofRat (index : Rat) = .index index := by
  have h : (index : Int) < indexBound := by exact_mod_cast h
  simp [ofRat, h]

@[simp] theorem next_index (index : Nat) : (Position.index index).next = .index (index + 1) := rfl

@[simp] theorem previous_index_succ (index : Nat) :
    (Position.index (index + 1)).previous = .index index := rfl

@[simp] theorem isBehind_index (length index : Nat) :
    (Position.index index).isBehind length = decide (length ≤ index) := rfl

end Position

end Machine

end TapeDebugger
