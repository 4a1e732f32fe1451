import TapeDebugger.Number.Decimal
import TapeDebugger.Text.Utf16

/-!
# JSON values

A string is a row of UTF-16 units, since an escape can stand for half a pair.
An object lists its members in one canonical order: first the names that are
array indices, ascending, then the others as they first appeared.  A name that
appears again keeps its place and takes the later value.
-/

namespace TapeDebugger

/-- A JSON value. -/
inductive Json where
  | null
  | bool (value : Bool)
  | number (value : Number)
  | string (value : List UInt16)
  | array (items : List Json)
  | object (members : List (List UInt16 × Json))
  deriving Repr

namespace Json

/-! ## Members -/

def member? (members : List (List UInt16 × Json)) (name : String) : Option Json :=
  members.lookup (Text.utf16 name)

/-- Puts a value under a name: in its place if the name is there, at the end otherwise. -/
def putMember (members : List (List UInt16 × Json)) (name : List UInt16) (value : Json) :
    List (List UInt16 × Json) :=
  if members.any fun entry => entry.1 == name then
    members.map fun entry => if entry.1 == name then (name, value) else entry
  else members ++ [(name, value)]

/-- Array indices lie below this bound. -/
def arrayIndexBound : Nat := 4294967295

/-- The array index that a name denotes in canonical digits. -/
def arrayIndex? (name : List UInt16) : Option Nat :=
  let digits := (Text.ofUtf16 name).toList
  if digits.all Number.isDigit then
    let index := Number.ofDigits digits
    if Nat.toDigits 10 index = digits ∧ index < arrayIndexBound then some index else none
  else none

/-- Whether the array index of the first name is not above that of the second. -/
def indexLe (left right : List UInt16 × Json) : Bool :=
  (arrayIndex? left.1).getD 0 ≤ (arrayIndex? right.1).getD 0

/-- Members with the array indices ascending in front of all other names. -/
def canonical (members : List (List UInt16 × Json)) : List (List UInt16 × Json) :=
  let indexed := members.filter fun entry => (arrayIndex? entry.1).isSome
  let others := members.filter fun entry => (arrayIndex? entry.1).isNone
  indexed.mergeSort indexLe ++ others

/-- The object that members written in this order denote. -/
def ofMembers (members : List (List UInt16 × Json)) : Json :=
  .object (canonical
    (members.foldl (fun known entry => putMember known entry.1 entry.2) []))

end Json

end TapeDebugger
