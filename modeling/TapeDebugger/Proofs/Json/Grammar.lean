import TapeDebugger.Proofs.Json.Numeral

/-!
# The grammar of JSON

A text of JSON is a value between spaces: a word, a numeral, a string between quotes, or
values or members between brackets with commas between them.  An object has the members
that are written, put one after another, so that a later one takes the place of an
earlier one under the same name.
-/

namespace TapeDebugger

namespace Json

open Number (isDigit nearest)

/-! ## Spaces and words -/

/-- Characters that are spaces, perhaps none at all. -/
def Spaces (chars : List Char) : Prop :=
  ∀ char ∈ chars, isSpace char = true

/-- The word of a truth value. -/
def boolWord (value : Bool) : List Char :=
  if value then ['t', 'r', 'u', 'e'] else ['f', 'a', 'l', 's', 'e']

/-! ## Strings -/

/-- A character inside a string or an escape of one, with the units that it stands for. -/
inductive Piece : List Char → List UInt16 → Prop where
  | plain {char : Char} (notQuote : char ≠ '"') (notBackslash : char ≠ '\\')
      (notControl : ¬ char < ' ') : Piece [char] (Text.unitsOf char)
  | short {letter char : Char} (stands : shortEscape? letter = some char) :
      Piece ['\\', letter] (Text.unitsOf char)
  | unit {first second third fourth : Char} {unit : Nat}
      (hex : hexUnit? first second third fourth = some unit) :
      Piece ['\\', 'u', first, second, third, fourth] [unit.toUInt16]

inductive Pieces : List Char → List UInt16 → Prop where
  | nil : Pieces [] []
  | cons {piece more : List Char} {units others : List UInt16} (first : Piece piece units)
      (rest : Pieces more others) : Pieces (piece ++ more) (units ++ others)

/-- A string between its quotes. -/
inductive Quoted : List Char → List UInt16 → Prop where
  | intro {inside : List Char} {units : List UInt16} (pieces : Pieces inside units) :
      Quoted ('"' :: (inside ++ ['"'])) units

/-! ## Values -/

mutual

inductive Value : List Char → Json → Prop where
  | null : Value ['n', 'u', 'l', 'l'] .null
  | bool (value : Bool) : Value (boolWord value) (.bool value)
  | number {chars : List Char} {value : Rat} (numeral : Numeral chars value) :
      Value chars (.number (nearest value))
  | string {chars : List Char} {units : List UInt16} (quoted : Quoted chars units) :
      Value chars (.string units)
  | array {chars : List Char} {items : List Json} (bracketed : Bracketed chars items) :
      Value chars (.array items)
  | object {chars : List Char} {written : List (List UInt16 × Json)}
      (braced : Braced chars written) : Value chars (ofMembers written)

/-- A value between spaces. -/
inductive Padded : List Char → Json → Prop where
  | intro {before chars behind : List Char} {json : Json} (spaces : Spaces before)
      (value : Value chars json) (spacesBehind : Spaces behind) :
      Padded (before ++ (chars ++ behind)) json

/-- The items of an array, of which there is at least one. -/
inductive Items : List Char → List Json → Prop where
  | last {chars : List Char} {item : Json} (padded : Padded chars item) : Items chars [item]
  | more {chars rest : List Char} {item : Json} {items : List Json}
      (padded : Padded chars item) (others : Items rest items) :
      Items (chars ++ ',' :: rest) (item :: items)

inductive Bracketed : List Char → List Json → Prop where
  | empty {spaces : List Char} (blank : Spaces spaces) : Bracketed ('[' :: (spaces ++ [']'])) []
  | filled {inside : List Char} {items : List Json} (row : Items inside items) :
      Bracketed ('[' :: (inside ++ [']'])) items

/-- A name between spaces, a colon, and the value under the name. -/
inductive Member : List Char → List UInt16 × Json → Prop where
  | intro {before quoted behind chars : List Char} {name : List UInt16} {json : Json}
      (spaces : Spaces before) (named : Quoted quoted name) (spacesBehind : Spaces behind)
      (padded : Padded chars json) :
      Member (before ++ (quoted ++ (behind ++ ':' :: chars))) (name, json)

/-- The members of an object as they are written, of which there is at least one. -/
inductive Row : List Char → List (List UInt16 × Json) → Prop where
  | last {chars : List Char} {entry : List UInt16 × Json} (member : Member chars entry) :
      Row chars [entry]
  | more {chars rest : List Char} {entry : List UInt16 × Json}
      {written : List (List UInt16 × Json)} (member : Member chars entry)
      (others : Row rest written) : Row (chars ++ ',' :: rest) (entry :: written)

inductive Braced : List Char → List (List UInt16 × Json) → Prop where
  | empty {spaces : List Char} (blank : Spaces spaces) :
      Braced ('\x7b' :: (spaces ++ ['\x7d'])) []
  | filled {inside : List Char} {written : List (List UInt16 × Json)}
      (row : Row inside written) : Braced ('\x7b' :: (inside ++ ['\x7d'])) written

end

theorem ofMembers_nil : ofMembers [] = .object [] := by
  simp [ofMembers, canonical]

/-! ## Where a value begins -/

variable {chars : List Char} {json : Json}

/-- The first character of a numeral is a minus or a digit. -/
theorem Numeral.exists_cons {value : Rat} (numeral : Numeral chars value) :
    ∃ char more, chars = char :: more ∧ (char = '-' ∨ isDigit char = true) := by
  cases numeral with
  | ofParts negative solid fractional scaled =>
      cases negative with
      | true => exact ⟨_, _, rfl, .inl rfl⟩
      | false =>
          obtain ⟨char, more, rfl, digit⟩ := solid.toDigits.exists_cons
          exact ⟨char, _, rfl, .inr digit⟩

/-- What begins a numeral differs from every character that is no minus and no digit. -/
theorem ne_of_starts {char other : Char} (starts : char = '-' ∨ isDigit char = true)
    (notMinus : other ≠ '-') (notDigit : isDigit other = false) : char ≠ other := by
  rcases starts with rfl | digit
  · exact notMinus.symm
  · exact isDigit_ne digit notDigit

/-- A value begins with a character that is no space and ends no array. -/
theorem Value.exists_cons (value : Value chars json) :
    ∃ char more, chars = char :: more ∧ isSpace char = false ∧ char ≠ ']' := by
  cases value with
  | null => exact ⟨_, _, rfl, by decide, by decide⟩
  | bool value => cases value <;> exact ⟨_, _, rfl, by decide, by decide⟩
  | number numeral =>
      obtain ⟨char, more, rfl, starts⟩ := numeral.exists_cons
      have solid : isSpace char = false := by
        refine Bool.eq_false_iff.mpr fun space => ?_
        simp only [isSpace, decide_eq_true_eq] at space
        rcases space with same | same | same | same <;>
          exact ne_of_starts starts (by decide) (by decide) same
      exact ⟨char, more, rfl, solid, ne_of_starts starts (by decide) (by decide)⟩
  | string quoted =>
      cases quoted
      exact ⟨_, _, rfl, by decide, by decide⟩
  | array bracketed => cases bracketed <;> exact ⟨_, _, rfl, by decide, by decide⟩
  | object braced => cases braced <;> exact ⟨_, _, rfl, by decide, by decide⟩

end Json

end TapeDebugger
