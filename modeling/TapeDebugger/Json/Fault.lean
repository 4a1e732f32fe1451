import TapeDebugger.Json.Basic

/-!
# Texts that are not JSON

A text that is not JSON goes wrong at one place: the first character with which
no value can go on, or the end of the text.  A report names the place by what
was wanted there, by its number, or by an excerpt around it.  Places are counted
in UTF-16 units.
-/

namespace TapeDebugger

namespace Json

/-- Why a text is not JSON. -/
inductive Fault where
  | endOfText
  | unexpectedCharacter
  | unexpectedNumber
  | unexpectedString
  | notAName
  | notAQuotedName
  | noColon
  | noCommaInObject
  | noCommaInArray
  | unterminatedString
  | controlCharacter
  | badEscape
  | badUnicodeEscape
  | noDigitAfterMinus
  | noDigitAfterPoint
  | noDigitInExponent
  | notTheEnd
  deriving DecidableEq, Repr

def Fault.description : Fault → String
  | endOfText => "Unexpected end of"
  | unexpectedCharacter => "Unexpected token"
  | unexpectedNumber => "Unexpected number in"
  | unexpectedString => "Unexpected string in"
  | notAName => "Expected property name or '\x7d' in"
  | notAQuotedName => "Expected double-quoted property name in"
  | noColon => "Expected ':' after property name in"
  | noCommaInObject => "Expected ',' or '\x7d' after property value in"
  | noCommaInArray => "Expected ',' or ']' after array element in"
  | unterminatedString => "Unterminated string in"
  | controlCharacter => "Bad control character in string literal in"
  | badEscape => "Bad escaped character in"
  | badUnicodeEscape => "Bad Unicode escape in"
  | noDigitAfterMinus => "No number after minus sign in"
  | noDigitAfterPoint => "Unterminated fractional number in"
  | noDigitInExponent => "Exponent part is missing a number in"
  | notTheEnd => "Unexpected non-whitespace character after"

/-! ## Places -/

/-- How many units characters take. -/
def units (chars : List Char) : Nat :=
  (Text.unitsOfChars chars).length

def firstUnits (count : Nat) (chars : List Char) : String :=
  Text.ofUtf16 ((Text.unitsOfChars chars).take count)

def lastUnits (count : Nat) (chars : List Char) : String :=
  Text.ofUtf16 ((Text.unitsOfChars chars).drop (units chars - count))

/-- A line and a column, both counted from 1; `afterReturn` holds right behind a return. -/
structure Place where
  line : Nat := 1
  column : Nat := 1
  afterReturn : Bool := false
  deriving DecidableEq, Repr

/-- The place behind one more character; a carriage return and a line feed end one line. -/
def Place.advance (place : Place) (char : Char) : Place :=
  if char = '\r' then { line := place.line + 1, afterReturn := true }
  else if char = '\n' then { line := if place.afterReturn then place.line else place.line + 1 }
  else { line := place.line, column := place.column + (Text.unitsOf char).length }

def Place.behind (chars : List Char) : Place :=
  chars.foldl Place.advance {}

/-! ## Reports -/

/-- A text that is not JSON, divided in front of the place where it goes wrong. -/
structure SyntaxError where
  fault : Fault
  before : List Char
  rest : List Char
  deriving DecidableEq, Repr

namespace SyntaxError

/-- How many units an excerpt shows on each side of a place. -/
def reach : Nat := 10

/-- The text around the place of an error; a short text is shown in full. -/
def excerpt (error : SyntaxError) : String :=
  let short := units error.before + units error.rest ≤ 2 * reach
  let (front, start) :=
    if short ∨ units error.before < reach then ("", String.ofList error.before)
    else ("...", lastUnits reach error.before)
  let (stop, back) :=
    if short ∨ (reach ≤ units error.before ∧ units error.rest ≤ reach) then
      (String.ofList error.rest, "")
    else (firstUnits reach error.rest, "...")
  s!"{front}\"{start}{stop}\"{back}"

def message (error : SyntaxError) : String :=
  match error.fault with
  | .endOfText => s!"{error.fault.description} JSON input"
  | .unexpectedCharacter =>
      let token := firstUnits 1 error.rest
      s!"{error.fault.description} '{token}', {error.excerpt} is not valid JSON"
  | fault =>
      let place := Place.behind error.before
      let offset := units error.before
      s!"{fault.description} JSON at position {offset} (line {place.line} column {place.column})"

end SyntaxError

end Json

end TapeDebugger
