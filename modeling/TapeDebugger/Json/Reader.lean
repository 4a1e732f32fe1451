import TapeDebugger.Json.Fault

/-!
# Reading JSON

A strict reader: one value, with blanks only where the grammar has them, and
nothing behind it.  A byte order mark is not a blank here.  A text that is not
JSON is refused at the first character with which no value can go on.
-/

namespace TapeDebugger

namespace Json

/-! ## Readers -/

/-- Where and why a reader stops; `rest` starts with the character at fault. -/
structure Stop where
  fault : Fault
  rest : List Char
  deriving DecidableEq, Repr

/-- Reads a value from the front of a text; the answer holds what follows it. -/
abbrev Reader (α : Type) := List Char → Except Stop (α × List Char)

def stopAt {α : Type} (fault : Fault) (rest : List Char) : Except Stop α :=
  .error ⟨fault, rest⟩

/-- What is wrong with a text that does not start as it should. -/
def unexpected : List Char → Fault
  | [] => .endOfText
  | char :: _ =>
      if char = '"' then .unexpectedString
      else if char = '-' ∨ Number.isDigit char then .unexpectedNumber
      else .unexpectedCharacter

def refuse {α : Type} (rest : List Char) : Except Stop α :=
  stopAt (unexpected rest) rest

/-! ## Blanks and numbers -/

def isSpace (char : Char) : Bool :=
  char = ' ' ∨ char = '\t' ∨ char = '\n' ∨ char = '\r'

def skipSpaces (chars : List Char) : List Char :=
  chars.dropWhile isSpace

def spanDigits (chars : List Char) : List Char × List Char :=
  (chars.takeWhile Number.isDigit, chars.dropWhile Number.isDigit)

/-- Reads the whole part of a number: a single 0, or digits that do not start with 0. -/
def readWhole : Reader (List Char)
  | '0' :: rest =>
      if rest.head?.any Number.isDigit then stopAt .unexpectedNumber rest
      else .ok (['0'], rest)
  | chars =>
      match spanDigits chars with
      | ([], rest) => stopAt .noDigitAfterMinus rest
      | (digits, rest) => .ok (digits, rest)

/-- Reads a point and at least one digit, if there is a point. -/
def readFraction : Reader (List Char)
  | '.' :: rest =>
      match spanDigits rest with
      | ([], rest) => stopAt .noDigitAfterPoint rest
      | (digits, rest) => .ok (digits, rest)
  | chars => .ok ([], chars)

/-- Reads a sign and at least one digit behind the mark of an exponent. -/
def readScale (chars : List Char) : Except Stop (Int × List Char) :=
  let (negative, unsigned) :=
    match chars with
    | '-' :: rest => (true, rest)
    | '+' :: rest => (false, rest)
    | rest => (false, rest)
  match spanDigits unsigned with
  | ([], rest) => stopAt .noDigitInExponent rest
  | (digits, rest) =>
      let scale : Int := Number.ofDigits digits
      .ok (if negative then -scale else scale, rest)

def readExponent : Reader Int
  | 'e' :: rest => readScale rest
  | 'E' :: rest => readScale rest
  | chars => .ok (0, chars)

def readMagnitude (negative : Bool) (chars : List Char) : Except Stop (Json × List Char) := do
  let (whole, rest) ← readWhole chars
  let (fraction, rest) ← readFraction rest
  let (exponent, rest) ← readExponent rest
  let digits := Number.ofDigits (whole ++ fraction)
  pure (.number (Number.ofDecimal negative digits (exponent - fraction.length)), rest)

def readNumber : Reader Json
  | '-' :: rest => readMagnitude true rest
  | chars =>
      if unexpected chars = .unexpectedNumber then readMagnitude false chars
      else refuse chars

/-! ## Strings -/

def hexDigit? (char : Char) : Option Nat :=
  if '0' ≤ char ∧ char ≤ '9' then some (char.toNat - '0'.toNat)
  else if 'a' ≤ char ∧ char ≤ 'f' then some (char.toNat - 'a'.toNat + 10)
  else if 'A' ≤ char ∧ char ≤ 'F' then some (char.toNat - 'A'.toNat + 10)
  else none

def isHexDigit (char : Char) : Bool :=
  (hexDigit? char).isSome

def hexUnit? (first second third fourth : Char) : Option Nat := do
  let first ← hexDigit? first
  let second ← hexDigit? second
  let third ← hexDigit? third
  let fourth ← hexDigit? fourth
  pure (((first * 16 + second) * 16 + third) * 16 + fourth)

/-- The character that a letter stands for behind a backslash. -/
def shortEscape? (char : Char) : Option Char :=
  if char = '"' then some '"'
  else if char = '\\' then some '\\'
  else if char = '/' then some '/'
  else if char = 'b' then some '\x08'
  else if char = 'f' then some '\x0c'
  else if char = 'n' then some '\n'
  else if char = 'r' then some '\r'
  else if char = 't' then some '\t'
  else none

/--
Stops at a character that stands for nothing behind a backslash.  Up to U+00FF
it is a bad escape; beyond, where no escape can be, it is just not expected.
-/
def refuseEscape {α : Type} (char : Char) (rest : List Char) : Except Stop α :=
  if char.toNat ≤ 0xff then stopAt .badEscape (char :: rest) else refuse (char :: rest)

def pushChar (read : List UInt16) (char : Char) : List UInt16 :=
  (Text.unitsOf char).reverse ++ read

/-- Reads a string behind its opening quote; the units read so far are in reverse. -/
def readUnits (read : List UInt16) : Reader (List UInt16)
  | [] => stopAt .unterminatedString []
  | '\\' :: 'u' :: first :: second :: third :: fourth :: rest =>
      match hexUnit? first second third fourth with
      | some unit => readUnits (unit.toUInt16 :: read) rest
      | none =>
          let chars := first :: second :: third :: fourth :: rest
          stopAt .badUnicodeEscape (chars.dropWhile isHexDigit)
  | '\\' :: 'u' :: rest => stopAt .badUnicodeEscape (rest.dropWhile isHexDigit)
  | '\\' :: short :: rest =>
      match shortEscape? short with
      | some char => readUnits (pushChar read char) rest
      | none => refuseEscape short rest
  | char :: rest =>
      if char = '"' then .ok (read.reverse, rest)
      else if char = '\\' then refuse rest
      else if char < ' ' then stopAt .controlCharacter (char :: rest)
      else readUnits (pushChar read char) rest

/-- Reads a string with its quotes; any other start is the fault that is given. -/
def readString (otherStart : Fault) : Reader (List UInt16)
  | '"' :: rest => readUnits [] rest
  | rest => stopAt otherStart rest

/-! ## Values -/

def readWord {α : Type} (value : α) : (word : List Char) → Reader α
  | [], rest => .ok (value, rest)
  | _ :: _, [] => refuse []
  | expected :: word, char :: rest =>
      if char = expected then readWord value word rest
      else refuse (char :: rest)

mutual

/-- Reads a value; each level of nesting and each item takes from the budget. -/
def readValue : (budget : Nat) → Reader Json
  | 0, rest => refuse rest
  | budget + 1, chars =>
      match skipSpaces chars with
      | 'n' :: rest => readWord .null ['u', 'l', 'l'] rest
      | 't' :: rest => readWord (.bool true) ['r', 'u', 'e'] rest
      | 'f' :: rest => readWord (.bool false) ['a', 'l', 's', 'e'] rest
      | '"' :: rest => do
          let (value, rest) ← readUnits [] rest
          pure (.string value, rest)
      | '[' :: rest =>
          match skipSpaces rest with
          | ']' :: rest => .ok (.array [], rest)
          | _ => do
              let (items, rest) ← readItems budget rest
              pure (.array items, rest)
      | '\x7b' :: rest =>
          match skipSpaces rest with
          | '\x7d' :: rest => .ok (.object [], rest)
          | _ => do
              let (members, rest) ← readMembers .notAName budget rest
              pure (ofMembers members, rest)
      | rest => readNumber rest

/-- Reads the items of an array, of which there is at least one, and its end. -/
def readItems : (budget : Nat) → Reader (List Json)
  | 0, rest => refuse rest
  | budget + 1, chars => do
      let (item, rest) ← readValue budget chars
      match skipSpaces rest with
      | ',' :: rest =>
          let (items, rest) ← readItems budget rest
          pure (item :: items, rest)
      | ']' :: rest => pure ([item], rest)
      | rest => stopAt .noCommaInArray rest

/-- Reads the members of an object, of which there is at least one, and its end. -/
def readMembers (otherStart : Fault) : (budget : Nat) → Reader (List (List UInt16 × Json))
  | 0, rest => refuse rest
  | budget + 1, chars => do
      let (name, rest) ← readString otherStart (skipSpaces chars)
      match skipSpaces rest with
      | ':' :: rest =>
          let (value, rest) ← readValue budget rest
          match skipSpaces rest with
          | ',' :: rest =>
              let (members, rest) ← readMembers .notAQuotedName budget rest
              pure ((name, value) :: members, rest)
          | '\x7d' :: rest => pure ([(name, value)], rest)
          | rest => stopAt .noCommaInObject rest
      | rest => stopAt .noColon rest

end

/-- Reads a text that holds one value; `n` characters never nest deeper than the budget. -/
def readText (chars : List Char) : Except Stop Json := do
  let (value, rest) ← readValue (2 * chars.length + 2) chars
  match skipSpaces rest with
  | [] => pure value
  | rest => stopAt .notTheEnd rest

/-- The value that a text is, or where and why it is none. -/
def parse (text : String) : Except SyntaxError Json :=
  let chars := text.toList
  match readText chars with
  | .ok value => .ok value
  | .error stop =>
      .error ⟨stop.fault, chars.take (chars.length - stop.rest.length), stop.rest⟩

end Json

end TapeDebugger
