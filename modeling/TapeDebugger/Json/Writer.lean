import TapeDebugger.Json.Basic

/-!
# Writing JSON

Values are written without spaces.  In a string only the quote, the backslash
and the controls below the space are escaped, those with a short form by it, and
halves of a pair without the other.  A number that is not finite is written as
`null`.
-/

namespace TapeDebugger

namespace Json

/-- The escape of a unit by its four hexadecimal digits. -/
def escapedUnit (unit : Nat) : List Char :=
  ['\\', 'u', Nat.digitChar (unit / 4096), Nat.digitChar (unit / 256 % 16),
    Nat.digitChar (unit / 16 % 16), Nat.digitChar (unit % 16)]

def escaped (char : Char) : List Char :=
  if char = '"' then ['\\', '"']
  else if char = '\\' then ['\\', '\\']
  else if char = '\x08' then ['\\', 'b']
  else if char = '\t' then ['\\', 't']
  else if char = '\n' then ['\\', 'n']
  else if char = '\x0c' then ['\\', 'f']
  else if char = '\r' then ['\\', 'r']
  else if char < ' ' then escapedUnit char.toNat
  else [char]

/-- The written form of one glyph inside a string. -/
def glyphText : Text.Glyph → List Char
  | .char char => escaped char
  | .half unit => escapedUnit unit.toNat

def quoted (value : List UInt16) : String :=
  String.ofList ('"' :: ((Text.glyphs value).flatMap glyphText ++ ['"']))

def numberText : Number → String
  | .finite value => (Number.finite value).text
  | _ => "null"

mutual

def text : Json → String
  | .null => "null"
  | .bool value => if value then "true" else "false"
  | .number value => numberText value
  | .string value => quoted value
  | .array items => "[" ++ String.intercalate "," (itemTexts items) ++ "]"
  | .object members => "\x7b" ++ String.intercalate "," (memberTexts members) ++ "\x7d"

def itemTexts : List Json → List String
  | [] => []
  | item :: rest => item.text :: itemTexts rest

def memberTexts : List (List UInt16 × Json) → List String
  | [] => []
  | (name, value) :: rest => (quoted name ++ ":" ++ value.text) :: memberTexts rest

end

end Json

end TapeDebugger
