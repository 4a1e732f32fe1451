import TapeDebugger.Text.Utf8

/-!
# Lines of input

A line ends at a line feed, at a carriage return, or at the two together.  A
last line without an end counts; nothing after the last end is no line.
-/

namespace TapeDebugger

namespace Text

/-- Divides characters into lines, with those of an unfinished line given in reverse. -/
def linesFrom (current : List Char) : List Char → List String
  | [] => if current.isEmpty then [] else [String.ofList current.reverse]
  | '\r' :: '\n' :: rest => String.ofList current.reverse :: linesFrom [] rest
  | char :: rest =>
      if char = '\n' ∨ char = '\r' then String.ofList current.reverse :: linesFrom [] rest
      else linesFrom (char :: current) rest

def lines (text : String) : List String :=
  linesFrom [] text.toList

/--
The lines that bytes of input hold.  A sequence that still waits for bytes when
the input ends is left out.
-/
def inputLines (bytes : List UInt8) : List String :=
  lines (decode (dropWaiting bytes))

end Text

end TapeDebugger
