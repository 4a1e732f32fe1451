import TapeDebugger.Command.Basic
import TapeDebugger.Text.Blank

/-!
# Command lines

A line is a word that calls a command and perhaps an argument, with blanks
around and between them.  An argument that a line break divides makes the whole
line count as empty.
-/

namespace TapeDebugger

namespace Command

/-- What a line of input asks for. -/
inductive Line where
  | empty
  | unknown (word : String)
  | call (command : Command) (argument? : Option String)
  deriving DecidableEq, Repr

namespace Line

/-- The argument that a command takes from the rest of its line, the outer blanks removed. -/
def argumentFor? (command : Command) (rest : List Char) : Option String :=
  if rest.isEmpty then none
  else if command.takesRest then some (String.ofList rest)
  else some (String.ofList (Text.firstWord rest))

def ofChars (chars : List Char) : Line :=
  let chars := Text.trimStart chars
  let word := Text.firstWord chars
  let rest := Text.trimEnd (Text.trimStart (Text.afterWord chars))
  if word.isEmpty || rest.any Text.isLineBreak then .empty
  else
    match ofWord? (String.ofList word) with
    | none => .unknown (String.ofList word)
    | some command => .call command (argumentFor? command rest)

def parse (line : String) : Line :=
  ofChars line.toList

end Line

end Command

end TapeDebugger
