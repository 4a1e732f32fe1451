/-!
# Commands

The commands of the console.  Each is called by its name or by the letter that
its name starts with, and takes at most one argument.
-/

namespace TapeDebugger

/-- A command of the console. -/
inductive Command where
  | help
  | quit
  | file
  | run
  | next
  | jump
  | resume
  | dataPointer
  | print
  | tape
  | input
  deriving DecidableEq, Repr

namespace Command

/-- Every command, in the order of the help text. -/
def all : List Command :=
  [help, quit, file, run, next, jump, resume, dataPointer, print, tape, input]

def name : Command → String
  | help => "help"
  | quit => "quit"
  | file => "file"
  | run => "run"
  | next => "next"
  | jump => "jump"
  | resume => "continue"
  | dataPointer => "dataptr"
  | print => "print"
  | tape => "tape"
  | input => "input"

def abbreviation (command : Command) : String :=
  String.ofList (command.name.toList.take 1)

def description : Command → String
  | help => "Print this help"
  | quit => "Exit debugger"
  | file => "Use file"
  | run => "Start execution"
  | next => "Step instructions"
  | jump => "Jumps to an instruction"
  | resume => "Continue execution"
  | dataPointer => "Prints the data pointer"
  | print => "Print cell"
  | tape => "Print the cells around the data pointer"
  | input => "Queue input for the program"

/-- What the help text shows for the argument of a command, if it takes one. -/
def argument? : Command → Option String
  | file => some "<filename>"
  | next => some "[count = 1]"
  | jump => some "<instr_index>"
  | print => some "[index = $ptr]"
  | input => some "<text>"
  | _ => none

/-- Whether the argument is the whole rest of the line, blanks included. -/
def takesRest : Command → Bool
  | input => true
  | _ => false

/-- The command that a word calls: a full name or a letter, exactly as written. -/
def ofWord? (word : String) : Option Command :=
  all.find? fun command => command.name == word || command.abbreviation == word

/-! ## Help -/

def helpLine (command : Command) : String :=
  let name := s!"({command.abbreviation}){String.ofList (command.name.toList.drop 1)}"
  match command.argument? with
  | some argument => s!"{name} {argument} -- {command.description}."
  | none => s!"{name} -- {command.description}."

def helpText : String :=
  String.intercalate "\n" ("List of commands:" :: "" :: all.map helpLine)

end Command

end TapeDebugger
