import TapeDebugger.Console.Execution
import TapeDebugger.Settings.Store
import TapeDebugger.Text.Line

/-!
# Transcripts

The whole program, from its start to the end of its input: settings are read,
the file named on the command line is loaded, and then every line of input is
answered.  A line is written out again as it is read, so that what is written
reads like a session at a terminal.
-/

namespace TapeDebugger

namespace Transcript

open Console (Effect Reader Thrown)

/-! ## Files -/

/-- Why a file cannot be read. -/
inductive FileError where
  | missing
  | other (message : String)
  deriving DecidableEq, Repr

/-- What is thrown for a file that cannot be read is an error, and so it has a text. -/
def FileError.thrown : FileError → Thrown
  | missing => .error (some Thrown.missingCode) "no such file or directory"
  | other message => .error none message

/-- What is in the files of a directory. -/
abbrev Files := String → Except FileError String

def Files.reader (files : Files) : Reader :=
  fun path => (files path).mapError FileError.thrown

/-! ## Stages -/

def earlyNotes (entries : List Log.Entry) : Array Effect :=
  ((entries.filter fun entry => entry.isShown false).map Effect.noted).toArray

/-- A console under the settings of a file, given its content if there is one. -/
def start (settingsPath : String) (content? : Option String) : Console :=
  let settings : Logged Settings := do
    let storage ← Settings.Storage.ofFile settingsPath content?
    Settings.load storage
  { session := { settings := settings.value }, written := earlyNotes settings.entries }

/-- The console with the file loaded that is named first on the command line, if there is one. -/
def opening (console : Console) (files : Files) (arguments : List String) : Console :=
  match arguments with
  | [] => console
  | path :: _ => (console.loadFile files.reader path).console

/-- Shows the next instruction, while running, and asks for a line. -/
def ask (console : Console) : Console :=
  let (status?, console) := console.statusLine
  let console :=
    match status? with
    | some status => console.emit (.message s!"{status}\n")
    | none => console
  console.emit (.message Console.prompt)

/-- Loads the file named first on the command line, if there is one, and asks for a line. -/
def begin (console : Console) (files : Files) (arguments : List String) : Console :=
  ask (opening console files arguments)

/--
Answers a line and asks for the next one unless the console ends; `echo` tells
to write the line first.  There is no answer if the patience is spent before.
-/
def answer (console : Console) (patience : Nat) (files : Files) (echo : Bool)
    (line : String) : Option (Except Thrown Bool × Console) :=
  let console := if echo then console.emit (.message s!"{line}\n") else console
  (console.execute patience files.reader line).map fun
    | (.ok true, console) => (.ok true, ask console)
    | ended => ended

/-- Answers lines until they are used up or the console ends. -/
def answerAll (patience : Nat) (files : Files) : List String → Console → Option Console
  | [], console => some console
  | line :: rest, console =>
      match answer console patience files true line with
      | none => none
      | some (.ok true, console) => answerAll patience files rest console
      | some (_, console) => some console

/-! ## Streams -/

/-- What an effect writes to the stream of messages and program output. -/
def outBytes : Effect → List UInt8
  | .message text => Text.utf8 text
  | .programByte byte => [byte]
  | .errorMessage _ | .noted _ => []

/-- What an effect writes to the stream of errors and of the log. -/
def errBytes (verbose : Bool) : Effect → List UInt8
  | .errorMessage text => Text.utf8 text
  | .noted entry => if entry.isShown verbose then Text.utf8 entry.line else []
  | .message _ | .programByte _ => []

/-- Everything that is written in a session, by stream. -/
structure Streams where
  out : List UInt8
  err : List UInt8
  deriving DecidableEq, Repr

def streams (verbose : Bool) (effects : Array Effect) : Streams where
  out := effects.toList.flatMap outBytes
  err := effects.toList.flatMap (errBytes verbose)

/-- The streams of the whole program; there are none if the patience is spent before its end. -/
def run (settingsPath : String) (settings? : Option String) (arguments : List String)
    (files : Files) (patience : Nat) (input : List UInt8) : Option Streams :=
  let console := begin (start settingsPath settings?) files arguments
  (answerAll patience files (Text.inputLines input) console).map fun console =>
    streams console.session.settings.verbose console.written

/-! ## The whole process -/

/-- Asks for a line, writes it out and executes it. -/
def exchange (console : Console) (patience : Nat) (files : Files) (line : String) :
    Option (Except Thrown Bool × Console) :=
  ((ask console).emit (.message s!"{line}\n")).execute patience files.reader line

/-- Whether there is an instruction to show, if there has to be one. -/
def canAsk (console : Console) : Bool :=
  match console.session.currentInstruction with
  | .error .missing => false
  | .error (.user _) | .ok _ => true

/--
Asks for lines until they are used up or the console ends.  The exit code is 0; it is 1 if
a line is to be asked for where there is no instruction to show, or if nothing catches what
a line throws.
-/
def conclude (patience : Nat) (files : Files) : List String → Console → Option (UInt32 × Console)
  | [], console => some (if canAsk console then (0, ask console) else (1, console))
  | line :: rest, console =>
      if canAsk console then
        match exchange console patience files line with
        | none => none
        | some (.ok true, console) => conclude patience files rest console
        | some (.ok false, console) => some (0, console)
        | some (.error _, console) => some (1, console)
      else some (1, console)

/-- What is left of the whole program when it has ended. -/
structure Exit where
  code : UInt32
  streams : Streams
  deriving DecidableEq, Repr

/-- How the whole program ends; it does not if the patience is spent before. -/
def process (settingsPath : String) (settings? : Option String) (arguments : List String)
    (files : Files) (patience : Nat) (input : List UInt8) : Option Exit :=
  let console := opening (start settingsPath settings?) files arguments
  (conclude patience files (Text.inputLines input) console).map fun (code, console) =>
    ⟨code, streams console.session.settings.verbose console.written⟩

end Transcript

end TapeDebugger
