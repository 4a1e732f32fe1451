import TapeDebugger.Command.Line
import TapeDebugger.Console.Basic

/-!
# Executing command lines

Every line is answered: by the command it calls, by a message about what is
wrong with it, or with silence if it is blank.  Only quitting ends the console.
What a command throws is caught and put into the log.
-/

namespace TapeDebugger

namespace Console

/-! ## Thrown values -/

/--
A value that is thrown, by what is made of it: an error has a message and may have a code,
and any other value has a text.  Making the text can itself throw, and then what comes of
the value is what it throws.
-/
inductive Thrown where
  | error (code? : Option String) (message : String)
  | value (text : String)
  | textless (raised : Thrown)
  deriving DecidableEq, Repr

namespace Thrown

/-- The code of the error that there is no such file. -/
def missingCode : String := "ENOENT"

def isMissing : Thrown → Bool
  | error code? _ => code? = some missingCode
  | value _ | textless _ => false

/-- The text of a thrown value, or what is thrown in its place. -/
def text : Thrown → Except Thrown String
  | error _ message => .ok message
  | value text => .ok text
  | textless raised => .error raised

/-- What is said of a file whose reader has thrown a value. -/
def fileText (thrown : Thrown) : Except Thrown String :=
  if thrown.isMissing then .ok "No such file or directory." else thrown.text

end Thrown

/-- What comes of work at a console: the console after it, and what it has thrown, if anything. -/
structure Completion where
  console : Console
  thrown? : Option Thrown := none
  deriving Repr

/-- Work that is done and has thrown nothing. -/
def done (console : Console) : Completion :=
  { console }

/-! ## Files -/

abbrev Reader := String → Except Thrown String

/--
Reads a file and loads it.  One that cannot be read only ends the current run, and what is
thrown by wording that is thrown on.
-/
def loadFile (console : Console) (read : Reader) (path : String) : Completion :=
  let console := console.say s!"Reading {path}..."
  match read path with
  | .error thrown =>
      let console := console.follow console.session.discard
      match thrown.fileText with
      | .ok text => (console.complain s!"{path}: {text}").done
      | .error raised => { console, thrown? := some raised }
  | .ok source =>
      let reply := console.session.load source (some path)
      let console := console.follow reply
      match reply.answer with
      | .ok _ => console.done
      | .error _ => (console.say s!"Could not read from {path}.").done

/-! ## Commands -/

/-- Starts the program; that there is no tape for it is thrown. -/
def startRun (console : Console) : Completion :=
  let reply := console.session.run
  let console := console.follow reply
  match reply.answer with
  | .ok _ => console.done
  | .error (.user error) => (console.report error).done
  | .error (.tape error) => { console, thrown? := some (.error none error.message) }

/-- Executes a count of instructions, if they come to an end within the patience. -/
def stepBy (console : Console) (count : Number) (patience : Nat) : Option Console :=
  (console.session.next count patience).map fun reply =>
    let console := console.follow reply
    match reply.answer with
    | .ok _ => console
    | .error error => console.report error

def stepNext (console : Console) (argument? : Option String) (patience : Nat) : Option Console :=
  match argument? with
  | none => console.stepBy (.finite 1) patience
  | some text =>
      match Number.ofIntegerText? text with
      | some count => console.stepBy count patience
      | none => some (console.report (.badCount text))

def jumpTo (console : Console) (argument? : Option String) : Console :=
  match console.session.execution with
  | .error error => console.report error
  | .ok _ =>
      match argument? with
      | none => console.report (.missingArgument .jump)
      | some text =>
          match Number.ofIntegerText? text with
          | none => console.report (.badInstructionIndex text)
          | some index =>
              let reply := console.session.jump (some index)
              let console := console.follow reply
              match reply.answer with
              | .ok _ => console
              | .error error => console.report error

/-- Goes on with the program, if its next stop is within the patience. -/
def resumeRun (console : Console) (patience : Nat) : Option Console :=
  (console.session.resume patience).map fun reply =>
    let console := console.follow reply
    match reply.answer with
    | .error error => console.report error
    | .ok (.paused steps) =>
        console.say s!"Paused after {Number.integerText steps} instructions."
    | .ok (.halted _) => console

def showPointer (console : Console) : Console :=
  match console.session.dataPointer with
  | .ok pointer => console.say s!"$ptr: {pointer.text}"
  | .error error => console.report error

def showCell (console : Console) (argument? : Option String) : Console :=
  let showAt (index? : Option Number) :=
    match console.session.cell index? with
    | .ok report => console.say (cellText report)
    | .error error => console.report error
  match argument? with
  | none => showAt none
  | some text =>
      match Number.ofIntegerText? text with
      | some index => showAt (some index)
      | none => console.report (.badCellIndex text)

def showTape (console : Console) : Console :=
  match console.session.tapeWindow none with
  | .ok reports => reports.foldl (fun console report => console.say (windowText report)) console
  | .error error => console.report error

def queueLine (console : Console) (argument? : Option String) : Console :=
  match argument? with
  | none => console.report (.missingArgument .input)
  | some text =>
      let reply := console.session.queueInput s!"{text}\n"
      (console.follow reply).say s!"Queued {reply.answer} bytes of input."

def useFile (console : Console) (read : Reader) (argument? : Option String) : Completion :=
  match argument? with
  | none => (console.report (.missingArgument .file)).done
  | some path => console.loadFile read path

/-- Executes a command; there is no answer if the patience is spent before. -/
def perform (console : Console) (patience : Nat) (read : Reader) (command : Command)
    (argument? : Option String) : Option Completion :=
  match command with
  | .help => some (console.say Command.helpText).done
  | .quit => some console.done
  | .file => some (console.useFile read argument?)
  | .run => some console.startRun
  | .next => (console.stepNext argument? patience).map done
  | .jump => some (console.jumpTo argument?).done
  | .resume => (console.resumeRun patience).map done
  | .dataPointer => some console.showPointer.done
  | .print => some (console.showCell argument?).done
  | .tape => some console.showTape.done
  | .input => some (console.queueLine argument?).done

/--
How a command answers: whether the console goes on.  What it has thrown is an error in the
log, and if that has no text, wording it throws once more and nothing catches that.
-/
def Completion.answer (completion : Completion) (command : Command) :
    Except Thrown Bool × Console :=
  match completion.thrown? with
  | none => (.ok (command ≠ .quit), completion.console)
  | some thrown =>
      match thrown.text with
      | .ok text =>
          let entry := Log.error s!"'{command.name}' failed: {text}"
          (.ok true, completion.console.emit (.noted entry))
      | .error raised => (.error raised, completion.console)

/--
Executes a line.  The answer is whether the console goes on, or what is thrown; there is
none if the patience is spent before.
-/
def execute (console : Console) (patience : Nat) (read : Reader) (line : String) :
    Option (Except Thrown Bool × Console) :=
  match Command.Line.parse line with
  | .empty => some (.ok true, console)
  | .unknown word => some (.ok true, console.say s!"Unknown command '{word}', type 'help'.")
  | .call command argument? =>
      (console.perform patience read command argument?).map fun completion =>
        completion.answer command

end Console

end TapeDebugger
