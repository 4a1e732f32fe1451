import TapeDebugger.Session.Inspection

/-!
# The console

The console writes messages and the output of the program to one stream.  A
message starts on a line of its own: if the program has left a line open, the
console ends it first.  Messages about errors go to a second stream.
-/

namespace TapeDebugger

namespace Console

/-- What stands in front of every line that is read. -/
def prompt : String := "(tapedb) "

/-- What the console hands out, in order. -/
inductive Effect where
  | message (text : String)
  | errorMessage (text : String)
  | programByte (byte : UInt8)
  | noted (entry : Log.Entry)
  deriving DecidableEq, Repr

end Console

/--
A console over a session.  `lineOpen` tells that the program has left a line
open, `listening` that the session's signals are shown, and `written` holds what
was handed out and not yet taken.
-/
structure Console where
  session : Session := {}
  lineOpen : Bool := false
  listening : Bool := true
  written : Array Console.Effect := #[]
  deriving Repr

namespace Console

/-! ## Writing -/

def emit (console : Console) (effect : Effect) : Console :=
  { console with written := console.written.push effect }

def take (console : Console) : Array Effect × Console :=
  (console.written, { console with written := #[] })

/-- Ends the line that the program has left open, if there is one. -/
def closeLine (console : Console) : Console :=
  if console.lineOpen then { console.emit (.message "\n") with lineOpen := false } else console

/-- Writes a message on a line of its own. -/
def say (console : Console) (text : String) : Console :=
  console.closeLine.emit (.message s!"{text}\n")

/-- Writes a message about an error on a line of its own. -/
def complain (console : Console) (text : String) : Console :=
  console.closeLine.emit (.errorMessage s!"{text}\n")

/-- Writes a byte of the program; all but a line feed leave the line open. -/
def writeByte (console : Console) (byte : UInt8) : Console :=
  { console.emit (.programByte byte) with lineOpen := byte ≠ 10 }

def report (console : Console) (error : Session.UserError) : Console :=
  console.say error.message

/-! ## Following the session -/

def valueText (value? : Option Nat) : String :=
  (value?.map toString).getD "undefined"

def reportRuntimeError (console : Console) (error : Machine.RuntimeError) : Console :=
  let place := s!"At instruction {error.pc.next.text} ('{error.operator.symbol}')."
  let state := s!"$[$ptr: {error.pointer.text}]: {valueText error.cell?}."
  ((console.complain s!"error: {error.fault.message}").complain s!"{place} {state}").say
    "Program exited with error."

/-- Shows an event of the session; a run that starts forgets the output of the one before. -/
def showEvent (console : Console) : Session.Event → Console
  | .loaded _ _ => console
  | .loadFailed error _ =>
      let place := s!"{error.location.line}:{error.location.column}"
      console.complain s!"error: {error.fault.message} at {place}."
  | .started _ => { console with session := console.session.clearOutput }
  | .halted .normal => console.say "Program exited normally."
  | .halted (.error error) => console.reportRuntimeError error

def hear (console : Console) : Session.Signal → Console
  | .noted entry => console.emit (.noted entry)
  | .published _ => console
  | .wrote byte => if console.listening then console.writeByte byte else console
  | .event event => if console.listening then console.showEvent event else console

/-- Takes over the session after an operation, with the signals that it gave. -/
def follow {α : Type} (console : Console) (reply : Session.Reply α) : Console :=
  reply.signals.foldl hear { console with session := reply.session }

/-- Listens to the session no longer. -/
def dispose (console : Console) : Console :=
  { console with listening := false }

/-! ## Texts -/

def cellText (report : Session.CellReport) : String :=
  let place := s!"$[{Number.rationalText report.index}]: {valueText report.value?}"
  match report.char? with
  | some char => s!"{place} ('{char}')."
  | none => s!"{place}."

/-- The text of a report on a cell of the window, with a mark at the pointer. -/
def windowText (report : Session.CellReport) : String :=
  let mark := if report.current then "-> " else "   "
  s!"{mark}{cellText report}"

/-- The next instruction as the prompt shows it, while running. -/
def statusLine (console : Console) : Option String × Console :=
  match console.session.currentInstruction with
  | .ok report => (some s!"@{report.index.text}: {report.operator.symbol}", console.closeLine)
  | .error _ => (none, console.closeLine)

end Console

end TapeDebugger
