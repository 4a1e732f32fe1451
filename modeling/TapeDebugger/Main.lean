import TapeDebugger.Transcript

/-!
# The command line

The program of the file named first is debugged with commands read from the
standard input.  Settings are read from the file that the environment names, or
from the one in the current directory.
-/

namespace TapeDebugger

namespace CommandLine

def settingsVariable : String := "TAPEDB_CONFIG"

/-- How many instructions one command may execute before it is given up. -/
def patience : Nat := 4611686018427387904

def readBytes (path : String) : IO (Except Transcript.FileError (List UInt8)) := do
  try
    let bytes ← IO.FS.readBinFile path
    pure (.ok bytes.data.toList)
  catch error =>
    match error with
    | .noFileOrDirectory .. => pure (.error .missing)
    | error => pure (.error (.other (toString error)))

/-- What is in the one file that a line asks for. -/
def filesFor (path? : Option String) : IO Transcript.Files := do
  match path? with
  | none => pure fun _ => .error .missing
  | some path =>
      let content ← readBytes path
      pure fun _ => content.map Text.decode

/-- The file that a line asks to load. -/
def fileOf? (line : String) : Option String :=
  match Command.Line.parse line with
  | .call .file argument? => argument?
  | _ => none

def flush (console : Console) : IO Console := do
  let (effects, console) := console.take
  let verbose := console.session.settings.verbose
  let out ← IO.getStdout
  let err ← IO.getStderr
  for effect in effects do
    out.write ⟨(Transcript.outBytes effect).toArray⟩
    err.write ⟨(Transcript.errBytes verbose effect).toArray⟩
  out.flush
  err.flush
  pure console

/-- Reads bytes up to the next line feed or the end of the input. -/
partial def readChunk (input : IO.FS.Stream) (chunk : ByteArray) : IO ByteArray := do
  let byte ← input.read 1
  if byte.isEmpty then pure chunk
  else
    let chunk := chunk ++ byte
    if byte[0]! = 10 then pure chunk else readChunk input chunk

/-- Answers lines that have been read; tells the exit code if the console does not go on. -/
def answerLines (echo : Bool) : List String → Console → IO (Option UInt32 × Console)
  | [], console => pure (none, console)
  | line :: rest, console => do
      let files ← filesFor (fileOf? line)
      match Transcript.answer console patience files echo line with
      | none => pure (some 1, console)
      | some (result, console) =>
          let console ← flush console
          match result with
          | .ok true => answerLines echo rest console
          | .ok false => pure (some 0, console)
          | .error _ => pure (some 1, console)

/-- Answers the lines of the input until it ends or the console does. -/
partial def loop (input : IO.FS.Stream) (echo : Bool) (console : Console) : IO UInt32 := do
  let chunk ← readChunk input .empty
  if chunk.isEmpty then pure 0
  else
    let (code?, console) ← answerLines echo (Text.inputLines chunk.data.toList) console
    match code? with
    | some code => pure code
    | none => loop input echo console

def start (arguments : List String) : IO UInt32 := do
  let settingsPath := (← IO.getEnv settingsVariable).getD Settings.fileName
  let content := (← readBytes settingsPath).toOption.map Text.decode
  let files ← filesFor arguments.head?
  let console := Transcript.begin (Transcript.start settingsPath content) files arguments
  let console ← flush console
  let input ← IO.getStdin
  let terminal ← input.isTty
  loop input (!terminal) console

end CommandLine

end TapeDebugger

def main (arguments : List String) : IO UInt32 :=
  TapeDebugger.CommandLine.start arguments
