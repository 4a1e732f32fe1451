import TapeDebugger.Console.Execution
import TapeDebugger.Proofs.Session.Verbosity

/-!
# Verbosity and consoles

A console hands out every entry of the log, whether it is shown or not.  So what it hands
out does not depend on whether the whole log is to be shown, and neither does what
becomes of it.
-/

namespace TapeDebugger

namespace Console

def withVerbose (console : Console) (verbose : Bool) : Console :=
  { console with session := console.session.withVerbose verbose }

def Completion.withVerbose (completion : Completion) (verbose : Bool) : Completion :=
  { completion with console := completion.console.withVerbose verbose }

variable (console : Console) (verbose : Bool)

@[simp] theorem session_withVerbose :
    (console.withVerbose verbose).session = console.session.withVerbose verbose :=
  rfl

@[simp] theorem written_withVerbose : (console.withVerbose verbose).written = console.written :=
  rfl

/-! ## Writing -/

theorem emit_withVerbose (effect : Effect) :
    (console.withVerbose verbose).emit effect = (console.emit effect).withVerbose verbose :=
  rfl

theorem closeLine_withVerbose :
    (console.withVerbose verbose).closeLine = console.closeLine.withVerbose verbose := by
  obtain ⟨session, lineOpen, listening, written⟩ := console
  cases lineOpen <;> rfl

theorem say_withVerbose (text : String) :
    (console.withVerbose verbose).say text = (console.say text).withVerbose verbose := by
  rw [say, closeLine_withVerbose, emit_withVerbose, say]

theorem complain_withVerbose (text : String) :
    (console.withVerbose verbose).complain text = (console.complain text).withVerbose verbose := by
  rw [complain, closeLine_withVerbose, emit_withVerbose, complain]

theorem report_withVerbose (error : Session.UserError) :
    (console.withVerbose verbose).report error = (console.report error).withVerbose verbose :=
  console.say_withVerbose verbose error.message

/-! ## Following the session -/

theorem reportRuntimeError_withVerbose (error : Machine.RuntimeError) :
    (console.withVerbose verbose).reportRuntimeError error =
      (console.reportRuntimeError error).withVerbose verbose := by
  simp only [reportRuntimeError, complain_withVerbose, say_withVerbose]

theorem showEvent_withVerbose (event : Session.Event) :
    (console.withVerbose verbose).showEvent event =
      (console.showEvent event).withVerbose verbose := by
  cases event with
  | loaded program sourceName? => rfl
  | loadFailed error sourceName? => exact console.complain_withVerbose verbose _
  | started runtime => rfl
  | halted halt =>
      cases halt with
      | normal => exact console.say_withVerbose verbose _
      | error error => exact console.reportRuntimeError_withVerbose verbose error

theorem hear_withVerbose (signal : Session.Signal) :
    (console.withVerbose verbose).hear signal = (console.hear signal).withVerbose verbose := by
  cases signal with
  | noted entry => rfl
  | published status => rfl
  | wrote byte =>
      show (if console.listening then _ else _) = withVerbose (if console.listening then _ else _) _
      split <;> rfl
  | event event =>
      show (if console.listening then _ else _) = withVerbose (if console.listening then _ else _) _
      split
      · exact console.showEvent_withVerbose verbose event
      · rfl

theorem follow_withVerbose {α : Type} (reply : Session.Reply α) :
    (console.withVerbose verbose).follow (reply.withVerbose verbose) =
      (console.follow reply).withVerbose verbose := by
  show reply.signals.foldl hear
    (withVerbose { console with session := reply.session } verbose) = _
  exact List.foldl_hom (withVerbose · verbose) fun console signal =>
    console.hear_withVerbose verbose signal

/-! ## Commands -/

section Commands

variable (read : Reader)

theorem loadFile_withVerbose (path : String) :
    (console.withVerbose verbose).loadFile read path =
      (console.loadFile read path).withVerbose verbose := by
  simp only [loadFile, say_withVerbose, session_withVerbose, Session.discard_withVerbose,
    Session.load_withVerbose, follow_withVerbose, complain_withVerbose,
    Session.Reply.answer_withVerbose]
  cases read path with
  | error thrown =>
      dsimp only
      cases thrown.fileText <;> rfl
  | ok source =>
      dsimp only
      cases ((console.say s!"Reading {path}...").session.load source (some path)).answer <;> rfl

theorem startRun_withVerbose :
    (console.withVerbose verbose).startRun = console.startRun.withVerbose verbose := by
  simp only [startRun, session_withVerbose, Session.run_withVerbose, follow_withVerbose,
    report_withVerbose, Session.Reply.answer_withVerbose]
  cases console.session.run.answer with
  | ok runtime => rfl
  | error error => cases error <;> rfl

theorem stepBy_withVerbose (count : Number) (patience : Nat) :
    (console.withVerbose verbose).stepBy count patience =
      (console.stepBy count patience).map (withVerbose · verbose) := by
  simp only [stepBy, session_withVerbose, Session.next_withVerbose, Option.map_map]
  refine congrArg (Option.map · _) (funext fun reply => ?_)
  simp only [Function.comp_apply, follow_withVerbose, report_withVerbose,
    Session.Reply.answer_withVerbose]
  cases reply.answer <;> rfl

theorem stepNext_withVerbose (argument? : Option String) (patience : Nat) :
    (console.withVerbose verbose).stepNext argument? patience =
      (console.stepNext argument? patience).map (withVerbose · verbose) := by
  simp only [stepNext, stepBy_withVerbose]
  cases argument? with
  | none => rfl
  | some text =>
      dsimp only
      cases Number.ofIntegerText? text with
      | none => exact congrArg some (console.report_withVerbose verbose _)
      | some count => rfl

theorem jumpTo_withVerbose (argument? : Option String) :
    (console.withVerbose verbose).jumpTo argument? =
      (console.jumpTo argument?).withVerbose verbose := by
  simp only [jumpTo, session_withVerbose, Session.execution_withVerbose,
    Session.jump_withVerbose, follow_withVerbose, report_withVerbose,
    Session.Reply.answer_withVerbose]
  cases console.session.execution with
  | error error => rfl
  | ok found =>
      cases argument? with
      | none => rfl
      | some text =>
          dsimp only
          cases Number.ofIntegerText? text with
          | none => rfl
          | some index =>
              dsimp only
              cases (console.session.jump (some index)).answer <;> rfl

theorem resumeRun_withVerbose (patience : Nat) :
    (console.withVerbose verbose).resumeRun patience =
      (console.resumeRun patience).map (withVerbose · verbose) := by
  simp only [resumeRun, session_withVerbose, Session.resume_withVerbose, Option.map_map]
  refine congrArg (Option.map · _) (funext fun reply => ?_)
  simp only [Function.comp_apply, follow_withVerbose, report_withVerbose, say_withVerbose,
    Session.Reply.answer_withVerbose]
  cases reply.answer with
  | error error => rfl
  | ok resumption => cases resumption <;> rfl

theorem showPointer_withVerbose :
    (console.withVerbose verbose).showPointer = console.showPointer.withVerbose verbose := by
  simp only [showPointer, session_withVerbose, Session.dataPointer_withVerbose, say_withVerbose,
    report_withVerbose]
  cases console.session.dataPointer <;> rfl

theorem showCell_withVerbose (argument? : Option String) :
    (console.withVerbose verbose).showCell argument? =
      (console.showCell argument?).withVerbose verbose := by
  simp only [showCell, session_withVerbose, Session.cell_withVerbose, say_withVerbose,
    report_withVerbose]
  cases argument? with
  | none =>
      dsimp only
      cases console.session.cell none <;> rfl
  | some text =>
      dsimp only
      cases Number.ofIntegerText? text with
      | none => rfl
      | some index =>
          dsimp only
          cases console.session.cell (some index) <;> rfl

theorem showTape_withVerbose :
    (console.withVerbose verbose).showTape = console.showTape.withVerbose verbose := by
  simp only [showTape, session_withVerbose, Session.tapeWindow_withVerbose, report_withVerbose]
  cases console.session.tapeWindow none with
  | error error => rfl
  | ok reports =>
      exact List.foldl_hom (withVerbose · verbose) fun console report =>
        console.say_withVerbose verbose (windowText report)

theorem queueLine_withVerbose (argument? : Option String) :
    (console.withVerbose verbose).queueLine argument? =
      (console.queueLine argument?).withVerbose verbose := by
  simp only [queueLine, session_withVerbose, Session.queueInput_withVerbose, follow_withVerbose,
    report_withVerbose, say_withVerbose, Session.Reply.answer_withVerbose]
  cases argument? <;> rfl

theorem useFile_withVerbose (argument? : Option String) :
    (console.withVerbose verbose).useFile read argument? =
      (console.useFile read argument?).withVerbose verbose := by
  cases argument? with
  | none => exact congrArg done (console.report_withVerbose verbose _)
  | some path => exact console.loadFile_withVerbose verbose read path

/-- A command that throws nothing completes with the console that is left. -/
theorem map_done_withVerbose (console? : Option Console) :
    (console?.map (withVerbose · verbose)).map done =
      (console?.map done).map (Completion.withVerbose · verbose) := by
  cases console? <;> rfl

theorem perform_withVerbose (patience : Nat) (command : Command) (argument? : Option String) :
    (console.withVerbose verbose).perform patience read command argument? =
      (console.perform patience read command argument?).map (Completion.withVerbose · verbose) := by
  have completed {next next' : Console} (same : next' = next.withVerbose verbose) :
      some next'.done = (some next.done).map (Completion.withVerbose · verbose) :=
    congrArg (fun console => some (done console)) same
  cases command with
  | help => exact completed (console.say_withVerbose verbose _)
  | quit => rfl
  | file => exact congrArg some (console.useFile_withVerbose verbose read argument?)
  | run => exact congrArg some (console.startRun_withVerbose verbose)
  | next =>
      simp only [perform, stepNext_withVerbose]
      exact map_done_withVerbose verbose _
  | jump => exact completed (console.jumpTo_withVerbose verbose argument?)
  | resume =>
      simp only [perform, resumeRun_withVerbose]
      exact map_done_withVerbose verbose _
  | dataPointer => exact completed (console.showPointer_withVerbose verbose)
  | print => exact completed (console.showCell_withVerbose verbose argument?)
  | tape => exact completed (console.showTape_withVerbose verbose)
  | input => exact completed (console.queueLine_withVerbose verbose argument?)

theorem answer_withVerbose (completion : Completion) (command : Command) :
    (completion.withVerbose verbose).answer command =
      ((completion.answer command).1, (completion.answer command).2.withVerbose verbose) := by
  obtain ⟨console, thrown?⟩ := completion
  simp only [Completion.answer, Completion.withVerbose]
  cases thrown? with
  | none => rfl
  | some thrown =>
      dsimp only
      cases thrown.text <;> rfl

/-- Whether the whole log is to be shown has no bearing on what comes of a line. -/
theorem execute_withVerbose (patience : Nat) (line : String) :
    (console.withVerbose verbose).execute patience read line =
      (console.execute patience read line).map fun answer =>
        (answer.1, answer.2.withVerbose verbose) := by
  simp only [execute]
  cases Command.Line.parse line with
  | empty => rfl
  | unknown word =>
      exact congrArg (fun console => some (Except.ok true, console)) (say_withVerbose _ _ _)
  | call command argument? =>
      simp only [perform_withVerbose, Option.map_map]
      exact congrArg (Option.map · _)
        (funext fun completion => answer_withVerbose verbose completion command)

end Commands

end Console

end TapeDebugger
