import TapeDebugger.Console.Execution
import TapeDebugger.Proofs.Session.Live

/-!
# Histories of a console

Lines are executed at a console, and the session behind it can be worked with
directly.  Each of these actions comes to one operation on the session at most;
all that the console adds is that a start it hears of clears the output.  So what
every operation keeps of a session is kept at a console too.
-/

namespace TapeDebugger

open Session (Event Operation Reply Signal)

namespace Console

/-! ## Actions -/

/-- What is done at a console, or with the session behind it. -/
inductive Action where
  | direct (operation : Operation)
  | line (text : String) (read : Reader) (patience : Nat)
  | loadFile (path : String) (read : Reader)
  | showStatus
  | dispose

/-- The console behind an action, also one that throws; there is none if the patience is spent before. -/
def act (console : Console) : Action → Option Console
  | .direct operation => (console.session.perform operation).map console.follow
  | .line text read patience => (console.execute patience read text).map Prod.snd
  | .loadFile path read => some (console.loadFile read path).console
  | .showStatus => some console.statusLine.2
  | .dispose => some console.dispose

/-- The console behind a row of actions. -/
def actAll (console : Console) (actions : List Action) : Option Console :=
  actions.foldlM act console

/-- A new console, with a new session under the settings of a storage. -/
def opened (storage : Settings.Storage) : Console :=
  { session := .start storage }

/-- A reader that finds no file. -/
def noFile : Reader :=
  fun _ => .error (.error (some Thrown.missingCode) "no such file or directory")

/-- What a file comes to: its source is loaded, or the run is given up if there is none to read. -/
def fileOperation (read : Reader) (path : String) : Operation :=
  match read path with
  | .ok source => .load source (some path)
  | .error _ => .discard

/-- What a line asks to do with the session. -/
def lineOperation? (read : Reader) (patience : Nat) : Command.Line → Option Operation
  | .call .file (some path) => some (fileOperation read path)
  | .call .run _ => some .run
  | .call .next none => some (.next (.finite 1) patience)
  | .call .next (some text) => (Number.ofIntegerText? text).map fun count => .next count patience
  | .call .jump (some text) => (Number.ofIntegerText? text).map fun index => .jump (some index)
  | .call .resume _ => some (.resume patience)
  | .call .input (some text) => some (.queueInput s!"{text}\n")
  | _ => none

/-- What an action asks to do with the session. -/
def Action.operation? : Action → Option Operation
  | .direct operation => some operation
  | .line text read patience => lineOperation? read patience (Command.Line.parse text)
  | .loadFile path read => some (fileOperation read path)
  | .showStatus | .dispose => none

/-- The operations that a row of actions comes to, each with the session that it is performed on. -/
def steps (console : Console) : List Action → List (Session × Operation)
  | [] => []
  | action :: rest =>
      match console.act action with
      | none => []
      | some next =>
          (action.operation?.toList.map fun operation => (console.session, operation)) ++
            next.steps rest

variable {console next : Console} {action : Action} {actions : List Action}

theorem actAll_cons_eq_some_iff :
    console.actAll (action :: actions) = some next ↔
      ∃ middle, console.act action = some middle ∧ middle.actAll actions = some next := by
  simp [actAll, Option.bind_eq_some_iff]

theorem map_operation_steps (acted : console.actAll actions = some next) :
    (console.steps actions).map Prod.snd = actions.filterMap Action.operation? := by
  induction actions generalizing console with
  | nil => rfl
  | cons action rest ih =>
      obtain ⟨middle, actedFirst, actedRest⟩ := actAll_cons_eq_some_iff.mp acted
      simp only [steps, actedFirst, List.map_append, ih actedRest]
      cases found : action.operation? with
      | none => simp [found]
      | some operation => simp [found]

/-! ## Writing leaves the session alone -/

@[simp] theorem session_closeLine (console : Console) :
    console.closeLine.session = console.session := by
  unfold closeLine
  split <;> rfl

@[simp] theorem listening_closeLine (console : Console) :
    console.closeLine.listening = console.listening := by
  unfold closeLine
  split <;> rfl

@[simp] theorem session_say (console : Console) (text : String) :
    (console.say text).session = console.session :=
  console.session_closeLine

@[simp] theorem listening_say (console : Console) (text : String) :
    (console.say text).listening = console.listening :=
  console.listening_closeLine

@[simp] theorem session_complain (console : Console) (text : String) :
    (console.complain text).session = console.session :=
  console.session_closeLine

@[simp] theorem listening_complain (console : Console) (text : String) :
    (console.complain text).listening = console.listening :=
  console.listening_closeLine

@[simp] theorem session_report (console : Console) (error : Session.UserError) :
    (console.report error).session = console.session :=
  console.session_say _

@[simp] theorem session_emit (console : Console) (effect : Effect) :
    (console.emit effect).session = console.session := rfl

@[simp] theorem session_reportRuntimeError (console : Console) (error : Machine.RuntimeError) :
    (console.reportRuntimeError error).session = console.session := by
  simp [reportRuntimeError]

@[simp] theorem listening_reportRuntimeError (console : Console) (error : Machine.RuntimeError) :
    (console.reportRuntimeError error).listening = console.listening := by
  simp [reportRuntimeError]

/-! ## Following the session -/

/-- The session behind an operation that a console may have listened to. -/
def heard {α : Type} (listening : Bool) (reply : Reply α) : Session :=
  if listening && reply.events.any Event.isStart then reply.session.clearOutput
  else reply.session

theorem heard_of_silent {α : Type} {listening : Bool} {reply : Reply α}
    (silent : reply.events = []) : heard listening reply = reply.session := by
  simp [heard, silent]

/-- An event changes the session only by the start that clears the output. -/
theorem session_showEvent (console : Console) (event : Event) :
    (console.showEvent event).session =
        (if event.isStart then console.session.clearOutput else console.session) ∧
      (console.showEvent event).listening = console.listening := by
  cases event with
  | loaded | started => exact ⟨rfl, rfl⟩
  | loadFailed => exact ⟨console.session_complain _, console.listening_complain _⟩
  | halted halt =>
      cases halt with
      | normal => exact ⟨console.session_say _, console.listening_say _⟩
      | error error =>
          exact ⟨console.session_reportRuntimeError error,
            console.listening_reportRuntimeError error⟩

theorem session_foldl_hear (signals : List Signal) (console : Console) :
    (signals.foldl hear console).session =
      if console.listening && (signals.filterMap Signal.event?).any Event.isStart then
        console.session.clearOutput
      else console.session := by
  induction signals generalizing console with
  | nil => simp
  | cons signal rest ih =>
      rw [List.foldl_cons, ih]
      cases signal with
      | noted | published => rfl
      | wrote byte =>
          rw [hear]
          split <;> rfl
      | event event =>
          rw [hear]
          split
          · rename_i listening
            obtain ⟨session_eq, listening_eq⟩ := console.session_showEvent event
            rw [session_eq, listening_eq, listening]
            cases started : event.isStart with
            | false => simp [Signal.event?, started]
            | true =>
                -- what is cleared once is cleared
                have again : console.session.clearOutput.clearOutput =
                    console.session.clearOutput := rfl
                simp [Signal.event?, started, again]
          · rename_i deaf
            simp [deaf]

theorem session_follow {α : Type} (console : Console) (reply : Reply α) :
    (console.follow reply).session = heard console.listening reply :=
  session_foldl_hear reply.signals _

/-! ## Every action is one operation at most -/

/-- What an action does with the session: its operation, if it has one. -/
inductive Affects (console : Console) : Option Operation → Session → Prop where
  | nothing : Affects console none console.session
  | performed {operation : Operation} {reply : Reply Unit}
      (performed : console.session.perform operation = some reply) :
      Affects console (some operation) (heard console.listening reply)

/-- Following the reply to an operation does with the session what the operation asks for. -/
theorem affects_follow {α : Type} {operation : Operation} {reply : Reply α}
    (performed : console.session.perform operation = some reply.withoutAnswer) :
    console.Affects (some operation) (console.follow reply).session := by
  rw [session_follow]
  exact .performed performed

theorem affects_loadFile (console : Console) (read : Reader) (path : String) :
    console.Affects (some (fileOperation read path))
      (console.loadFile read path).console.session := by
  have said {operation : Operation} {α : Type} {reply : Reply α}
      (performed : console.session.perform operation = some reply.withoutAnswer) :
      console.Affects (some operation)
        ((console.say s!"Reading {path}...").follow reply).session := by
    rw [session_follow, listening_say]
    exact .performed performed
  cases found : read path with
  | error thrown =>
      simp only [loadFile, fileOperation, found, session_say]
      split
      · rw [done, session_complain]
        exact said rfl
      · exact said rfl
  | ok source =>
      simp only [loadFile, fileOperation, found, session_say]
      split
      · exact said rfl
      · rw [done, session_say]
        exact said rfl

theorem affects_startRun (console : Console) :
    console.Affects (some .run) console.startRun.console.session := by
  have started : console.Affects (some .run) (console.follow console.session.run).session :=
    affects_follow rfl
  simp only [startRun]
  split
  · exact started
  · rw [done, session_report]
    exact started
  · exact started

theorem affects_stepBy {count : Number} {patience : Nat} {next : Console}
    (stepped : console.stepBy count patience = some next) :
    console.Affects (some (.next count patience)) next.session := by
  obtain ⟨reply, answered, rfl⟩ := Option.map_eq_some_iff.mp stepped
  have followed : console.Affects (some (.next count patience)) (console.follow reply).session := by
    apply affects_follow
    rw [Session.perform, answered, Option.map_some]
  simp only
  split
  · exact followed
  · rw [session_report]
    exact followed

theorem affects_stepNext (read : Reader) {patience : Nat} {argument? : Option String}
    {next : Console} (stepped : console.stepNext argument? patience = some next) :
    console.Affects (lineOperation? read patience (.call .next argument?)) next.session := by
  cases argument? with
  | none => exact affects_stepBy stepped
  | some text =>
      cases found : Number.ofIntegerText? text with
      | none =>
          simp only [stepNext, found] at stepped
          cases stepped
          simp only [lineOperation?, found, session_report]
          exact .nothing
      | some count =>
          simp only [stepNext, found] at stepped
          simp only [lineOperation?, found]
          exact affects_stepBy stepped

/-- A jump that is asked for without a run is refused before its index is looked at. -/
theorem affects_jumpTo (console : Console) (read : Reader) (patience : Nat)
    (argument? : Option String) :
    console.Affects (lineOperation? read patience (.call .jump argument?))
      (console.jumpTo argument?).session := by
  have jumped (index : Number) :
      console.Affects (some (.jump (some index)))
        (console.follow (console.session.jump (some index))).session := affects_follow rfl
  cases executing : console.session.execution with
  | error error =>
      have idle (index : Number) : console.session.jump (some index) =
          { answer := .error error, session := console.session } := by
        simp only [Session.jump, executing]
      simp only [jumpTo, executing, session_report]
      cases argument? with
      | none => exact .nothing
      | some text =>
          cases found : Number.ofIntegerText? text with
          | none =>
              simp only [lineOperation?, found]
              exact .nothing
          | some index =>
              have unchanged := jumped index
              rw [idle, session_follow, heard_of_silent rfl] at unchanged
              simp only [lineOperation?, found]
              exact unchanged
  | ok running =>
      cases argument? with
      | none =>
          simp only [jumpTo, executing, session_report]
          exact .nothing
      | some text =>
          cases found : Number.ofIntegerText? text with
          | none =>
              simp only [jumpTo, executing, lineOperation?, found, session_report]
              exact .nothing
          | some index =>
              simp only [jumpTo, executing, lineOperation?, found]
              split
              · exact jumped index
              · rw [session_report]
                exact jumped index

theorem affects_resumeRun (console : Console) (read : Reader) (patience : Nat)
    {argument? : Option String} {next : Console}
    (resumed : console.resumeRun patience = some next) :
    console.Affects (lineOperation? read patience (.call .resume argument?)) next.session := by
  obtain ⟨reply, found, rfl⟩ := Option.map_eq_some_iff.mp resumed
  have followed : console.Affects (some (.resume patience)) (console.follow reply).session := by
    apply affects_follow
    rw [Session.perform, found, Option.map_some]
  simp only
  split
  · rw [session_report]
    exact followed
  · rw [session_say]
    exact followed
  · exact followed

/-! Looking into the run only writes. -/

theorem session_showPointer (console : Console) :
    console.showPointer.session = console.session := by
  unfold showPointer
  split
  · exact console.session_say _
  · exact console.session_report _

theorem session_showCell (console : Console) (argument? : Option String) :
    (console.showCell argument?).session = console.session := by
  simp only [showCell]
  split
  · split
    · exact console.session_say _
    · exact console.session_report _
  · split
    · split
      · exact console.session_say _
      · exact console.session_report _
    · exact console.session_report _

theorem session_foldl_say (reports : List Session.CellReport) (console : Console) :
    (reports.foldl (fun console report => console.say (windowText report)) console).session =
      console.session := by
  induction reports generalizing console with
  | nil => rfl
  | cons report rest ih => rw [List.foldl_cons, ih, session_say]

theorem session_showTape (console : Console) : console.showTape.session = console.session := by
  unfold showTape
  split
  · exact session_foldl_say _ console
  · exact console.session_report _

theorem affects_perform {read : Reader} {patience : Nat} {command : Command}
    {argument? : Option String} {completion : Completion}
    (performed : console.perform patience read command argument? = some completion) :
    console.Affects (lineOperation? read patience (.call command argument?))
      completion.console.session := by
  cases command with
  | help =>
      cases performed
      rw [done, session_say]
      exact .nothing
  | quit =>
      cases performed
      exact .nothing
  | file =>
      cases performed
      cases argument? with
      | none =>
          rw [useFile, done, session_report]
          exact .nothing
      | some path => exact console.affects_loadFile read path
  | run =>
      cases performed
      exact console.affects_startRun
  | next =>
      obtain ⟨final, stepped, rfl⟩ := Option.map_eq_some_iff.mp performed
      exact affects_stepNext read stepped
  | jump =>
      cases performed
      exact console.affects_jumpTo read patience argument?
  | resume =>
      obtain ⟨final, resumed, rfl⟩ := Option.map_eq_some_iff.mp performed
      exact console.affects_resumeRun read patience resumed
  | dataPointer =>
      cases performed
      rw [done, session_showPointer]
      exact .nothing
  | print =>
      cases performed
      rw [done, session_showCell]
      exact .nothing
  | tape =>
      cases performed
      rw [done, session_showTape]
      exact .nothing
  | input =>
      cases performed
      cases argument? with
      | none =>
          rw [queueLine, done, session_report]
          exact .nothing
      | some text =>
          simp only [queueLine, done, session_say]
          exact affects_follow rfl

/-- How a command answers writes at most. -/
theorem session_answer (completion : Completion) (command : Command) :
    (completion.answer command).2.session = completion.console.session := by
  unfold Completion.answer
  split
  · rfl
  · split <;> rfl

/-- Whatever line is executed, it does one operation on the session at most. -/
theorem affects_of_execute {read : Reader} {patience : Nat} {text : String}
    {answer : Except Thrown Bool} {next : Console}
    (executed : console.execute patience read text = some (answer, next)) :
    console.Affects (lineOperation? read patience (Command.Line.parse text)) next.session := by
  rw [execute] at executed
  cases parsed : Command.Line.parse text with
  | empty =>
      rw [parsed] at executed
      cases executed
      exact .nothing
  | unknown word =>
      rw [parsed] at executed
      cases executed
      rw [session_say]
      exact .nothing
  | call command argument? =>
      simp only [parsed] at executed
      obtain ⟨completion, performed, same⟩ := Option.map_eq_some_iff.mp executed
      have session_eq := session_answer completion command
      rw [same] at session_eq
      rw [session_eq]
      exact affects_perform performed

theorem affects_of_act (acted : console.act action = some next) :
    console.Affects action.operation? next.session := by
  cases action with
  | direct operation =>
      obtain ⟨reply, performed, rfl⟩ := Option.map_eq_some_iff.mp acted
      exact affects_follow performed
  | line text read patience =>
      obtain ⟨⟨answer, final⟩, executed, rfl⟩ := Option.map_eq_some_iff.mp acted
      exact affects_of_execute executed
  | loadFile path read =>
      cases acted
      exact console.affects_loadFile read path
  | showStatus =>
      cases acted
      have session_eq : console.statusLine.2.session = console.session := by
        unfold statusLine
        split <;> exact console.session_closeLine
      rw [session_eq]
      exact .nothing
  | dispose =>
      cases acted
      exact .nothing

/-! ## Whole histories -/

/--
What holds of the operations so far and of the session behind them, and is kept by
every further operation and by clearing the output, holds of a whole history.
-/
theorem actAll_induction {motive : List (Session × Operation) → Session → Prop}
    (kept : ∀ done session operation reply, motive done session →
      session.perform operation = some reply →
        motive (done ++ [(session, operation)]) reply.session)
    (cleared : ∀ done session, motive done session → motive done session.clearOutput)
    (before : motive [] console.session) (acted : console.actAll actions = some next) :
    motive (console.steps actions) next.session := by
  -- the operations that were done before the rest of the actions grow at their end
  suffices general : ∀ done, motive done console.session →
      motive (done ++ console.steps actions) next.session from general [] before
  clear before
  intro done before
  induction actions generalizing console done with
  | nil =>
      cases acted
      exact (List.append_nil done).symm ▸ before
  | cons action rest ih =>
      obtain ⟨middle, actedFirst, actedRest⟩ := actAll_cons_eq_some_iff.mp acted
      simp only [steps, actedFirst, ← List.append_assoc]
      refine ih actedRest _ ?_
      have affects := affects_of_act actedFirst
      generalize action.operation? = operation?, middle.session = after at affects ⊢
      cases affects with
      | nothing => exact (List.append_nil done).symm ▸ before
      | performed performed =>
          have keptFirst := kept done _ _ _ before performed
          unfold heard
          split
          · exact cleared _ _ keptFirst
          · exact keptFirst

end Console

end TapeDebugger
