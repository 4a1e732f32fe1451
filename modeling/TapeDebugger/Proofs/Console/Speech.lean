import TapeDebugger.Proofs.Console.History
import TapeDebugger.Proofs.Session.Emission

/-!
# How a console speaks

Whatever is done at a console, it first passes on the bytes that the program writes
meanwhile, if it listens.  All else that it writes comes behind them and is its own:
messages, none of them empty, entries of the log, and ends of open lines.
-/

namespace TapeDebugger

open Session (Event Operation Reply Signal)

namespace Console

/-! ## Speaking -/

/-- What a console does that writes nothing on behalf of the program. -/
inductive Speaks (console : Console) : Console → Prop where
  | silent : Speaks console console
  | working {next : Console} (before : Speaks console next) (session : Session) :
      Speaks console { next with session }
  | said {next : Console} (before : Speaks console next) {text : String} (present : text ≠ "") :
      Speaks console (next.say text)
  | complained {next : Console} (before : Speaks console next) (text : String) :
      Speaks console (next.complain text)
  | noted {next : Console} (before : Speaks console next) (entry : Log.Entry) :
      Speaks console (next.emit (.noted entry))
  | closed {next : Console} (before : Speaks console next) : Speaks console next.closeLine

/-- The console behind a row of bytes of the program. -/
def writeBytes (console : Console) (bytes : List UInt8) : Console :=
  bytes.foldl writeByte console

/-- The console passes on these bytes of the program, and then it speaks. -/
def Relays (console : Console) (bytes : List UInt8) (next : Console) : Prop :=
  (console.writeBytes bytes).Speaks next

variable {console middle next : Console} {bytes : List UInt8}

theorem Speaks.trans (first : console.Speaks middle) (second : middle.Speaks next) :
    console.Speaks next := by
  induction second with
  | silent => exact first
  | working _ session ih => exact ih.working session
  | said _ present ih => exact ih.said present
  | complained _ text ih => exact ih.complained text
  | noted _ entry ih => exact ih.noted entry
  | closed _ ih => exact ih.closed

theorem Speaks.listening (speaks : console.Speaks next) : next.listening = console.listening := by
  induction speaks with
  | silent => rfl
  | working _ _ ih => exact ih
  | said _ _ ih => rw [listening_say, ih]
  | complained _ _ ih => rw [listening_complain, ih]
  | noted _ _ ih => exact ih
  | closed _ ih => rw [listening_closeLine, ih]

theorem listening_writeBytes (console : Console) (bytes : List UInt8) :
    (console.writeBytes bytes).listening = console.listening := by
  induction bytes generalizing console with
  | nil => rfl
  | cons byte rest ih => exact ih (console.writeByte byte)

theorem writeBytes_withSession (console : Console) (session : Session) (bytes : List UInt8) :
    ({ console with session } : Console).writeBytes bytes =
      { console.writeBytes bytes with session } := by
  induction bytes generalizing console with
  | nil => rfl
  | cons byte rest ih => exact ih (console.writeByte byte)

theorem Relays.speaks (relays : console.Relays bytes middle) (speaks : middle.Speaks next) :
    console.Relays bytes next :=
  Speaks.trans relays speaks

/-! ## Messages -/

theorem message_ne_empty (error : Session.UserError) : error.message ≠ "" := by
  cases error <;> simp [Session.UserError.message, toString]

theorem cellText_ne_empty (report : Session.CellReport) : cellText report ≠ "" := by
  simp only [cellText]
  split <;> simp [toString]

theorem windowText_ne_empty (report : Session.CellReport) : windowText report ≠ "" := by
  simp only [windowText]
  split <;> simp [toString]

theorem speaks_report (console : Console) (error : Session.UserError) :
    console.Speaks (console.report error) :=
  Speaks.silent.said (message_ne_empty error)

/-! ## Following the session -/

theorem speaks_showEvent (console : Console) (event : Event) :
    console.Speaks (console.showEvent event) := by
  cases event with
  | loaded => exact .silent
  | loadFailed error sourceName? => exact Speaks.silent.complained _
  | started runtime => exact Speaks.silent.working _
  | halted halt =>
      cases halt with
      | normal => exact Speaks.silent.said (by decide)
      | error error => exact ((Speaks.silent.complained _).complained _).said (by decide)

theorem speaks_hear {signal : Signal} (console : Console) (silent : signal.byte? = none) :
    console.Speaks (console.hear signal) := by
  cases signal with
  | wrote byte => cases silent
  | noted entry => exact Speaks.silent.noted entry
  | published status => exact .silent
  | event event =>
      rw [hear]
      split
      · exact console.speaks_showEvent event
      · exact .silent

theorem speaks_foldl_hear {signals : List Signal} (console : Console)
    (silent : ∀ signal ∈ signals, signal.byte? = none) :
    console.Speaks (signals.foldl hear console) := by
  induction signals generalizing console with
  | nil => exact .silent
  | cons signal rest ih =>
      obtain ⟨first, others⟩ := List.forall_mem_cons.mp silent
      exact (console.speaks_hear first).trans (ih (console.hear signal) others)

/-- Of bytes that are told of, a console shows all or, if it does not listen, none. -/
def shown (console : Console) (bytes : List UInt8) : List UInt8 :=
  if console.listening then bytes else []

theorem shown_nil (console : Console) : console.shown [] = [] :=
  ite_self []

theorem foldl_hear_wrote (console : Console) (bytes : List UInt8) :
    (bytes.map Signal.wrote).foldl hear console = console.writeBytes (console.shown bytes) := by
  induction bytes generalizing console with
  | nil => rw [shown_nil]; rfl
  | cons byte rest ih =>
      rw [List.map_cons, List.foldl_cons, ih, hear, shown, shown]
      cases listening : console.listening with
      | true =>
          have kept : (console.writeByte byte).listening = true := listening
          rw [if_pos rfl, kept]
          rfl
      | false => simp only [Bool.false_eq_true, if_false, listening]

/-- Following an operation passes on what it writes. -/
theorem relays_follow {α : Type} {operation : Operation} {reply : Reply α}
    (performed : console.session.perform operation = some reply.withoutAnswer) :
    console.Relays (console.shown (console.session.emittedBy operation))
      (console.follow reply) := by
  obtain ⟨others, signals_eq, silent⟩ := Session.emits_of_perform performed
  have followed : console.follow reply =
      others.foldl hear { console.writeBytes (console.shown (console.session.emittedBy operation))
        with session := reply.session } := by
    rw [← writeBytes_withSession, follow]
    refine (congrArg (List.foldl hear _) signals_eq).trans ?_
    rw [List.foldl_append, foldl_hear_wrote]
    rfl
  rw [followed, Relays]
  exact (Speaks.silent.working reply.session).trans (speaks_foldl_hear _ silent)

/-- An operation that executes no instruction only makes the console speak. -/
theorem speaks_follow {α : Type} (operation : Operation) {reply : Reply α}
    (performed : console.session.perform operation = some reply.withoutAnswer)
    (still : console.session.bound operation = 0) : console.Speaks (console.follow reply) := by
  have relays := relays_follow performed
  rw [Session.emittedBy_of_bound still, shown_nil] at relays
  exact relays

/-! ## Commands -/

theorem speaks_loadFile (console : Console) (read : Reader) (path : String) :
    console.Speaks (console.loadFile read path).console := by
  have said : console.Speaks (console.say s!"Reading {path}...") :=
    Speaks.silent.said (by simp [toString])
  simp only [loadFile]
  split
  · have discarded : (console.say s!"Reading {path}...").Speaks
        ((console.say s!"Reading {path}...").follow
          (console.say s!"Reading {path}...").session.discard) :=
      speaks_follow .discard rfl rfl
    split
    · exact (said.trans discarded).complained _
    · exact said.trans discarded
  · rename_i source found
    have loaded : (console.say s!"Reading {path}...").Speaks
        ((console.say s!"Reading {path}...").follow
          ((console.say s!"Reading {path}...").session.load source (some path))) :=
      speaks_follow (.load source (some path)) rfl rfl
    split
    · exact said.trans loaded
    · exact (said.trans loaded).said (by simp [toString])

theorem speaks_startRun (console : Console) : console.Speaks console.startRun.console := by
  have started : console.Speaks (console.follow console.session.run) :=
    speaks_follow .run rfl rfl
  simp only [startRun]
  split
  · exact started
  · exact started.trans (speaks_report _ _)
  · exact started

theorem speaks_jumpTo (console : Console) (argument? : Option String) :
    console.Speaks (console.jumpTo argument?) := by
  simp only [jumpTo]
  split
  · exact console.speaks_report _
  · split
    · exact console.speaks_report _
    · split
      · exact console.speaks_report _
      · rename_i index _
        have jumped : console.Speaks (console.follow (console.session.jump (some index))) :=
          speaks_follow (.jump (some index)) rfl rfl
        split
        · exact jumped
        · exact jumped.trans (speaks_report _ _)

theorem speaks_showPointer (console : Console) : console.Speaks console.showPointer := by
  unfold showPointer
  split
  · exact Speaks.silent.said (by simp [toString])
  · exact console.speaks_report _

theorem speaks_showCell (console : Console) (argument? : Option String) :
    console.Speaks (console.showCell argument?) := by
  have showAt {report : Session.CellReport} : console.Speaks (console.say (cellText report)) :=
    Speaks.silent.said (cellText_ne_empty report)
  simp only [showCell]
  split
  · split
    · exact showAt
    · exact console.speaks_report _
  · split
    · split
      · exact showAt
      · exact console.speaks_report _
    · exact console.speaks_report _

theorem speaks_foldl_say (reports : List Session.CellReport) (console : Console) :
    console.Speaks
      (reports.foldl (fun console report => console.say (windowText report)) console) := by
  induction reports generalizing console with
  | nil => exact .silent
  | cons report rest ih =>
      exact (Speaks.silent.said (windowText_ne_empty report)).trans (ih _)

theorem speaks_showTape (console : Console) : console.Speaks console.showTape := by
  unfold showTape
  split
  · exact speaks_foldl_say _ console
  · exact console.speaks_report _

theorem speaks_queueLine (console : Console) (argument? : Option String) :
    console.Speaks (console.queueLine argument?) := by
  cases argument? with
  | none => exact console.speaks_report _
  | some text =>
      have queued : console.Speaks
          (console.follow (console.session.queueInput s!"{text}\n")) :=
        speaks_follow (.queueInput s!"{text}\n") rfl rfl
      exact queued.said (by simp [toString])

/-- The bytes that are written on behalf of an operation, if there is one. -/
def emittedIn (console : Console) (operation? : Option Operation) : List UInt8 :=
  operation?.elim [] console.session.emittedBy

theorem relays_stepBy {count : Number} {patience : Nat}
    (stepped : console.stepBy count patience = some next) :
    console.Relays (console.shown (console.session.emittedBy (.next count patience))) next := by
  obtain ⟨reply, answered, rfl⟩ := Option.map_eq_some_iff.mp stepped
  have followed : console.Relays
      (console.shown (console.session.emittedBy (.next count patience)))
      (console.follow reply) := by
    apply relays_follow
    rw [Session.perform, answered, Option.map_some]
  simp only
  split
  · exact followed
  · exact followed.speaks (speaks_report _ _)

theorem relays_stepNext (read : Reader) {patience : Nat} {argument? : Option String}
    (stepped : console.stepNext argument? patience = some next) :
    console.Relays
      (console.shown
        (console.emittedIn (lineOperation? read patience (.call .next argument?)))) next := by
  cases argument? with
  | none => exact relays_stepBy stepped
  | some text =>
      cases found : Number.ofIntegerText? text with
      | none =>
          simp only [stepNext, found] at stepped
          cases stepped
          simp only [lineOperation?, found, Option.map_none, emittedIn, Option.elim_none,
            shown_nil]
          exact console.speaks_report _
      | some count =>
          simp only [stepNext, found] at stepped
          simp only [lineOperation?, found]
          exact relays_stepBy stepped

theorem relays_resumeRun {patience : Nat}
    (resumed : console.resumeRun patience = some next) :
    console.Relays (console.shown (console.session.emittedBy (.resume patience))) next := by
  obtain ⟨reply, found, rfl⟩ := Option.map_eq_some_iff.mp resumed
  have followed : console.Relays (console.shown (console.session.emittedBy (.resume patience)))
      (console.follow reply) := by
    apply relays_follow
    rw [Session.perform, found, Option.map_some]
  simp only
  split
  · exact followed.speaks (speaks_report _ _)
  · exact followed.speaks (Speaks.silent.said (by simp [toString]))
  · exact followed

/-- A console that works on its own passes on nothing. -/
theorem Speaks.relays_of_none (speaks : console.Speaks next) :
    console.Relays (console.shown (console.emittedIn none)) next := by
  rw [emittedIn, Option.elim_none, shown_nil]
  exact speaks

/-- Only lines that step or go on make the console pass on anything. -/
theorem Speaks.relays_of_bound {operation? : Option Operation} (speaks : console.Speaks next)
    (still : ∀ operation ∈ operation?, console.session.bound operation = 0) :
    console.Relays (console.shown (console.emittedIn operation?)) next := by
  cases operation? with
  | none => exact speaks.relays_of_none
  | some operation =>
      have emitted_eq : console.emittedIn (some operation) = [] :=
        Session.emittedBy_of_bound (still operation rfl)
      rw [emitted_eq, shown_nil]
      exact speaks

/-- Whether a command can ask for an operation; none reads the settings or clears the output. -/
def isCommanded : Operation → Bool
  | .reload _ | .clearOutput => false
  | .load _ _ | .run | .next _ _ | .resume _ | .jump _ | .discard | .queueInput _ => true

theorem isCommanded_fileOperation (read : Reader) (path : String) :
    isCommanded (fileOperation read path) = true := by
  rw [fileOperation]
  split <;> rfl

theorem isCommanded_of_line {read : Reader} {patience : Nat} {line : Command.Line}
    {operation : Operation} (asked : lineOperation? read patience line = some operation) :
    isCommanded operation = true := by
  cases line with
  | empty | unknown word => cases asked
  | call command argument? =>
      cases command with
      | help | quit | dataPointer | print | tape => cases asked
      | run | resume =>
          cases asked
          rfl
      | file =>
          cases argument? with
          | none => cases asked
          | some path =>
              cases asked
              exact isCommanded_fileOperation read path
      | next =>
          cases argument? with
          | none =>
              cases asked
              rfl
          | some text =>
              obtain ⟨count, _, rfl⟩ := Option.map_eq_some_iff.mp asked
              rfl
      | jump =>
          cases argument? with
          | none => cases asked
          | some text =>
              obtain ⟨index, _, rfl⟩ := Option.map_eq_some_iff.mp asked
              rfl
      | input =>
          cases argument? with
          | none => cases asked
          | some text =>
              cases asked
              rfl

theorem bound_fileOperation (session : Session) (read : Reader) (path : String) :
    session.bound (fileOperation read path) = 0 := by
  rw [fileOperation]
  split <;> rfl

theorem relays_perform {read : Reader} {patience : Nat} {command : Command}
    {argument? : Option String} {completion : Completion}
    (performed : console.perform patience read command argument? = some completion) :
    console.Relays
      (console.shown
        (console.emittedIn (lineOperation? read patience (.call command argument?))))
      completion.console := by
  cases command with
  | help =>
      cases performed
      exact (Speaks.silent.said (by decide +kernel)).relays_of_none
  | quit =>
      cases performed
      exact Speaks.silent.relays_of_none
  | file =>
      cases performed
      cases argument? with
      | none => exact (console.speaks_report _).relays_of_none
      | some path =>
          apply (console.speaks_loadFile read path).relays_of_bound
          rintro _ ⟨⟩
          exact bound_fileOperation _ read path
  | run =>
      cases performed
      apply console.speaks_startRun.relays_of_bound
      rintro _ ⟨⟩
      rfl
  | next =>
      obtain ⟨final, stepped, rfl⟩ := Option.map_eq_some_iff.mp performed
      exact relays_stepNext read stepped
  | jump =>
      cases performed
      apply (console.speaks_jumpTo argument?).relays_of_bound
      intro operation asked
      cases argument? with
      | none => cases asked
      | some text =>
          obtain ⟨index, _, rfl⟩ := Option.map_eq_some_iff.mp asked
          rfl
  | resume =>
      obtain ⟨final, resumed, rfl⟩ := Option.map_eq_some_iff.mp performed
      exact relays_resumeRun resumed
  | dataPointer =>
      cases performed
      exact console.speaks_showPointer.relays_of_none
  | print =>
      cases performed
      exact (console.speaks_showCell argument?).relays_of_none
  | tape =>
      cases performed
      exact console.speaks_showTape.relays_of_none
  | input =>
      cases performed
      apply (console.speaks_queueLine argument?).relays_of_bound
      intro operation asked
      cases argument? with
      | none => cases asked
      | some text =>
          cases asked
          rfl

/-- How a command answers notes at most what it has thrown. -/
theorem speaks_answer (completion : Completion) (command : Command) :
    completion.console.Speaks (completion.answer command).2 := by
  unfold Completion.answer
  split
  · exact .silent
  · split
    · exact Speaks.silent.noted _
    · exact .silent

/-- A line passes on what its operation writes, and nothing else of the program. -/
theorem relays_of_execute {read : Reader} {patience : Nat} {text : String}
    {answer : Except Thrown Bool}
    (executed : console.execute patience read text = some (answer, next)) :
    console.Relays
      (console.shown
        (console.emittedIn (lineOperation? read patience (Command.Line.parse text)))) next := by
  rw [execute] at executed
  cases parsed : Command.Line.parse text with
  | empty =>
      rw [parsed] at executed
      cases executed
      exact Speaks.silent.relays_of_none
  | unknown word =>
      rw [parsed] at executed
      cases executed
      exact (Speaks.silent.said (by simp [toString])).relays_of_none
  | call command argument? =>
      simp only [parsed] at executed
      obtain ⟨completion, performed, same⟩ := Option.map_eq_some_iff.mp executed
      have answers := speaks_answer completion command
      rw [same] at answers
      exact (relays_perform performed).speaks answers

theorem speaks_statusLine (console : Console) : console.Speaks console.statusLine.2 := by
  unfold statusLine
  split <;> exact Speaks.silent.closed

/-- Every action but the end of listening passes on what its operation writes, and speaks. -/
theorem relays_of_act {action : Action} (acted : console.act action = some next)
    (goesOn : action ≠ .dispose) :
    console.Relays (console.shown (console.emittedIn action.operation?)) next := by
  cases action with
  | direct operation =>
      obtain ⟨reply, performed, rfl⟩ := Option.map_eq_some_iff.mp acted
      exact relays_follow performed
  | line text read patience =>
      obtain ⟨⟨answer, final⟩, executed, rfl⟩ := Option.map_eq_some_iff.mp acted
      exact relays_of_execute executed
  | loadFile path read =>
      cases acted
      apply (console.speaks_loadFile read path).relays_of_bound
      rintro _ ⟨⟩
      exact bound_fileOperation _ read path
  | showStatus =>
      cases acted
      exact console.speaks_statusLine.relays_of_none
  | dispose => exact absurd rfl goesOn

end Console

end TapeDebugger
