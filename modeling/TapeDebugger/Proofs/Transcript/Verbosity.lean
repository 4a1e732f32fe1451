import TapeDebugger.Main
import TapeDebugger.Proofs.Console.Verbosity
import TapeDebugger.Proofs.Transcript.Causality

/-!
# Verbosity

Two settings files that differ in nothing but whether the whole log is to be shown lead
to transcripts that differ in nothing but the entries of the log that are not urgent: on
the stream of errors they stand between the others, or they do not.  This is so as
long as the files that are loaded as programs are the same; a settings file is none.
-/

namespace TapeDebugger

open Console (Effect)

namespace Console

variable {read other : Reader} {line : String}

theorem loadFile_congr (console : Console) {path : String} (same : read path = other path) :
    console.loadFile read path = console.loadFile other path := by
  simp only [loadFile, same]

/-- Of all files a line bears only on the one that it asks for. -/
theorem execute_congr (console : Console) (patience : Nat)
    (same : ∀ path ∈ CommandLine.fileOf? line, read path = other path) :
    console.execute patience read line = console.execute patience other line := by
  unfold CommandLine.fileOf? at same
  unfold execute
  cases parsed : Command.Line.parse line with
  | empty => rfl
  | unknown word => rfl
  | call command argument? =>
      cases command with
      | file =>
          cases argument? with
          | none => rfl
          | some path =>
              rw [parsed] at same
              simp only [perform, useFile, console.loadFile_congr (same path rfl)]
      | help | quit | run | next | jump | resume | dataPointer | print | tape | input => rfl

end Console

namespace Transcript

variable {files other : Files} {lines : List String} {line : String} {arguments : List String}
  {console next final final' : Console} {code code' : UInt32} {goesOn verbose : Bool}

/-! ## Transcripts -/

theorem ask_withVerbose (console : Console) (verbose : Bool) :
    ask (console.withVerbose verbose) = (ask console).withVerbose verbose := by
  simp only [ask, Console.statusLine, Console.session_withVerbose,
    Session.currentInstruction_withVerbose, Console.closeLine_withVerbose]
  cases console.session.currentInstruction <;> rfl

theorem reader_congr {path : String} (same : files path = other path) :
    files.reader path = other.reader path :=
  congrArg (Except.mapError FileError.thrown) same

theorem Answers.withVerbose (answered : Answers files console line goesOn next) (verbose : Bool)
    (same : ∀ path ∈ CommandLine.fileOf? line, files path = other path) :
    Answers other (console.withVerbose verbose) line goesOn (next.withVerbose verbose) := by
  obtain ⟨patience, executed⟩ := answered.executed
  refine ⟨patience, ?_⟩
  rw [exchange, ask_withVerbose, Console.emit_withVerbose, Console.execute_withVerbose,
    ← Console.execute_congr _ patience fun path asked => reader_congr (same path asked), executed]
  rfl

/-! ## Files that are loaded -/

/-- The files that lines ask for before one that quits. -/
def filesOf (lines : List String) : List String :=
  (lines.takeWhile fun line => !Console.quits line).filterMap CommandLine.fileOf?

/-- A file is asked for by the first line, unless that quits, or by the others. -/
theorem mem_filesOf_cons {path : String} {rest : List String}
    (goesOn : Console.quits line = false) :
    path ∈ filesOf (line :: rest) ↔ path ∈ CommandLine.fileOf? line ∨ path ∈ filesOf rest := by
  rw [filesOf, List.takeWhile_cons, if_pos (by rw [goesOn]; rfl), List.filterMap_cons, filesOf]
  cases CommandLine.fileOf? line with
  | none => simp
  | some file => simp [eq_comm]

/-- A line that quits asks for no file. -/
theorem fileOf?_of_quits (quits : Console.quits line = true) : CommandLine.fileOf? line = none := by
  unfold Console.quits at quits
  unfold CommandLine.fileOf?
  cases parsed : Command.Line.parse line with
  | empty => rfl
  | unknown word => rfl
  | call command argument? =>
      rw [parsed] at quits
      cases command with
      | quit => rfl
      | file | help | run | next | jump | resume | dataPointer | print | tape | input => cases quits

/-! ## Transcripts -/

theorem opening_withVerbose (console : Console) (verbose : Bool)
    (same : ∀ path ∈ arguments.head?, files path = other path) :
    opening (console.withVerbose verbose) other arguments =
      (opening console files arguments).withVerbose verbose := by
  cases arguments with
  | nil => rfl
  | cons path rest =>
      rw [opening, Console.loadFile_withVerbose, opening,
        Console.loadFile_congr _ (reader_congr (same path rfl))]
      rfl

namespace Concludes

theorem withVerbose (concludes : Concludes files lines console code final) (verbose : Bool)
    (same : ∀ path ∈ filesOf lines, files path = other path) :
    Concludes other lines (console.withVerbose verbose) code (final.withVerbose verbose) := by
  induction concludes with
  | stuck missing => exact .stuck missing
  | ended asks =>
      rw [← ask_withVerbose]
      exact .ended asks
  | wentOn asks answered others ih =>
      have unquit : Console.quits _ = false := Bool.not_eq_true' _ ▸ answered.goesOn_eq.symm
      have sameLine := answered.withVerbose verbose fun path asked =>
        same path ((mem_filesOf_cons unquit).mpr (.inl asked))
      refine .wentOn asks sameLine (ih fun path asked => ?_)
      exact same path ((mem_filesOf_cons unquit).mpr (.inr asked))
  | quit asks answered =>
      have none_eq := fileOf?_of_quits (Bool.not_eq_false' _ ▸ answered.goesOn_eq.symm)
      refine .quit asks (answered.withVerbose verbose ?_)
      rw [none_eq]
      nofun

/-- A transcript ends in one way at most. -/
theorem unique (concludes : Concludes files lines console code final)
    (concludes' : Concludes files lines console code' final') : final = final' := by
  induction concludes with
  | stuck missing => exact (concludes'.of_stuck missing).symm
  | ended asks =>
      cases concludes' with
      | stuck missing =>
          rw [asks] at missing
          cases missing
      | ended => rfl
  | wentOn asks answered others ih => exact ih (concludes'.of_wentOn asks answered)
  | quit asks answered => exact (concludes'.of_quit asks answered).symm

end Concludes

/-! ## Streams -/

/-- Whether an effect is an entry of the log that is shown only when asked for. -/
def isChatter : Effect → Bool
  | .noted entry => entry.level = .debug ∨ entry.level = .info
  | .message _ | .errorMessage _ | .programByte _ => false

/-- Without being asked for, all is shown but the entries that are not urgent. -/
theorem errBytes_quiet (effect : Effect) :
    errBytes false effect = if isChatter effect then [] else errBytes true effect := by
  cases effect with
  | message | errorMessage | programByte => rfl
  | noted entry =>
      obtain ⟨level, message⟩ := entry
      cases level <;> rfl

theorem flatMap_errBytes_quiet (effects : List Effect) :
    effects.flatMap (errBytes false) =
      (effects.filter fun effect => !isChatter effect).flatMap (errBytes true) := by
  induction effects with
  | nil => rfl
  | cons effect rest ih =>
      rw [List.flatMap_cons, errBytes_quiet, ih, List.filter_cons]
      cases isChatter effect <;> rfl

/-! ## Whole programs -/

/-- A console is started under the settings of an object, wherever it is kept. -/
theorem start_of_object {text : String} {members : Json.Members}
    (parsed : Json.parse text = .ok (.object members)) (settingsPath : String) :
    start settingsPath (some text) =
      { session := { settings := (Settings.load (.ofMembers members)).value }
        written := earlyNotes (Settings.load (.ofMembers members)).entries } := by
  simp only [start, Settings.Storage.ofFile_of_object settingsPath parsed, Logged.value_bind,
    Logged.entries_bind, Logged.value_pure, Logged.entries_pure, List.nil_append]

/-- Settings files that differ in whether the whole log is to be shown start the same console. -/
theorem start_withVerbose {text otherText : String} {members otherMembers : Json.Members}
    {otherVerbose : Bool} (parsed : Json.parse text = .ok (.object members))
    (otherParsed : Json.parse otherText = .ok (.object otherMembers))
    (differ : Settings.DifferInVerbose members otherMembers verbose otherVerbose)
    (settingsPath otherPath : String) :
    start otherPath (some otherText) =
      (start settingsPath (some text)).withVerbose otherVerbose := by
  rw [start_of_object otherParsed, start_of_object parsed, differ.load_eq]
  rfl

/-- The files that are loaded as programs: the one named first, and those that lines ask for. -/
def programFiles (arguments : List String) (input : List UInt8) : List String :=
  arguments.head?.toList ++ filesOf (Text.inputLines input)

section TwoRuns

variable {loudText quietText loudPath quietPath : String} {members quietMembers : Json.Members}
  {input : List UInt8} {loud quiet : Exit}

/-- What is asked for of the whole log is still so when the first program is loaded. -/
theorem verbose_opening {text : String} (parsed : Json.parse text = .ok (.object members))
    (found : Json.member? members Settings.Key.verbose.name = some (.bool verbose))
    (settingsPath : String) (files : Files) (arguments : List String) :
    (opening (start settingsPath (some text)) files arguments).session.settings.verbose =
      verbose := by
  have start_eq := start_withVerbose parsed parsed ⟨found, found, fun _ _ => rfl⟩ settingsPath
    settingsPath
  rw [start_eq, opening_withVerbose _ verbose fun _ _ => rfl]
  rfl

/--
Two runs under settings that differ in whether the whole log is shown, in which the same
programs are loaded, hand out the same effects.  So they end with the same code and the
same output, and of the two streams of errors the quiet one is the other without the
entries of the log that are not urgent.
-/
theorem verbosity_does_not_interfere (parsed : Json.parse loudText = .ok (.object members))
    (quietParsed : Json.parse quietText = .ok (.object quietMembers))
    (differ : Settings.DifferInVerbose members quietMembers true false)
    (same : ∀ path ∈ programFiles arguments input, files path = other path)
    (finishes : Finishes loudPath (some loudText) arguments files input loud)
    (quietFinishes : Finishes quietPath (some quietText) arguments other input quiet) :
    quiet.streams.out = loud.streams.out ∧ quiet.code = loud.code ∧
      ∃ code final, Concludes files (Text.inputLines input)
          (opening (start loudPath (some loudText)) files arguments) code final ∧
        loud.streams.err = final.written.toList.flatMap (errBytes true) ∧
        quiet.streams.err =
          (final.written.toList.filter fun effect => !isChatter effect).flatMap
            (errBytes true) := by
  obtain ⟨code, final, concludes, streamed⟩ := finishes.concludes
  obtain ⟨quietCode, quietFinal, quietConcludes, quietStreamed⟩ := quietFinishes.concludes
  rw [verbose_opening parsed differ.verbose] at streamed
  rw [verbose_opening quietParsed differ.otherVerbose] at quietStreamed
  have opening_eq : opening (start quietPath (some quietText)) other arguments =
      (opening (start loudPath (some loudText)) files arguments).withVerbose false := by
    rw [start_withVerbose parsed quietParsed differ loudPath quietPath]
    exact opening_withVerbose _ false fun path named =>
      same path (List.mem_append_left _ (Option.mem_toList.mpr named))
  have sameConcludes := concludes.withVerbose false fun path asked =>
    same path (List.mem_append_right _ asked)
  rw [← opening_eq] at sameConcludes
  have written_eq : quietFinal.written = final.written := by
    rw [quietConcludes.unique sameConcludes, Console.written_withVerbose]
  rw [streamed, quietStreamed, written_eq]
  refine ⟨rfl, quietFinishes.code_eq.trans finishes.code_eq.symm, code, final, concludes, rfl, ?_⟩
  exact flatMap_errBytes_quiet final.written.toList

end TwoRuns

/-! ## Loud and quiet runs -/

/-- A settings file that is no program: its last bracket closes no loop. -/
def settingsText (verbose : Bool) : String :=
  if verbose then "\x7b\"developmentVerbose\":true,\"x\":\"]\"\x7d"
  else "\x7b\"developmentVerbose\":false,\"x\":\"]\"\x7d"

/-- The members of the settings file. -/
def settingsMembers (verbose : Bool) : Json.Members :=
  [(Text.utf16 Settings.Key.verbose.name, .bool verbose), (Text.utf16 "x", .string [93])]

theorem ofMembers_settingsMembers (verbose : Bool) :
    Json.ofMembers (settingsMembers verbose) = .object (settingsMembers verbose) := by
  have names : Json.arrayIndex? (Text.utf16 Settings.Key.verbose.name) = none ∧
      Json.arrayIndex? (Text.utf16 "x") = none ∧
      Text.utf16 Settings.Key.verbose.name ≠ Text.utf16 "x" := by decide +kernel
  simp [Json.ofMembers, settingsMembers, Json.putMember, Json.canonical, names]

theorem parse_settingsText (verbose : Bool) :
    Json.parse (settingsText verbose) = .ok (.object (settingsMembers verbose)) := by
  rw [← ofMembers_settingsMembers]
  cases verbose <;>
    simp [settingsText, settingsMembers, Settings.Key.verbose, Json.parse, Json.readText,
      Json.readValue, Json.readMembers, Json.readString, Json.readUnits, Json.readWord,
      Json.skipSpaces, Json.isSpace, Json.pushChar, Text.unitsOf, Text.utf16, Text.unitsOfChars,
      bind, Except.bind, pure, Except.pure]

theorem settingsMembers_differ :
    Settings.DifferInVerbose (settingsMembers true) (settingsMembers false) true false :=
  Settings.differInVerbose_cons _ true false

/-- Two programs, the first of which does not compile. -/
def twoPrograms : Files
  | "open.b" => .ok "["
  | "plus.b" => .ok "+"
  | _ => .error .missing

/-- How the two programs are loaded, with the whole log or without. -/
def loading (verbose : Bool) : Option Exit :=
  process "t.json" (some (settingsText verbose)) ["open.b"] twoPrograms 0
    (Text.utf8 "file plus.b\n")

/-- An error stays where it was when the entries of the log around it are not shown. -/
theorem verbosity_does_not_interfere_with_loading :
    ∃ loud quiet, loading true = some loud ∧ loading false = some quiet ∧
      quiet.streams.out = loud.streams.out ∧ quiet.code = loud.code ∧
      loud.streams.err =
        Text.utf8 ("[debug] Compilation of open.b failed: unmatched_open\n" ++
          "error: unmatched '[' at 1:1.\n" ++ "[debug] Compiled plus.b: 2 instructions\n") ∧
      quiet.streams.err = Text.utf8 "error: unmatched '[' at 1:1.\n" := by
  have loud_err : (loading true).map (fun exit => exit.streams.err) = some (Text.utf8
      ("[debug] Compilation of open.b failed: unmatched_open\n" ++
        "error: unmatched '[' at 1:1.\n" ++ "[debug] Compiled plus.b: 2 instructions\n")) := by
    decide +kernel
  have quiet_err : (loading false).map (fun exit => exit.streams.err) =
      some (Text.utf8 "error: unmatched '[' at 1:1.\n") := by
    decide +kernel
  obtain ⟨loud, loud_eq, loud_err⟩ := Option.map_eq_some_iff.mp loud_err
  obtain ⟨quiet, quiet_eq, quiet_err⟩ := Option.map_eq_some_iff.mp quiet_err
  obtain ⟨out_eq, code_eq, -⟩ := verbosity_does_not_interfere (parse_settingsText true)
    (parse_settingsText false) settingsMembers_differ (fun _ _ => rfl) ⟨0, loud_eq⟩ ⟨0, quiet_eq⟩
  exact ⟨loud, quiet, loud_eq, quiet_eq, out_eq, code_eq, loud_err, quiet_err⟩

/-- How a settings file is loaded as a program. -/
def loadingItself (verbose : Bool) : Option Exit :=
  process Settings.fileName (some (settingsText verbose)) [Settings.fileName]
    (fun _ => .ok (settingsText verbose)) 0 []

/-- Settings files that are loaded as programs are two programs, with errors in two places. -/
theorem verbosity_interferes_with_own_text :
    Json.parse (settingsText true) = .ok (.object (settingsMembers true)) ∧
      Json.parse (settingsText false) = .ok (.object (settingsMembers false)) ∧
      Settings.DifferInVerbose (settingsMembers true) (settingsMembers false) true false ∧
      ∃ loud quiet, loadingItself true = some loud ∧ loadingItself false = some quiet ∧
        loud.streams.err =
          Text.utf8 ("[debug] Compilation of .tapedbrc.json failed: unmatched_close\n" ++
            "error: unmatched ']' at 1:33.\n") ∧
        quiet.streams.err ≠ Text.utf8 "error: unmatched ']' at 1:33.\n" := by
  refine ⟨parse_settingsText true, parse_settingsText false, settingsMembers_differ, ?_⟩
  have loud_err : (loadingItself true).map (fun exit => exit.streams.err) = some (Text.utf8
      ("[debug] Compilation of .tapedbrc.json failed: unmatched_close\n" ++
        "error: unmatched ']' at 1:33.\n")) := by
    decide +kernel
  have quiet_err : (loadingItself false).map (fun exit => exit.streams.err) =
      some (Text.utf8 "error: unmatched ']' at 1:34.\n") := by
    decide +kernel
  obtain ⟨loud, loud_eq, loud_err⟩ := Option.map_eq_some_iff.mp loud_err
  obtain ⟨quiet, quiet_eq, quiet_err⟩ := Option.map_eq_some_iff.mp quiet_err
  refine ⟨loud, quiet, loud_eq, quiet_eq, loud_err, ?_⟩
  rw [quiet_err]
  decide +kernel

end Transcript

end TapeDebugger
