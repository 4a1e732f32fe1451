import TapeDebugger.Proofs.Console.Troubles

/-!
# Without a run

A command about a run is told that there is none, whatever stands behind it, and nothing
else comes of it.  Two of them read a number first, for which they need no run: to step and
to print complain about an argument that is none before they look for a run, whereas to
jump looks for the run first.
-/

namespace TapeDebugger

open Command (Line)
open Session (Request UserError)

namespace Console

variable {console next : Console} {read : Reader} {patience : Nat} {line : String}
  {command : Command} {argument? : Option String} {error : UserError}

/-! ## What is told -/

/-- Whether a command is about a run that goes on. -/
def needsRun : Command → Bool
  | .next | .jump | .resume | .dataPointer | .print | .tape => true
  | .help | .quit | .file | .run | .input => false

/-- What is wrong with an argument that is read before a run is looked for. -/
inductive Misread : Command → Option String → UserError → Prop where
  | count {text : String} (malformed : Number.ofIntegerText? text = none) :
      Misread .next (some text) (.badCount text)
  | cell {text : String} (malformed : Number.ofIntegerText? text = none) :
      Misread .print (some text) (.badCellIndex text)

/-- Nothing comes of a line but a text, on a line of its own. -/
structure OnlySays (console : Console) (text : String) (next : Console) : Prop where
  session : next.session = console.session
  written : next.written.toList =
    console.written.toList ++ (if console.lineOpen then [.message "\n"] else []) ++ [outLine text]
  lineOpen : next.lineOpen = false
  listening : next.listening = console.listening

theorem onlySays_say (console : Console) (text : String) :
    console.OnlySays text (console.say text) where
  session := session_say console text
  written := by rw [say, emit, Array.toList_push, written_closeLine, outLine]
  lineOpen := console.lineOpen_closeLine
  listening := listening_say console text

theorem outLine_injective {one other : String} (same : outLine one = outLine other) :
    one = other := by
  have chars : one.toList ++ ['\n'] = other.toList ++ ['\n'] := by
    simpa [toString] using congrArg String.toList (Effect.message.inj same)
  exact String.toList_injective (List.append_cancel_right chars)

/-- What is said is read off what is written. -/
theorem OnlySays.text_eq {one other : String} (saysOne : console.OnlySays one next)
    (saysOther : console.OnlySays other next) : one = other := by
  have same := List.append_cancel_left (saysOne.written.symm.trans saysOther.written)
  exact outLine_injective (List.singleton_inj.mp same)

theorem Misread.unique {other : UserError} (one : Misread command argument? error)
    (another : Misread command argument? other) : other = error := by
  cases one <;> cases another <;> rfl

/-- Whoever is told about an argument is not told that there is no run. -/
theorem Misread.message_ne (misread : Misread command argument? error) :
    error.message ≠ UserError.notRunning.message := by
  -- the two messages do not end alike, whatever the argument is
  have suffix_of (text ending : String)
      (same : s!"{text}{ending}" = UserError.notRunning.message) :
      ending.toList <:+ UserError.notRunning.message.toList := by
    rw [← same]
    exact ⟨text.toList, by simp [toString]⟩
  cases misread with
  | @count text =>
      intro same
      have ends := suffix_of text ": Not a valid instruction count." same
      exact absurd ends (by decide)
  | @cell text =>
      intro same
      have ends := suffix_of text ": Not a valid cell index." same
      exact absurd ends (by decide)

/-! ## Commands -/

theorem perform_of_misread (misread : Misread command argument? error) :
    console.perform patience read command argument? =
      some (console.report error).done := by
  cases misread with
  | count malformed => simp only [perform, stepNext, malformed, Option.map_some]
  | cell malformed => simp only [perform, showCell, malformed]

/-- A number that is read, or none to read, lets a command look for its run. -/
theorem perform_of_idle (idle : console.session.status ≠ .running)
    (needed : needsRun command = true) (readable : ∀ error, ¬ Misread command argument? error) :
    console.perform patience read command argument? =
      some (console.report .notRunning).done := by
  have asking (request : Request) (about : request.needsRun = true)
      (asks : lineRequest? patience (.call command argument?) = some request) :
      console.perform patience read command argument? =
        some (console.report .notRunning).done :=
    perform_of_refused asks (Session.ask_of_idle about idle) rfl
  cases command with
  | help | quit | file | run | input => cases needed
  | resume => exact asking (.resume patience) rfl rfl
  | dataPointer => exact asking .dataPointer rfl rfl
  | tape => exact asking (.tapeWindow none) rfl rfl
  | jump => simp only [perform, jumpTo, Session.execution_of_idle idle]
  | next =>
      cases argument? with
      | none => exact asking (.next (.finite 1) patience) rfl rfl
      | some text =>
          cases counted : Number.ofIntegerText? text with
          | none => exact absurd (.count counted) (readable _)
          | some count =>
              exact asking (.next count patience) rfl (by rw [lineRequest?, counted]; rfl)
  | print =>
      cases argument? with
      | none => exact asking (.cell none) rfl rfl
      | some text =>
          cases indexed : Number.ofIntegerText? text with
          | none => exact absurd (.cell indexed) (readable _)
          | some index =>
              exact asking (.cell (some index)) rfl
                (by rw [lineRequest?, indexed]; rfl)

/-! ## Lines -/

theorem execute_of_perform (parsed : Line.parse line = .call command argument?)
    (needed : needsRun command = true)
    (performed : console.perform patience read command argument? = some next.done) :
    console.execute patience read line = some (.ok true, next) := by
  have goesOn : decide (command ≠ .quit) = true := by
    rw [decide_eq_true_eq]
    rintro rfl
    cases needed
  rw [execute, parsed]
  simp only [performed, Option.map_some, Completion.answer, done, goesOn]

/--
Without a run every line with a command about one is answered by one message and by nothing
else.  The message is that there is no run, but for an argument to step or to print that is
no integer, which is what is told then.
-/
theorem idle_line_is_told (idle : console.session.status ≠ .running)
    (parsed : Line.parse line = .call command argument?) (needed : needsRun command = true)
    (patience : Nat) (read : Reader) :
    ∃ next, console.execute patience read line = some (.ok true, next) ∧
      (∀ error, Misread command argument? error → console.OnlySays error.message next) ∧
      (console.OnlySays "The program is not being run." next ↔
        ∀ error, ¬ Misread command argument? error) := by
  by_cases misread : ∃ error, Misread command argument? error
  · obtain ⟨error, misread⟩ := misread
    have told : console.OnlySays error.message (console.report error) := console.onlySays_say _
    refine ⟨_, execute_of_perform parsed needed (perform_of_misread misread), ?_, ?_⟩
    · intro other otherwise
      rw [misread.unique otherwise]
      exact told
    · refine iff_of_false (fun asIdle => ?_) fun readable => readable error misread
      exact misread.message_ne (told.text_eq asIdle)
  · have readable := not_exists.mp misread
    exact ⟨_, execute_of_perform parsed needed (perform_of_idle idle needed readable),
      fun error misread => absurd misread (readable error),
      iff_of_true (console.onlySays_say _) readable⟩

/-- A run is given up from outside behind a byte of its program. -/
def givenUp : List Action :=
  [.direct (.load ".+" none), .line "run" noFile 0, .line "n" noFile 0, .direct .discard]

/-- The open line is ended first; to jump there needs no index, to print needs one. -/
theorem idle_line_is_told_behind_byte :
    ∃ console, (opened (.ofTexts [("interpreterTapeSize", "2")])).actAll givenUp = some console ∧
      console.lineOpen = true ∧ console.session.status = .loaded ∧
      (∃ next, console.execute 0 noFile "jump x" = some (.ok true, next) ∧
        console.OnlySays "The program is not being run." next) ∧
      ∃ next, console.execute 0 noFile "print +-1" = some (.ok true, next) ∧
        console.OnlySays "+-1: Not a valid cell index." next := by
  have facts : ((opened (.ofTexts [("interpreterTapeSize", "2")])).actAll givenUp).map
      (fun console => (console.lineOpen, console.session.status)) =
        some (true, .loaded) := by decide +kernel
  obtain ⟨console, acted, facts⟩ := Option.map_eq_some_iff.mp facts
  obtain ⟨lineOpen, status_eq⟩ := Prod.mk.inj facts
  have idle : console.session.status ≠ .running := by
    rw [status_eq]
    nofun
  have jump_parsed : Line.parse "jump x" = .call .jump (some "x") := by decide +kernel
  have print_parsed : Line.parse "print +-1" = .call .print (some "+-1") := by decide +kernel
  have malformed : Number.ofIntegerText? "+-1" = none := by decide +kernel
  refine ⟨console, acted, lineOpen, status_eq, ?_, ?_⟩
  · obtain ⟨next, executed, -, told⟩ := idle_line_is_told idle jump_parsed rfl 0 noFile
    exact ⟨next, executed, told.mpr nofun⟩
  · obtain ⟨next, executed, told, -⟩ := idle_line_is_told idle print_parsed rfl 0 noFile
    exact ⟨next, executed, told _ (.cell malformed)⟩

/-- Without a run it is the argument that printing complains about, if that is no integer. -/
theorem misread_index_hides_idle :
    (opened (.ofTexts [])).session.status = .unloaded ∧
      Line.parse "print x" = .call .print (some "x") ∧
      ∃ next, (opened (.ofTexts [])).execute 0 noFile "print x" = some (.ok true, next) ∧
        next.written.toList = [outLine "x: Not a valid cell index."] ∧
        ¬ (opened (.ofTexts [])).OnlySays "The program is not being run." next := by
  have parsed : Line.parse "print x" = .call .print (some "x") := by decide +kernel
  have malformed : Number.ofIntegerText? "x" = none := by decide +kernel
  have misread : Misread .print (some "x") (.badCellIndex "x") := .cell malformed
  have told := (opened (.ofTexts [])).onlySays_say (UserError.badCellIndex "x").message
  refine ⟨rfl, parsed, _, execute_of_perform parsed rfl (perform_of_misread misread), ?_, ?_⟩
  · exact told.written
  · exact fun asIdle => misread.message_ne (told.text_eq asIdle)

end Console

end TapeDebugger
