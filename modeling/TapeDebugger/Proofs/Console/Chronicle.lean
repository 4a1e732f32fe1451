import TapeDebugger.Proofs.Console.History
import TapeDebugger.Proofs.Machine.Frame
import TapeDebugger.Proofs.Session.Starting

/-!
# What a session remembers

A chronicle follows what is asked for and forgets nothing that a later state can
depend on: the settings, the last source that was to be loaded, and the settings
under which the last run was started.  However a session has come about, its
program, its name and the sizes of its tape are those that the chronicle tells.
-/

namespace TapeDebugger

open Machine (Tape)

namespace Session

variable {session : Session} {operation : Operation} {reply : Reply Unit}

/-! ## Chronicles -/

/-- A source that was given to be loaded, with its name and the settings in force then. -/
structure Loading where
  source : String
  sourceName? : Option String
  settings : Settings

/-- The program of a source under the limits that were set, if it compiles. -/
def Loading.program? (loading : Loading) : Option Program :=
  (Program.compile loading.settings.limits loading.source).toOption

/-- What is in force, what was to be loaded last, and the settings of the last start. -/
structure Chronicle where
  settings : Settings
  loading? : Option Loading := none
  started? : Option Settings := none

namespace Chronicle

def program? (chronicle : Chronicle) : Option Program :=
  chronicle.loading?.bind Loading.program?

/-- A run can start if there is a program, and a tape as long as it is set. -/
def canStart (chronicle : Chronicle) : Bool :=
  chronicle.program?.isSome && decide (chronicle.settings.tapeSize ≤ Tape.maxLength)

/-- The chronicle with one more operation. -/
def add (chronicle : Chronicle) : Operation → Chronicle
  | .load source sourceName? =>
      { chronicle with loading? := some ⟨source, sourceName?, chronicle.settings⟩ }
  | .run =>
      if chronicle.canStart then { chronicle with started? := some chronicle.settings }
      else chronicle
  | .reload storage => { chronicle with settings := (Settings.load storage).value }
  | .next _ _ | .resume _ | .jump _ | .discard | .queueInput _ | .clearOutput => chronicle

/-- The chronicle of a row of operations on a new session. -/
def ofOperations (storage : Settings.Storage) (operations : List Operation) : Chronicle :=
  operations.foldl add { settings := (Settings.load storage).value }

/-- The session has kept what the chronicle tells. -/
structure Remembered (chronicle : Chronicle) (session : Session) : Prop where
  settings : session.settings = chronicle.settings
  program : session.state.program? = chronicle.loading?.bind Loading.program?
  sourceName : session.sourceName? = chronicle.loading?.bind Loading.sourceName?
  sizes : ∀ runtime, session.state.runtime? = some runtime →
    ∃ settings, chronicle.started? = some settings ∧
      runtime.tape.length = settings.tapeSize ∧ runtime.tape.cellSize = settings.cellSize

end Chronicle

/-! ## What a chronicle tells -/

namespace Chronicle

variable {chronicle : Chronicle}

theorem canStart_iff :
    chronicle.canStart = true ↔
      chronicle.program?.isSome ∧ chronicle.settings.tapeSize ≤ Tape.maxLength := by
  rw [canStart, Bool.and_eq_true, decide_eq_true_iff]

namespace Remembered

/-- A session starts exactly if the chronicle says that it can. -/
theorem starts_iff (remembered : chronicle.Remembered session) :
    (∃ runtime, session.run.answer = .ok runtime) ↔ chronicle.canStart = true := by
  have program_eq : session.phase.program? = chronicle.program? := remembered.program
  rw [canStart_iff, ← program_eq, ← remembered.settings]
  cases present : session.phase.program? with
  | none =>
      rw [(run_of_no_program present).1]
      simp
  | some program =>
      by_cases fits : session.settings.tapeSize ≤ Tape.maxLength
      · rw [(session.run_of_program present fits).1]
        simp [fits]
      · rw [(run_of_too_long present fits).1]
        simp [fits]

/-! ### Operations -/

theorem start (storage : Settings.Storage) :
    (ofOperations storage []).Remembered (Session.start storage) :=
  ⟨rfl, rfl, rfl, nofun⟩

/-- What the chronicle does not tell of may change, if the tape keeps its sizes. -/
theorem of_same {next : Session} (remembered : chronicle.Remembered session)
    (settings : next.settings = session.settings)
    (program : next.phase.program? = session.phase.program?)
    (sourceName : next.sourceName? = session.sourceName?)
    (sizes : ∀ runtime, next.phase.runtime? = some runtime →
      ∃ before, session.phase.runtime? = some before ∧ runtime.tape.sizes = before.tape.sizes) :
    chronicle.Remembered next := by
  refine ⟨settings.trans remembered.settings, program.trans remembered.program,
    sourceName.trans remembered.sourceName, ?_⟩
  intro runtime present
  obtain ⟨before, presentBefore, same⟩ := sizes runtime present
  obtain ⟨cellSize_eq, length_eq⟩ := Prod.mk.inj same
  obtain ⟨settings, started, length, cellSize⟩ := remembered.sizes before presentBefore
  exact ⟨settings, started, length_eq.trans length, cellSize_eq.trans cellSize⟩

theorem stop (remembered : chronicle.Remembered session) : chronicle.Remembered session.stop := by
  refine remembered.of_same rfl session.program?_stop rfl ?_
  intro runtime present
  rw [Session.stop, mapRuntime, Phase.runtime?_mapRuntime] at present
  obtain ⟨before, presentBefore, rfl⟩ := Option.map_eq_some_iff.mp present
  exact ⟨before, presentBefore, rfl⟩

theorem run (remembered : chronicle.Remembered session) :
    (chronicle.add .run).Remembered session.run.session := by
  have starts_iff := remembered.starts_iff
  rw [add]
  cases present : session.phase.program? with
  | none =>
      obtain ⟨answer_eq, session_eq⟩ := run_of_no_program present
      rw [answer_eq] at starts_iff
      rw [if_neg (by simp [← starts_iff]), session_eq]
      exact remembered
  | some program =>
      by_cases fits : session.settings.tapeSize ≤ Tape.maxLength
      · obtain ⟨answer_eq, session_eq⟩ := session.run_of_program present fits
        rw [answer_eq] at starts_iff
        rw [if_pos (by simp [← starts_iff]), session_eq]
        refine ⟨remembered.settings, present.symm.trans remembered.program,
          remembered.sourceName, ?_⟩
        intro runtime current
        cases current
        refine ⟨_, rfl, ?_, ?_⟩
        · rw [Tape.length_blank, remembered.settings]
        · exact congrArg Settings.cellSize remembered.settings
      · obtain ⟨answer_eq, session_eq⟩ := run_of_too_long present fits
        rw [answer_eq] at starts_iff
        rw [if_neg (by simp [← starts_iff]), session_eq]
        exact remembered.stop

theorem perform (remembered : chronicle.Remembered session)
    (performed : session.perform operation = some reply) :
    (chronicle.add operation).Remembered reply.session := by
  by_cases isRun : operation = .run
  · subst isRun
    cases performed
    exact remembered.run
  have performs := performs_of_perform performed
  generalize reply.session = next, reply.events = events at performs ⊢
  cases performs with
  | refused request =>
      cases operation with
      | run => exact absurd rfl isRun
      | next | resume | jump => exact remembered
      | load | discard | reload | queueInput | clearOutput => cases request
  | @loadFailed source sourceName? error notCompiled =>
      refine ⟨remembered.settings, ?_, rfl, nofun⟩
      simp only [add, Option.bind_some, Loading.program?, ← remembered.settings, notCompiled]
      rfl
  | @loaded source sourceName? program compiled =>
      refine ⟨remembered.settings, ?_, rfl, nofun⟩
      simp only [add, Option.bind_some, Loading.program?, ← remembered.settings, compiled]
      rfl
  | notStarted | started => exact absurd rfl isRun
  | @paused _ program before count machine goesOn running ran
  | @halted _ program before count machine halt goesOn running ran =>
      have same : chronicle.add operation = chronicle := by
        cases operation with
        | next | resume => rfl
        | load | run | jump | discard | reload | queueInput | clearOutput => cases goesOn
      have sizes := Machine.sizes_run ⟨before, session.channel⟩ program session.eofValue count
      rw [same]
      refine remembered.of_same rfl (congrArg Phase.program? running).symm rfl ?_
      intro runtime current
      cases current
      rw [ran] at sizes
      exact ⟨before, congrArg Phase.runtime? running, sizes⟩
  | @jumped index? program before pc running inside =>
      refine remembered.of_same rfl (congrArg Phase.program? running).symm rfl ?_
      intro runtime current
      cases current
      exact ⟨before, congrArg Phase.runtime? running, rfl⟩
  | discarded =>
      refine remembered.of_same rfl session.program?_retire rfl ?_
      intro runtime current
      cases (Phase.runtime?_withoutRuntime _).symm.trans current
  | reloaded storage => exact ⟨rfl, remembered.program, remembered.sourceName, remembered.sizes⟩
  | queued | cleared =>
      exact remembered.of_same rfl rfl rfl fun runtime current => ⟨runtime, current, rfl⟩

end Remembered

end Chronicle

/-! ## Files that cannot be read -/

/-- The session has lost its run and kept all else; so its program can be run again. -/
structure DropsRun (before after : Session) : Prop where
  settings : after.settings = before.settings
  channel : after.channel = before.channel
  program : after.state.program? = before.state.program?
  sourceName : after.sourceName? = before.sourceName?
  runtime : after.state.runtime? = none
  status : after.state.status = if before.state.program?.isSome then .loaded else .unloaded
  again : ∀ program, before.state.program? = some program →
    before.settings.tapeSize ≤ Tape.maxLength →
      ∃ runtime, after.run.answer = .ok runtime ∧ after.run.session.phase = .running program runtime

theorem dropsRun_retire (session : Session) : session.DropsRun session.retire where
  settings := rfl
  channel := rfl
  program := session.program?_retire
  sourceName := rfl
  runtime := Phase.runtime?_withoutRuntime _
  status := session.status_retire
  again := by
    intro program present fits
    obtain ⟨answer_eq, session_eq⟩ :=
      session.retire.run_of_program (session.program?_retire.trans present) fits
    exact ⟨_, answer_eq, congrArg Session.phase session_eq⟩

end Session

namespace Console

open Session (Chronicle)

/-- The chronicle of what a row of actions on a new console comes to. -/
def chronicle (storage : Settings.Storage) (actions : List Action) : Chronicle :=
  .ofOperations storage (actions.filterMap Action.operation?)

theorem remembered_of_actAll {storage : Settings.Storage} {actions : List Action}
    {console : Console} (acted : (opened storage).actAll actions = some console) :
    (chronicle storage actions).Remembered console.session := by
  have start : (Chronicle.ofOperations storage []).Remembered (opened storage).session :=
    .start storage
  rw [chronicle, ← map_operation_steps acted]
  apply actAll_induction (motive := fun done session =>
    (Chronicle.ofOperations storage (done.map Prod.snd)).Remembered session) _ _ start acted
  · intro done session operation reply remembered performed
    rw [List.map_append, Chronicle.ofOperations, List.foldl_append]
    exact remembered.perform performed
  · intro done session remembered
    exact remembered.of_same rfl rfl rfl fun runtime current => ⟨runtime, current, rfl⟩

/--
A line that names a file that cannot be read ends the run, and the console goes on if what is
thrown for the file can be put into words.
-/
theorem execute_of_unreadable (console : Console) {read : Reader} {line path : String}
    {thrown : Thrown} (patience : Nat)
    (asked : Command.Line.parse line = .call .file (some path))
    (unreadable : read path = .error thrown) :
    ∃ answer next, console.execute patience read line = some (answer, next) ∧
      (∀ text, thrown.fileText = .ok text → answer = .ok true) ∧
      next.session = console.session.retire := by
  have executed : console.execute patience read line =
      some ((console.loadFile read path).answer .file) := by
    rw [execute, asked]
    rfl
  have session_eq := session_answer (console.loadFile read path) .file
  refine ⟨_, _, executed, ?_, session_eq.trans ?_⟩
  · intro text worded
    simp only [loadFile, unreadable, worded]
    rfl
  · have affects := console.affects_loadFile read path
    rw [fileOperation, unreadable] at affects
    generalize (console.loadFile read path).console.session = after at affects ⊢
    cases affects with
    | performed performed =>
        cases performed
        exact heard_of_silent rfl

/--
However a session has come about, also by lines that were executed at a console,
it has kept what the chronicle of all this tells, and it starts its program exactly
if the chronicle says so.  A file that cannot be read only drops the run.
-/
theorem session_remembers_history {storage : Settings.Storage} {actions : List Action}
    {console : Console} (acted : (opened storage).actAll actions = some console) :
    (chronicle storage actions).Remembered console.session ∧
      ((∃ runtime, console.session.run.answer = .ok runtime) ↔
        (chronicle storage actions).canStart = true) ∧
      ∀ (line path : String) (read : Reader) (patience : Nat) (thrown : Thrown),
        Command.Line.parse line = .call .file (some path) → read path = .error thrown →
          ∃ answer next, console.execute patience read line = some (answer, next) ∧
            (∀ text, thrown.fileText = .ok text → answer = .ok true) ∧
            console.session.DropsRun next.session := by
  have remembered := remembered_of_actAll acted
  refine ⟨remembered, remembered.starts_iff, ?_⟩
  intro line path read patience thrown asked unreadable
  obtain ⟨answer, next, executed, answered, session_eq⟩ :=
    console.execute_of_unreadable patience asked unreadable
  exact ⟨answer, next, executed, answered, session_eq ▸ console.session.dropsRun_retire⟩

/-- A reader that knows a single file. -/
def oneFile : Reader
  | "loop.b" => .ok "+[>+]"
  | path => noFile path

/-- A history in which the program is kept through a file that is missing and a new tape size. -/
def remembering : List Action :=
  [.line "file loop.b" oneFile 0, .line "run" oneFile 0,
    .direct (.reload (.ofTexts [("interpreterTapeSize", "3"), ("compilerProgramSize", "2")])),
    .line "f other.b" oneFile 0, .line "r" oneFile 0,
    .direct (.reload (.ofTexts [("interpreterTapeSize", "5")])), .line "next 2" oneFile 0]

/-- The tape is as long as it was set at the last start, and the limits are those of the load. -/
theorem session_remembers_one_file :
    ∃ console, (opened (.ofTexts [("interpreterTapeSize", "2")])).actAll remembering =
        some console ∧
      (chronicle (.ofTexts [("interpreterTapeSize", "2")]) remembering).Remembered
        console.session ∧
      console.session.sourceName? = some "loop.b" ∧
      console.session.state.program?.map Program.count = some 6 ∧
      console.session.state.runtime?.map (fun runtime => runtime.tape.length) = some 3 ∧
      console.session.settings.tapeSize = 5 ∧
      ∃ next, console.execute 0 oneFile "f other.b" = some (.ok true, next) ∧
        console.session.DropsRun next.session := by
  have facts : ((opened (.ofTexts [("interpreterTapeSize", "2")])).actAll remembering).map
      (fun console => (console.session.sourceName?,
        console.session.state.program?.map Program.count,
        console.session.state.runtime?.map (fun runtime => runtime.tape.length),
        console.session.settings.tapeSize)) =
      some (some "loop.b", some 6, some 3, 5) := by decide +kernel
  obtain ⟨console, acted, facts⟩ := Option.map_eq_some_iff.mp facts
  obtain ⟨sourceName_eq, facts⟩ := Prod.mk.inj facts
  obtain ⟨count_eq, facts⟩ := Prod.mk.inj facts
  obtain ⟨length_eq, tapeSize_eq⟩ := Prod.mk.inj facts
  obtain ⟨remembered, -, unreadable⟩ := session_remembers_history acted
  obtain ⟨answer, next, executed, answered, drops⟩ :=
    unreadable "f other.b" "other.b" oneFile 0 _ (by decide +kernel) rfl
  cases answered _ rfl
  exact ⟨console, acted, remembered, sourceName_eq, count_eq, length_eq, tapeSize_eq, next,
    executed, drops⟩

end Console

end TapeDebugger
