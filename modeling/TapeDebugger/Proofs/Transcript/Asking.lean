import TapeDebugger.Proofs.Console.FreshLines
import TapeDebugger.Proofs.Console.Output
import TapeDebugger.Proofs.Console.Patience
import TapeDebugger.Proofs.Console.Throwing
import TapeDebugger.Proofs.Session.Invariant
import TapeDebugger.Transcript

/-!
# Asking for lines

A transcript goes on from one line that is asked for to the next.  What was handed out
before a line stays in front of all that comes of it, the settings stay the same, and
the session stays sound, so that there always is an instruction to show while it runs.
-/

namespace TapeDebugger

open Console (Effect)

/-! ## What commands keep -/

namespace Console

variable {console : Console} {operation? : Option Session.Operation} {session : Session}

/-- No command changes the settings. -/
theorem Affects.settings (affects : console.Affects operation? session)
    (commanded : ∀ operation ∈ operation?, isCommanded operation = true) :
    session.settings = console.session.settings := by
  cases affects with
  | nothing => rfl
  | @performed operation reply performed =>
      have heard_eq : (heard console.listening reply).settings = reply.session.settings := by
        unfold heard
        split <;> rfl
      have performs := Session.performs_of_perform performed
      have commanded := commanded operation rfl
      rw [heard_eq]
      generalize reply.session = next, reply.events = events at performs
      cases performs with
      | reloaded | cleared => cases commanded
      | refused | loadFailed | loaded | notStarted | started | paused | halted | jumped
      | discarded | queued => rfl

theorem Affects.sound (affects : console.Affects operation? session)
    (sound : console.session.Sound) : session.Sound := by
  cases affects with
  | nothing => exact sound
  | performed performed =>
      have kept := sound.performs (Session.performs_of_perform performed)
      unfold heard
      split
      · exact kept.performs .cleared
      · exact kept

end Console

/-! ## Lines that are asked for -/

namespace Transcript

/-- What comes of asking for a line and executing it, however long it takes. -/
def Answers (files : Files) (console : Console) (line : String) (goesOn : Bool)
    (next : Console) : Prop :=
  ∃ patience, exchange console patience files line = some (.ok goesOn, next)

/-- How a transcript ends that asks for these lines. -/
inductive Concludes (files : Files) : List String → Console → UInt32 → Console → Prop where
  | stuck {lines : List String} {console : Console} (missing : canAsk console = false) :
      Concludes files lines console 1 console
  | ended {console : Console} (asks : canAsk console = true) :
      Concludes files [] console 0 (ask console)
  | wentOn {line : String} {rest : List String} {console next final : Console} {code : UInt32}
      (asks : canAsk console = true) (answered : Answers files console line true next)
      (others : Concludes files rest next code final) :
      Concludes files (line :: rest) console code final
  | quit {line : String} {rest : List String} {console next : Console}
      (asks : canAsk console = true) (answered : Answers files console line false next) :
      Concludes files (line :: rest) console 0 next

/-- The consoles that a transcript asks for a line with. -/
inductive Asks (files : Files) : List String → Console → Console → Prop where
  | here {lines : List String} {console : Console} (asks : canAsk console = true) :
      Asks files lines console console
  | later {line : String} {rest : List String} {console next asking : Console}
      (asks : canAsk console = true) (answered : Answers files console line true next)
      (others : Asks files rest next asking) : Asks files (line :: rest) console asking

variable {files : Files} {patience : Nat} {lines : List String} {line : String}
  {console next final : Console} {code : UInt32} {goesOn : Bool}

/-- Whatever is thrown for a file that cannot be read has a text. -/
theorem Files.worded (files : Files) : files.reader.Worded := by
  intro path thrown unread
  rw [Files.reader] at unread
  cases found : files path with
  | ok source =>
      rw [found] at unread
      cases unread
  | error error =>
      rw [found] at unread
      cases unread
      cases error <;> exact ⟨_, rfl⟩

/-- So nothing that a line throws ends a transcript. -/
theorem exists_goesOn_of_exchange {answer : Except Console.Thrown Bool}
    (exchanged : exchange console patience files line = some (answer, next)) :
    ∃ goesOn, answer = .ok goesOn :=
  ⟨_, Console.goesOn_of_worded files.worded exchanged⟩

theorem Answers.unique {other : Bool} {next' : Console}
    (answered : Answers files console line goesOn next)
    (answered' : Answers files console line other next') : goesOn = other ∧ next = next' := by
  obtain ⟨_, executed⟩ := answered
  obtain ⟨_, executed'⟩ := answered'
  obtain ⟨answer_eq, next_eq⟩ := Prod.mk.inj (Console.execute_unique executed executed')
  exact ⟨Except.ok.inj answer_eq, next_eq⟩

/-- The relation forgets the patience, so transcripts with different patience compare. -/
theorem concludes_of_conclude
    (concluded : conclude patience files lines console = some (code, final)) :
    Concludes files lines console code final := by
  induction lines generalizing console with
  | nil =>
      rw [conclude] at concluded
      cases asks : canAsk console with
      | false =>
          rw [asks] at concluded
          cases concluded
          exact .stuck asks
      | true =>
          rw [asks] at concluded
          cases concluded
          exact .ended asks
  | cons line rest ih =>
      rw [conclude] at concluded
      cases asks : canAsk console with
      | false =>
          rw [asks] at concluded
          cases concluded
          exact .stuck asks
      | true =>
          rw [asks, if_pos rfl] at concluded
          split at concluded
          · cases concluded
          · rename_i next exchanged
            exact .wentOn asks ⟨patience, exchanged⟩ (ih concluded)
          · rename_i next exchanged
            cases concluded
            exact .quit asks ⟨patience, exchanged⟩
          · rename_i thrown next exchanged
            obtain ⟨goesOn, contradiction⟩ := exists_goesOn_of_exchange exchanged
            cases contradiction

/-! ## What an exchange keeps -/

/-- What shows the next instruction, if there is one to show. -/
def statusEffects (console : Console) : List Effect :=
  console.statusLine.1.toList.map fun status => .message s!"{status}\n"

/-- The console that has ended an open line and shown the next instruction. -/
def showing (console : Console) : Console :=
  { console.closeLine with written := console.closeLine.written ++ statusEffects console }

theorem ask_eq (console : Console) :
    ask console = (showing console).emit (.message Console.prompt) := by
  cases found : console.session.currentInstruction with
  | error error =>
      simp only [ask, showing, statusEffects, Console.statusLine, found]
      rfl
  | ok report =>
      simp only [ask, showing, statusEffects, Console.statusLine, found]
      rfl

theorem session_ask (console : Console) : (ask console).session = console.session := by
  rw [ask_eq]
  exact console.session_closeLine

theorem written_showing (console : Console) :
    (showing console).written.toList =
      console.statusLine.2.written.toList ++ statusEffects console := by
  rw [showing, Array.toList_appendList, Console.written_statusLine, Console.written_closeLine]

theorem written_ask (console : Console) :
    (ask console).written.toList =
      (showing console).written.toList ++ [.message Console.prompt] := by
  rw [ask_eq, Console.emit, Array.toList_push]

/-- A line is put to the console that has asked for it. -/
theorem Answers.executed (answered : Answers files console line goesOn next) :
    ∃ patience, ((ask console).emit (.message s!"{line}\n")).execute patience files.reader line =
      some (.ok goesOn, next) :=
  answered

theorem Answers.affects (answered : Answers files console line goesOn next) :
    ∃ operation?, ((ask console).emit (.message s!"{line}\n")).Affects operation? next.session ∧
      ∀ operation ∈ operation?, Console.isCommanded operation = true := by
  obtain ⟨patience, executed⟩ := answered.executed
  exact ⟨_, Console.affects_of_execute executed, fun _ => Console.isCommanded_of_line⟩

/-- Exchanges do not read the settings anew. -/
theorem Answers.settings (answered : Answers files console line goesOn next) :
    next.session.settings = console.session.settings := by
  obtain ⟨operation?, affects, commanded⟩ := answered.affects
  rw [← session_ask console]
  exact affects.settings commanded

theorem Answers.sound (answered : Answers files console line goesOn next)
    (sound : console.session.Sound) : next.session.Sound := by
  obtain ⟨operation?, affects, -⟩ := answered.affects
  rw [← session_ask console] at sound
  exact affects.sound sound

/-- What a line comes to is handed out behind the line itself. -/
theorem Answers.written (answered : Answers files console line goesOn next) :
    (ask console).written.toList ++ [.message s!"{line}\n"] <+: next.written.toList := by
  obtain ⟨patience, executed⟩ := answered.executed
  obtain ⟨messages, written_eq, -⟩ := (Console.relays_of_execute executed).written
  rw [written_eq, Console.emit, Array.toList_push, List.append_assoc _ (List.map _ _)]
  exact List.prefix_append _ _

theorem prefix_ask (console : Console) :
    console.written.toList <+: (ask console).written.toList := by
  rw [written_ask, written_showing, Console.written_statusLine, List.append_assoc,
    List.append_assoc]
  exact List.prefix_append _ _

theorem Answers.prefix_written (answered : Answers files console line goesOn next) :
    console.written.toList <+: next.written.toList :=
  (prefix_ask console).trans ((List.prefix_append _ _).trans answered.written)

theorem canAsk_of_sound (sound : console.session.Sound) : canAsk console = true := by
  cases executing : console.session.execution with
  | error error => simp only [canAsk, Session.currentInstruction, executing]
  | ok found =>
      obtain ⟨program, runtime⟩ := found
      have running := Session.phase_of_execution executing
      have shown := Session.currentInstruction_of_running running (sound.phase.running running).2
      simp only [canAsk, shown]

theorem sound_opening (settingsPath : String) (settings? : Option String) (files : Files)
    (arguments : List String) :
    (opening (start settingsPath settings?) files arguments).session.Sound := by
  have sound : (start settingsPath settings?).session.Sound := ⟨Settings.valid_load _, trivial⟩
  cases arguments with
  | nil => exact sound
  | cons path rest => exact (Console.affects_loadFile _ files.reader path).sound sound

/-! ## What a transcript keeps -/

namespace Concludes

/-- Behind a line that does not end it, a transcript goes on with the others. -/
theorem of_wentOn {rest : List String}
    (concludes : Concludes files (line :: rest) console code final)
    (asks : canAsk console = true) (answered : Answers files console line true next) :
    Concludes files rest next code final := by
  cases concludes with
  | stuck missing =>
      rw [asks] at missing
      cases missing
  | wentOn _ answered' others =>
      obtain ⟨-, rfl⟩ := answered.unique answered'
      exact others
  | quit _ answered' =>
      obtain ⟨contradiction, -⟩ := answered.unique answered'
      cases contradiction

/-- A line that ends a transcript is its last one. -/
theorem of_quit {rest : List String}
    (concludes : Concludes files (line :: rest) console code final)
    (asks : canAsk console = true) (answered : Answers files console line false next) :
    final = next := by
  cases concludes with
  | stuck missing =>
      rw [asks] at missing
      cases missing
  | wentOn _ answered' others =>
      obtain ⟨contradiction, -⟩ := answered.unique answered'
      cases contradiction
  | quit _ answered' => exact (answered.unique answered').2.symm

section Kept

variable (concludes : Concludes files lines console code final)
include concludes

/-- A transcript does not read the settings anew. -/
theorem settings : final.session.settings = console.session.settings := by
  induction concludes with
  | stuck missing => rfl
  | ended asks => rw [session_ask]
  | wentOn asks answered others ih => rw [ih, answered.settings]
  | quit asks answered => exact answered.settings

/-- A transcript takes nothing back. -/
theorem written : console.written.toList <+: final.written.toList := by
  induction concludes with
  | stuck missing => exact List.prefix_rfl
  | @ended console asks => exact prefix_ask console
  | @wentOn line _ console _ _ _ asks answered others ih => exact answered.prefix_written.trans ih
  | quit asks answered => exact answered.prefix_written

theorem written_of_canAsk (asks : canAsk console = true) :
    (ask console).written.toList <+: final.written.toList := by
  cases concludes with
  | stuck missing =>
      rw [asks] at missing
      cases missing
  | ended => exact List.prefix_rfl
  | wentOn _ answered others =>
      exact ((List.prefix_append _ _).trans answered.written).trans others.written
  | quit _ answered => exact (List.prefix_append _ _).trans answered.written

/-- All that was handed out when a line was asked for stays in front. -/
theorem written_of_asks {asking : Console} (asked : Asks files lines console asking) :
    (ask asking).written.toList <+: final.written.toList := by
  induction asked with
  | here asks => exact concludes.written_of_canAsk asks
  | later asks answered others ih => exact ih (concludes.of_wentOn asks answered)

end Kept

end Concludes

/-! ## Whole programs -/

/-- The program ends as the transcript does that asks for the lines of its input. -/
theorem process_eq_some_iff {settingsPath : String} {settings? : Option String}
    {arguments : List String} {input : List UInt8} {exit : Exit} :
    process settingsPath settings? arguments files patience input = some exit ↔
      ∃ code final, conclude patience files (Text.inputLines input)
          (opening (start settingsPath settings?) files arguments) = some (code, final) ∧
        exit = ⟨code, streams final.session.settings.verbose final.written⟩ := by
  rw [process, Option.map_eq_some_iff]
  constructor
  · rintro ⟨⟨code, final⟩, concluded, same⟩
    exact ⟨code, final, concluded, same.symm⟩
  · rintro ⟨code, final, concluded, same⟩
    exact ⟨(code, final), concluded, same.symm⟩

/-- While a session is sound, lines are answered until they are used up or the console ends. -/
theorem conclude_eq_answerAll (sound : console.session.Sound) :
    conclude patience files lines console =
      (answerAll patience files lines (ask console)).map fun final => (0, final) := by
  induction lines generalizing console with
  | nil => rw [conclude, answerAll, if_pos (canAsk_of_sound sound), Option.map_some]
  | cons line rest ih =>
      rw [conclude, if_pos (canAsk_of_sound sound), answerAll]
      cases exchanged : exchange console patience files line with
      | none =>
          have unanswered : answer (ask console) patience files true line = none :=
            Option.map_eq_none_iff.mpr exchanged
          rw [unanswered]
          rfl
      | some answered =>
          obtain ⟨answered, next⟩ := answered
          obtain ⟨goesOn, rfl⟩ := exists_goesOn_of_exchange exchanged
          cases goesOn with
          | false =>
              have answered : answer (ask console) patience files true line =
                  some (.ok false, next) := Option.map_eq_some_iff.mpr ⟨_, exchanged, rfl⟩
              rw [answered]
              rfl
          | true =>
              have answered : answer (ask console) patience files true line =
                  some (.ok true, ask next) := Option.map_eq_some_iff.mpr ⟨_, exchanged, rfl⟩
              rw [answered]
              exact ih (Answers.sound ⟨patience, exchanged⟩ sound)

/-- The whole program always ends with the exit code 0. -/
theorem process_eq_run (settingsPath : String) (settings? : Option String)
    (arguments : List String) (files : Files) (patience : Nat) (input : List UInt8) :
    process settingsPath settings? arguments files patience input =
      (run settingsPath settings? arguments files patience input).map fun streams =>
        ⟨0, streams⟩ := by
  have begin_eq (console : Console) :
      begin console files arguments = ask (opening console files arguments) := by
    cases arguments <;> rfl
  rw [process, conclude_eq_answerAll (sound_opening settingsPath settings? files arguments), run,
    begin_eq, Option.map_map, Option.map_map]
  rfl

end Transcript

end TapeDebugger
