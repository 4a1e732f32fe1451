import TapeDebugger.Console.Execution
import TapeDebugger.Proofs.Session.Effect

/-!
# What a line throws

A line throws in two cases only: a program is to be started and there is no tape of the sizes
that are set, or what the reader throws for a file cannot be put into words.  The console
catches it and goes on, unless the words for it are missing too.
-/

namespace TapeDebugger

open Command (Line)
open Machine (TapeError)

namespace Console

variable {console next : Console} {read : Reader} {patience : Nat} {thrown : Thrown}

/-- There is a program to start, and no tape of the sizes that are set to start it on. -/
structure LacksTape (console : Console) (error : TapeError) : Prop where
  present : console.session.phase.program?.isSome
  failed : Session.newTape console.session.settings = .error error

/-- What the work for a line throws. -/
inductive Throws (console : Console) (read : Reader) : Line → Thrown → Prop where
  | withoutTape {argument? : Option String} {error : TapeError}
      (lacks : console.LacksTape error) :
      Throws console read (.call .run argument?) (.error none error.message)
  | wordless {path : String} {thrown raised : Thrown} (unread : read path = .error thrown)
      (noText : thrown.fileText = .error raised) :
      Throws console read (.call .file (some path)) raised

/-- Whatever the reader throws has a text. -/
def Reader.Worded (read : Reader) : Prop :=
  ∀ path thrown, read path = .error thrown → ∃ text, thrown.text = .ok text

theorem Reader.Worded.exists_fileText (worded : read.Worded) {path : String}
    (unread : read path = .error thrown) : ∃ text, thrown.fileText = .ok text := by
  unfold Thrown.fileText
  split
  · exact ⟨_, rfl⟩
  · exact worded path thrown unread

/-! ## Work that throws -/

theorem run_of_lacksTape {error : TapeError} (lacks : console.LacksTape error) :
    console.session.run = { answer := .error (.tape error), session := console.session.stop } := by
  obtain ⟨program, present⟩ := Option.isSome_iff_exists.mp lacks.present
  exact Session.run_of_notCreated present lacks.failed

/-- A start without a tape stops the run before, throws and writes nothing. -/
theorem startRun_of_lacksTape {error : TapeError} (lacks : console.LacksTape error) :
    console.startRun =
      { console := { console with session := console.session.stop }
        thrown? := some (.error none error.message) } := by
  simp only [startRun, run_of_lacksTape lacks]
  rfl

theorem lacksTape_of_answer {error : TapeError}
    (failed : console.session.run.answer = .error (.tape error)) : console.LacksTape error := by
  simp only [Session.run] at failed
  split at failed
  · cases failed
  · rename_i present
    split at failed
    · rename_i notCreated
      cases failed
      exact ⟨Option.isSome_iff_exists.mpr ⟨_, present⟩, notCreated⟩
    · cases failed

theorem thrown?_startRun {argument? : Option String} :
    console.startRun.thrown? = some thrown ↔
      console.Throws read (.call .run argument?) thrown := by
  constructor
  · intro throws
    simp only [startRun] at throws
    split at throws
    · cases throws
    · cases throws
    · rename_i failed
      cases throws
      exact .withoutTape (lacksTape_of_answer failed)
  · rintro ⟨lacks⟩
    rw [startRun_of_lacksTape lacks]

theorem thrown?_useFile {argument? : Option String} :
    (console.useFile read argument?).thrown? = some thrown ↔
      console.Throws read (.call .file argument?) thrown := by
  constructor
  · intro throws
    cases argument? with
    | none => cases throws
    | some path =>
        simp only [useFile, loadFile] at throws
        split at throws
        · rename_i unread
          split at throws
          · cases throws
          · rename_i noText
            cases throws
            exact .wordless unread noText
        · split at throws <;> cases throws
  · rintro (_ | ⟨unread, noText⟩)
    simp only [useFile, loadFile, unread, noText]

/-- Of all commands only starting and loading throw. -/
theorem thrown?_of_perform {command : Command} {argument? : Option String}
    {completion : Completion}
    (performed : console.perform patience read command argument? = some completion) :
    completion.thrown? = some thrown ↔
      console.Throws read (.call command argument?) thrown := by
  cases command with
  | run =>
      cases performed
      exact thrown?_startRun
  | file =>
      cases performed
      exact thrown?_useFile
  | next | resume =>
      obtain ⟨final, -, rfl⟩ := Option.map_eq_some_iff.mp performed
      exact iff_of_false nofun nofun
  | help | quit | jump | dataPointer | print | tape | input =>
      cases performed
      exact iff_of_false nofun nofun

theorem thrown?_eq_none_of_calm {command : Command} {argument? : Option String}
    {completion : Completion}
    (performed : console.perform patience read command argument? = some completion)
    (calm : ∀ thrown, ¬ console.Throws read (.call command argument?) thrown) :
    completion.thrown? = none :=
  Option.eq_none_iff_forall_ne_some.mpr fun thrown throws =>
    calm thrown ((thrown?_of_perform performed).mp throws)

/-! ## Answers -/

/-- Whether a line asks the console to end. -/
def quits (line : String) : Bool :=
  match Line.parse line with
  | .call .quit _ => true
  | .empty | .unknown _ | .call _ _ => false

theorem quits_eq_true_iff {text : String} :
    quits text = true ↔ ∃ argument?, Line.parse text = .call .quit argument? := by
  unfold quits
  cases Line.parse text with
  | empty | unknown word => simp
  | call command argument? => cases command <;> simp

/-- The command of a line that throws. -/
theorem exists_completion_of_throws {text : String} {answer : Except Thrown Bool}
    (executed : console.execute patience read text = some (answer, next))
    (throws : console.Throws read (Line.parse text) thrown) :
    ∃ command argument? completion, Line.parse text = .call command argument? ∧
      console.perform patience read command argument? = some completion ∧
      completion.thrown? = some thrown ∧ completion.answer command = (answer, next) := by
  rw [execute] at executed
  cases parsed : Line.parse text with
  | empty | unknown word =>
      rw [parsed] at throws
      cases throws
  | call command argument? =>
      rw [parsed] at throws
      simp only [parsed] at executed
      obtain ⟨completion, performed, answered⟩ := Option.map_eq_some_iff.mp executed
      exact ⟨command, argument?, completion, rfl, performed,
        (thrown?_of_perform performed).mpr throws, answered⟩

/-- What is thrown and has a text is caught, and the console goes on. -/
theorem goesOn_of_throws {text : String} {answer : Except Thrown Bool}
    (executed : console.execute patience read text = some (answer, next))
    (throws : console.Throws read (Line.parse text) thrown) {words : String}
    (worded : thrown.text = .ok words) : answer = .ok true := by
  obtain ⟨command, argument?, completion, -, -, throws, answered⟩ :=
    exists_completion_of_throws executed throws
  simp only [Completion.answer, throws, worded] at answered
  exact (congrArg Prod.fst answered).symm

/-- What is thrown without a text is thrown once more. -/
theorem raised_of_throws {text : String} {answer : Except Thrown Bool}
    (executed : console.execute patience read text = some (answer, next))
    (throws : console.Throws read (Line.parse text) thrown) {raised : Thrown}
    (wordless : thrown.text = .error raised) : answer = .error raised := by
  obtain ⟨command, argument?, completion, -, -, throws, answered⟩ :=
    exists_completion_of_throws executed throws
  simp only [Completion.answer, throws, wordless] at answered
  exact (congrArg Prod.fst answered).symm

/-- If nothing is thrown, a console goes on unless the line asks it to end. -/
theorem goesOn_of_calm {text : String} {answer : Except Thrown Bool}
    (executed : console.execute patience read text = some (answer, next))
    (calm : ∀ thrown, ¬ console.Throws read (Line.parse text) thrown) :
    answer = .ok !quits text := by
  rw [execute] at executed
  unfold quits
  cases parsed : Line.parse text with
  | empty | unknown word =>
      rw [parsed] at executed
      cases executed
      rfl
  | call command argument? =>
      rw [parsed] at calm
      simp only [parsed] at executed
      obtain ⟨completion, performed, answered⟩ := Option.map_eq_some_iff.mp executed
      have thrown_eq := thrown?_eq_none_of_calm performed calm
      simp only [Completion.answer, thrown_eq] at answered
      cases answered
      cases command <;> rfl

/-- A line that throws does not ask the console to end. -/
theorem quits_of_throws {text : String} (throws : console.Throws read (Line.parse text) thrown) :
    quits text = false := by
  rw [← Bool.not_eq_true, quits_eq_true_iff]
  rintro ⟨argument?, parsed⟩
  rw [parsed] at throws
  cases throws

/-- Where all that the reader throws has a text, so has all that a line throws. -/
theorem Reader.Worded.exists_text (worded : read.Worded) {line : Line}
    (throws : console.Throws read line thrown) : ∃ words, thrown.text = .ok words := by
  cases throws with
  | withoutTape => exact ⟨_, rfl⟩
  | wordless unread noText =>
      obtain ⟨words, text_eq⟩ := worded.exists_fileText unread
      rw [text_eq] at noText
      cases noText

/-- The answer that ends a console comes of quitting alone, whatever is thrown. -/
theorem answer_eq_false_iff {text : String} {answer : Except Thrown Bool}
    (executed : console.execute patience read text = some (answer, next)) :
    answer = .ok false ↔ quits text = true := by
  by_cases calm : ∃ thrown, console.Throws read (Line.parse text) thrown
  · obtain ⟨thrown, throws⟩ := calm
    rw [quits_of_throws throws]
    cases text_eq : thrown.text with
    | ok words =>
        rw [goesOn_of_throws executed throws text_eq]
        exact iff_of_false nofun Bool.false_ne_true
    | error raised =>
        rw [raised_of_throws executed throws text_eq]
        exact iff_of_false nofun Bool.false_ne_true
  · rw [goesOn_of_calm executed fun thrown throws => calm ⟨thrown, throws⟩]
    cases quits text <;> simp

/-- Where all that the reader throws has a text, a line is answered whether it quits. -/
theorem goesOn_of_worded (worded : read.Worded) {text : String} {answer : Except Thrown Bool}
    (executed : console.execute patience read text = some (answer, next)) :
    answer = .ok !quits text := by
  by_cases calm : ∃ thrown, console.Throws read (Line.parse text) thrown
  · obtain ⟨thrown, throws⟩ := calm
    obtain ⟨words, text_eq⟩ := worded.exists_text throws
    rw [goesOn_of_throws executed throws text_eq, quits_of_throws throws]
    rfl
  · exact goesOn_of_calm executed fun thrown throws => calm ⟨thrown, throws⟩

end Console

end TapeDebugger
