import TapeDebugger.Proofs.Text.Lines
import TapeDebugger.Proofs.Transcript.Asking

/-!
# Causality

A transcript reads its input from left to right and never takes back what it has
written.  So input that ends with a line feed has the same transcript, as far as it
goes, whatever input comes behind it; and behind a line that quits none is read.
-/

namespace TapeDebugger

open Console (Effect)

namespace Transcript

variable {files : Files} {first second : List String} {lines : List String} {line : String}
  {console next final final' : Console} {code code' : UInt32} {goesOn : Bool}

theorem Answers.goesOn_eq (answered : Answers files console line goesOn next) :
    goesOn = !Console.quits line := by
  obtain ⟨patience, executed⟩ := answered.executed
  exact Except.ok.inj (Console.goesOn_of_worded files.worded executed)

namespace Concludes

theorem of_stuck (concludes : Concludes files lines console code final)
    (missing : canAsk console = false) : final = console := by
  cases concludes with
  | stuck => rfl
  | ended asks | wentOn asks | quit asks =>
      rw [missing] at asks
      cases asks

/-- The lines in front are answered in the same way, whatever lines come behind them. -/
theorem append (part : Concludes files first console code final)
    (whole : Concludes files (first ++ second) console code' final') :
    (first.any Console.quits = true → final' = final) ∧
      final.written.toList <+: final'.written.toList := by
  -- both transcripts give the same answers, so the second is inverted along the first
  induction part with
  | stuck missing =>
      rw [whole.of_stuck missing]
      exact ⟨fun _ => rfl, List.prefix_rfl⟩
  | ended asks => exact ⟨nofun, whole.written_of_canAsk asks⟩
  | wentOn asks answered others ih =>
      have unquit := answered.goesOn_eq
      rw [List.cons_append] at whole
      rw [List.any_cons, ← Bool.not_not (Console.quits _), ← unquit]
      exact ih (whole.of_wentOn asks answered)
  | quit asks answered =>
      rw [List.cons_append] at whole
      rw [whole.of_quit asks answered]
      exact ⟨fun _ => rfl, List.prefix_rfl⟩

end Concludes

/-- What is handed out first comes first in both streams. -/
theorem streams_prefix {verbose : Bool} {before behind : Array Effect}
    (grows : before.toList <+: behind.toList) :
    (streams verbose before).out <+: (streams verbose behind).out ∧
      (streams verbose before).err <+: (streams verbose behind).err := by
  obtain ⟨more, grown⟩ := grows
  simp only [streams, ← grown, List.flatMap_append]
  exact ⟨List.prefix_append _ _, List.prefix_append _ _⟩

/-! ## Whole programs -/

/-- The whole program ends like this on an input, however long it takes. -/
def Finishes (settingsPath : String) (settings? : Option String) (arguments : List String)
    (files : Files) (input : List UInt8) (exit : Exit) : Prop :=
  ∃ patience, process settingsPath settings? arguments files patience input = some exit

section Finishes

variable {settingsPath : String} {settings? : Option String} {arguments : List String}
  {first second : List UInt8} {input : List UInt8} {exit part whole : Exit}

theorem Finishes.code_eq (finishes : Finishes settingsPath settings? arguments files input exit) :
    exit.code = 0 := by
  obtain ⟨patience, processed⟩ := finishes
  rw [process_eq_run] at processed
  obtain ⟨streams, -, rfl⟩ := Option.map_eq_some_iff.mp processed
  rfl

/-- A program that ends has asked for its lines, under the settings that it began with. -/
theorem Finishes.concludes
    (finishes : Finishes settingsPath settings? arguments files input exit) :
    ∃ code final, Concludes files (Text.inputLines input)
        (opening (start settingsPath settings?) files arguments) code final ∧
      exit.streams = streams (opening (start settingsPath settings?) files
        arguments).session.settings.verbose final.written := by
  obtain ⟨patience, processed⟩ := finishes
  obtain ⟨code, final, concluded, rfl⟩ := process_eq_some_iff.mp processed
  have concludes := concludes_of_conclude concluded
  exact ⟨code, final, concludes, by rw [← concludes.settings]⟩

/--
Input that is empty or ends with a line feed is answered in the same way whatever comes
behind it: what is written then, on either stream, begins with what is written without
it, and if a line quits, nothing more is written at all.  The exit code is always 0.
-/
theorem transcript_is_causal (ended : first = [] ∨ first.getLast? = some 10)
    (finishes : Finishes settingsPath settings? arguments files first part)
    (finishes' : Finishes settingsPath settings? arguments files (first ++ second) whole) :
    ((Text.inputLines first).any Console.quits = false →
        part.streams.out <+: whole.streams.out ∧ part.streams.err <+: whole.streams.err) ∧
      ((Text.inputLines first).any Console.quits = true → whole.streams = part.streams) ∧
      part.code = 0 ∧ whole.code = 0 := by
  obtain ⟨_, final, concludes, streamed⟩ := finishes.concludes
  obtain ⟨_, final', concludes', streamed'⟩ := finishes'.concludes
  rw [Text.inputLines_append ended] at concludes'
  obtain ⟨same, grows⟩ := concludes.append concludes'
  rw [streamed, streamed']
  refine ⟨fun _ => streams_prefix grows, ?_, finishes.code_eq, finishes'.code_eq⟩
  intro quitted
  rw [same quitted]

end Finishes

/-- A program of two bytes on one cell, for the settings and the file that are given. -/
def twiceFile : Files
  | "twice.b" => .ok "+.+."
  | _ => .error .missing

/-- How the program of two bytes ends on an input. -/
def twice (input : List UInt8) : Option Exit :=
  process "t.json" (some "\x7b\"interpreterTapeSize\": 1\x7d") ["twice.b"] twiceFile 9 input

/-- Lines with bytes that are no text, and with a carriage return in front of the line feed. -/
def brokenLines : List UInt8 :=
  [0xe2, 0x82, 0x0d, 0x0a] ++ Text.utf8 "r\nn 2\r\n"

/-- The bytes behind the lines go on with the program, and those behind a line that quits do not. -/
theorem transcript_is_causal_of_broken_lines :
    ∃ part whole quitted more,
      twice brokenLines = some part ∧ twice (brokenLines ++ 0x80 :: Text.utf8 "\rc") = some whole ∧
      twice (brokenLines ++ Text.utf8 "q x\n") = some quitted ∧
      twice (brokenLines ++ Text.utf8 "q x\n" ++ 0x80 :: Text.utf8 "\rc") = some more ∧
      (part.streams.out <+: whole.streams.out ∧ part.streams.err <+: whole.streams.err) ∧
      part.streams.out ≠ whole.streams.out ∧ more.streams = quitted.streams ∧
      whole.code = 0 ∧ more.code = 0 := by
  have facts : (twice brokenLines).isSome ∧
      (twice (brokenLines ++ 0x80 :: Text.utf8 "\rc")).isSome ∧
      (twice (brokenLines ++ Text.utf8 "q x\n")).isSome ∧
      (twice (brokenLines ++ Text.utf8 "q x\n" ++ 0x80 :: Text.utf8 "\rc")).isSome ∧
      (twice brokenLines).map (fun exit => exit.streams.out) ≠
        (twice (brokenLines ++ 0x80 :: Text.utf8 "\rc")).map (fun exit => exit.streams.out) := by
    decide +kernel
  obtain ⟨part_some, whole_some, quitted_some, more_some, other⟩ := facts
  obtain ⟨part, part_eq⟩ := Option.isSome_iff_exists.mp part_some
  obtain ⟨whole, whole_eq⟩ := Option.isSome_iff_exists.mp whole_some
  obtain ⟨quitted, quitted_eq⟩ := Option.isSome_iff_exists.mp quitted_some
  obtain ⟨more, more_eq⟩ := Option.isSome_iff_exists.mp more_some
  obtain ⟨grows, -, -, whole_code⟩ :=
    transcript_is_causal (.inr (by decide +kernel)) ⟨9, part_eq⟩ ⟨9, whole_eq⟩
  obtain ⟨-, same, -, more_code⟩ :=
    transcript_is_causal (.inr (by decide +kernel)) ⟨9, quitted_eq⟩ ⟨9, more_eq⟩
  refine ⟨part, whole, quitted, more, part_eq, whole_eq, quitted_eq, more_eq,
    grows (by decide +kernel), ?_, same (by decide +kernel), whole_code, more_code⟩
  rw [part_eq, whole_eq] at other
  exact fun equal => other (congrArg some equal)

end Transcript

end TapeDebugger
