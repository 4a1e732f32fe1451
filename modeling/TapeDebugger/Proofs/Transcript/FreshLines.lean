import TapeDebugger.Proofs.Transcript.Asking

/-!
# Fresh lines in a transcript

A transcript writes three things of its own between those of the console: the next
instruction, the prompt, and behind the prompt the line that was read.  The prompt
leaves its line unfinished, but the line that is read ends it.  So the console goes on
where its flag says that it is, and each status and each prompt begins a line.
-/

namespace TapeDebugger

open Console (Aligned Effect Fresh)

namespace Transcript

/--
How an effect can follow those before it in a transcript: as it can at a console, or as
the line that is written out behind a prompt.
-/
def Placed (before : List Effect) (effect : Effect) : Prop :=
  Console.Placed before effect ∨
    before.getLast? = some (.message Console.prompt) ∧
      ∃ line : String, effect = .message s!"{line}\n"

variable {files : Files} {lines : List String} {line : String}
  {console next final : Console} {code : UInt32} {goesOn : Bool}

theorem placed_of_console (before : List Effect) (effect : Effect)
    (placed : Console.Placed before effect) : Placed before effect :=
  Or.inl placed

/-! ## Each console of a transcript -/

theorem aligned_start (settingsPath : String) (settings? : Option String) :
    Aligned Placed (start settingsPath settings?) :=
  .begins placed_of_console _ _

theorem aligned_opening (aligned : Aligned Placed console) (files : Files)
    (arguments : List String) : Aligned Placed (opening console files arguments) := by
  cases arguments with
  | nil => exact aligned
  | cons path rest => exact aligned.speaks placed_of_console (console.speaks_loadFile files.reader path)

/-- A console that has shown the next instruction has no line open. -/
theorem lineOpen_showing (console : Console) : (showing console).lineOpen = false :=
  console.lineOpen_closeLine

theorem statusLine_ne_empty {status : String} (found : console.statusLine.1 = some status) :
    status ≠ "" := by
  unfold Console.statusLine at found
  split at found
  · cases found
    simp [toString]
  · cases found

theorem aligned_showing (aligned : Aligned Placed console) :
    Aligned Placed (showing console) := by
  have closed := aligned.closeLine placed_of_console
  have shut := console.lineOpen_closeLine
  unfold showing statusEffects
  cases found : console.statusLine.1 with
  | none => exact closed
  | some status =>
      apply closed.emit_line shut
      apply placed_of_console
      exact .line (statusLine_ne_empty found) (closed.flag.symm.trans shut) (closed.fresh shut)

theorem fresh_showing (aligned : Aligned Placed console) :
    Fresh (showing console).written.toList :=
  (aligned_showing aligned).fresh (lineOpen_showing console)

theorem lawful_ask (aligned : Aligned Placed console) :
    Row.Lawful Placed (ask console).written.toList := by
  have shown := aligned_showing aligned
  rw [written_ask]
  apply shown.lawful.concat
  apply placed_of_console
  rw [Console.Placed, ← shown.flag, if_neg (by simp [lineOpen_showing])]
  exact ⟨by decide, fresh_showing aligned⟩

/-- The line that is written out behind the prompt leaves a fresh line behind it. -/
theorem aligned_echo (aligned : Aligned Placed console) (line : String) :
    Aligned Placed ((ask console).emit (.message s!"{line}\n")) := by
  -- the prompt itself breaks the invariant, which is why both are taken together
  refine ⟨?_, ?_, ?_⟩
  · rw [Console.emit, Array.toList_push, Console.endsOpen_concat_of_isOut rfl, ask_eq]
    exact lineOpen_showing console
  · intro _
    rw [Console.emit, Array.toList_push]
    exact Console.fresh_line _ line
  · rw [Console.emit, Array.toList_push]
    apply (lawful_ask aligned).concat
    rw [written_ask]
    exact Or.inr ⟨List.getLast?_concat, line, rfl⟩

theorem aligned_of_answers (aligned : Aligned Placed console)
    (answered : Answers files console line goesOn next) : Aligned Placed next := by
  obtain ⟨patience, executed⟩ := answered.executed
  exact (aligned_echo aligned line).relays placed_of_console (Console.relays_of_execute executed)

theorem aligned_of_asks {asking : Console} (aligned : Aligned Placed console)
    (asked : Asks files lines console asking) : Aligned Placed asking := by
  induction asked with
  | here asks => exact aligned
  | later asks answered others ih => exact ih (aligned_of_answers aligned answered)

theorem lawful_of_concludes (aligned : Aligned Placed console)
    (concludes : Concludes files lines console code final) :
    Row.Lawful Placed final.written.toList := by
  induction concludes with
  | stuck missing => exact aligned.lawful
  | ended asks => exact lawful_ask aligned
  | wentOn asks answered others ih => exact ih (aligned_of_answers aligned answered)
  | quit asks answered => exact (aligned_of_answers aligned answered).lawful

/-! ## Consoles and transcripts -/

/--
Over every history at a console, whatever is said on either stream begins a fresh line,
and a line feed is put in front of it exactly if a byte of the program that is none was
written last; the same holds when the status is looked up.  In a transcript only the
lines that are read and written out again stand behind a prompt, and whenever it asks
for a line, the instruction that it shows and the prompt both begin a line.
-/
theorem text_starts_on_fresh_line :
    (∀ (storage : Settings.Storage) (actions : List Console.Action) (console : Console),
      (Console.opened storage).actAll actions = some console →
        Row.Lawful Console.Placed console.written.toList ∧
        console.statusLine.2.written.toList = console.written.toList ++
          (if Console.endsOpen console.written.toList then [.message "\n"] else []) ∧
        Fresh console.statusLine.2.written.toList) ∧
    ∀ (settingsPath : String) (settings? : Option String) (arguments : List String)
      (files : Files) (patience : Nat) (input : List UInt8) (exit : Exit),
      process settingsPath settings? arguments files patience input = some exit →
        ∃ code final,
          conclude patience files (Text.inputLines input)
            (opening (start settingsPath settings?) files arguments) = some (code, final) ∧
          exit.streams.out = Console.outStream final.written.toList ∧
          Row.Lawful Placed final.written.toList ∧
          ∀ asking, Asks files (Text.inputLines input)
              (opening (start settingsPath settings?) files arguments) asking →
            Fresh asking.statusLine.2.written.toList ∧
            Fresh (asking.statusLine.2.written.toList ++ statusEffects asking) ∧
            asking.statusLine.2.written.toList ++ statusEffects asking ++
              [.message Console.prompt] <+: final.written.toList := by
  refine ⟨?_, ?_⟩
  · intro storage actions console acted
    have wider (before : List Effect) (effect : Effect)
        (placed : Console.Placed before effect) : Console.Placed before effect := placed
    have opened : Aligned Console.Placed (Console.opened storage) := .begins wider _ []
    have aligned := opened.actAll wider acted
    have looked := aligned.speaks wider console.speaks_statusLine
    refine ⟨aligned.lawful, ?_, looked.fresh console.lineOpen_statusLine⟩
    rw [Console.written_statusLine, aligned.flag]
  · intro settingsPath settings? arguments files patience input exit processed
    obtain ⟨code, final, concluded, rfl⟩ := process_eq_some_iff.mp processed
    have concludes := concludes_of_conclude concluded
    have aligned := aligned_opening (aligned_start settingsPath settings?) files arguments
    refine ⟨code, final, concluded, rfl, lawful_of_concludes aligned concludes, ?_⟩
    intro asking asked
    have asks := aligned_of_asks aligned asked
    have looked := asks.speaks placed_of_console asking.speaks_statusLine
    refine ⟨looked.fresh asking.lineOpen_statusLine, ?_, ?_⟩
    · rw [← written_showing]
      exact fresh_showing asks
    · rw [← written_showing, ← written_ask]
      exact concludes.written_of_asks asked

/-- A file of a program that writes a byte and leaves the tape. -/
def edgeFile : Files
  | "edge.b" => .ok "+.<"
  | _ => .error .missing

/-- What is written when the program is started, writes its byte, and is looked at. -/
def edgeTranscript : String :=
  "Reading edge.b...\n(tapedb) r\n@1: +\n(tapedb) n 2\n\x01\n@3: <\n" ++
    "(tapedb) d\n$ptr: 0\n@3: <\n(tapedb) "

/-- The byte 1 is left on a line of its own before the error that comes right behind it. -/
theorem text_starts_on_fresh_line_at_the_edge :
    (∃ console, (Console.opened (.ofTexts [("interpreterTapeSize", "1")])).actAll
        [.loadFile "edge.b" edgeFile.reader, .line "r" edgeFile.reader 0,
          .line "n 3" edgeFile.reader 0] =
          some console ∧
      console.written.toList.drop 3 =
        [.programByte 1, .noted (Log.debug "Program halted with pointer_underflow"),
          .message "\n", .errorMessage "error: trying to decrement the data pointer below 0\n",
          .errorMessage "At instruction 3 ('<'). $[$ptr: 0]: 1.\n",
          .message "Program exited with error.\n"] ∧
      Row.Lawful Console.Placed console.written.toList) ∧
    ∃ (exit : Exit) (final : Console),
      process "t.json" (some "\x7b\"interpreterTapeSize\": 1\x7d") ["edge.b"] edgeFile 0
        (Text.utf8 "r\r\nn 2\nd") = some exit ∧
      exit.streams.out = Text.utf8 edgeTranscript ∧
      exit.streams.out = Console.outStream final.written.toList ∧
      Row.Lawful Placed final.written.toList := by
  obtain ⟨atConsole, inTranscript⟩ := text_starts_on_fresh_line
  refine ⟨?_, ?_⟩
  · have facts : ((Console.opened (.ofTexts [("interpreterTapeSize", "1")])).actAll
        [.loadFile "edge.b" edgeFile.reader, .line "r" edgeFile.reader 0,
          .line "n 3" edgeFile.reader 0]).map
          (fun console => console.written.toList.drop 3) =
        some [.programByte 1, .noted (Log.debug "Program halted with pointer_underflow"),
          .message "\n", .errorMessage "error: trying to decrement the data pointer below 0\n",
          .errorMessage "At instruction 3 ('<'). $[$ptr: 0]: 1.\n",
          .message "Program exited with error.\n"] := by decide +kernel
    obtain ⟨console, acted, written_eq⟩ := Option.map_eq_some_iff.mp facts
    exact ⟨console, acted, written_eq, (atConsole _ _ _ acted).1⟩
  · have facts : (process "t.json" (some "\x7b\"interpreterTapeSize\": 1\x7d") ["edge.b"] edgeFile 0
        (Text.utf8 "r\r\nn 2\nd")).map (fun exit => exit.streams.out) =
        some (Text.utf8 edgeTranscript) := by decide +kernel
    obtain ⟨exit, processed, out_eq⟩ := Option.map_eq_some_iff.mp facts
    obtain ⟨code, final, -, streamed, lawful, -⟩ := inTranscript _ _ _ _ _ _ _ processed
    exact ⟨exit, final, processed, out_eq, streamed, lawful⟩

end Transcript

end TapeDebugger
