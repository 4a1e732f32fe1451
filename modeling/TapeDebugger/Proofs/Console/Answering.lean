import TapeDebugger.Proofs.Command.Words
import TapeDebugger.Proofs.Console.Intake
import TapeDebugger.Proofs.Console.Throwing

/-!
# Which lines are answered

A line that is not blank is answered, by the command that its first word calls or by a
message that there is none.  The exception is a line that is divided, by a line break
behind its second word: it is dropped as a blank one is.
-/

namespace TapeDebugger

namespace Console

open Command (Line)
open Text (Blank words)

/-- A line is dropped if it is blank or divided. -/
def Dropped (line : String) : Prop :=
  Blank line.toList ∨ Line.Divided line.toList

/--
A line is answered by its first word, which calls a command or is reported.  The console is
ended by the command to quit alone, at once.
-/
inductive Answers (console : Console) (patience : Nat) (read : Reader) (line : String) : Prop where
  | unknown {word : List Char} {others : List (List Char)}
      (words_eq : words line.toList = word :: others)
      (uncalled : ∀ command : Command, ¬ command.CalledBy word)
      (answer : console.execute patience read line =
        some (.ok true, console.say s!"Unknown command '{String.ofList word}', type 'help'."))
  | performed {word : List Char} {others : List (List Char)} {command : Command}
      {argument? : Option String} (words_eq : words line.toList = word :: others)
      (called : command.CalledBy word)
      (asks : Line.Asks line.toList (.call command argument?))
      (answer : console.execute patience read line =
        (console.perform patience read command argument?).map fun completion =>
          completion.answer command)
      (quits : ∀ next, console.execute patience read line = some (.ok false, next) ↔
        command = .quit ∧ next = console)

variable {console : Console} {line : String}

theorem parse_of_dropped (dropped : Dropped line) : Line.parse line = .empty := by
  rcases dropped with blank | divided
  · exact Line.ofChars_of_blank blank
  · exact Line.ofChars_of_divided divided

/-- Of all commands only quitting answers that the console is to end. -/
theorem quits_of_call {patience : Nat} {read : Reader} {command : Command}
    {argument? : Option String} (parsed : Line.parse line = .call command argument?)
    (next : Console) :
    console.execute patience read line = some (.ok false, next) ↔
      command = .quit ∧ next = console := by
  constructor
  · intro executed
    obtain ⟨_, asked⟩ :=
      quits_eq_true_iff.mp ((answer_eq_false_iff executed).mp rfl)
    cases parsed.symm.trans asked
    rw [execute, parsed] at executed
    cases executed
    exact ⟨rfl, rfl⟩
  · rintro ⟨rfl, rfl⟩
    rw [execute, parsed]
    rfl

theorem answers_of_not_dropped (console : Console) (patience : Nat) (read : Reader)
    (kept : ¬ Dropped line) : Answers console patience read line := by
  obtain ⟨notBlank, undivided⟩ := not_or.mp kept
  obtain ⟨asked, asks⟩ := Line.exists_asks line.toList
  have parsed : Line.parse line = asked := Line.ofChars_of_asks undivided asks
  cases asks with
  | empty wordless => exact absurd (Text.words_eq_nil_iff.mp wordless) notBlank
  | unknown words_eq uncalled =>
      exact .unknown words_eq uncalled (by rw [execute, parsed])
  | bare words_eq called =>
      exact .performed words_eq called (.bare words_eq called) (by rw [execute, parsed])
        (quits_of_call parsed)
  | word words_eq called other =>
      exact .performed words_eq called (.word words_eq called other) (by rw [execute, parsed])
        (quits_of_call parsed)
  | @text layout _ _ line_eq rest_eq called =>
      have words_eq : words line.toList = layout.word :: words layout.rest :=
        line_eq ▸ layout.words_line
      exact .performed words_eq called (.text line_eq rest_eq called) (by rw [execute, parsed])
        (quits_of_call parsed)

theorem parse_eq_empty_iff : Line.parse line = .empty ↔ Dropped line := by
  refine ⟨fun parsed => ?_, parse_of_dropped⟩
  by_contra kept
  obtain ⟨notBlank, undivided⟩ := not_or.mp kept
  have asks := (Line.ofChars_eq_iff undivided .empty).mp parsed
  cases asks with
  | empty wordless => exact notBlank (Text.words_eq_nil_iff.mp wordless)

/-- Where no line feed and no carriage return is, only the two separators divide a line. -/
theorem separator_of_divided (noFeed : '\n' ∉ line.toList) (noReturn : '\r' ∉ line.toList)
    (divided : Line.Divided line.toList) :
    '\u2028' ∈ line.toList ∨ '\u2029' ∈ line.toList := by
  obtain ⟨before, lineBreak, behind, line_eq, breaks, -, -⟩ := divided
  have inside : lineBreak ∈ line.toList :=
    line_eq ▸ List.mem_append_right before List.mem_cons_self
  have notFeed : lineBreak ≠ '\n' := fun same => noFeed (same ▸ inside)
  have notReturn : lineBreak ≠ '\r' := fun same => noReturn (same ▸ inside)
  simp only [Text.isLineBreak, notFeed, notReturn, false_or, decide_eq_true_eq] at breaks
  rcases breaks with rfl | rfl
  · exact .inl inside
  · exact .inr inside

/--
A line is taken for an empty one just if it is dropped, and then nothing is done; every
other line is answered.  Of the lines that are read, with neither a line feed nor a
carriage return in them, a separator of lines or paragraphs behind the second word is all
that drops one with a word in it.
-/
theorem line_is_answered (line : String) :
    (Line.parse line = .empty ↔ Dropped line) ∧
    (∀ (console : Console) (patience : Nat) (read : Reader),
      (Dropped line → console.execute patience read line = some (.ok true, console)) ∧
      (¬ Dropped line → Answers console patience read line)) ∧
    ('\n' ∉ line.toList → '\r' ∉ line.toList → Dropped line →
      Blank line.toList ∨ '\u2028' ∈ line.toList ∨ '\u2029' ∈ line.toList) := by
  refine ⟨parse_eq_empty_iff, fun console patience read => ⟨fun dropped => ?_,
    answers_of_not_dropped console patience read⟩, fun noFeed noReturn dropped => ?_⟩
  · rw [execute, parse_of_dropped dropped]
  · exact dropped.imp_right (separator_of_divided noFeed noReturn)

/-- A separator behind the last word or before the second one does not drop the line. -/
theorem line_is_answered_around_separators :
    ¬ Dropped "quit\u2028a \u2029" ∧
    (opened (.ofTexts [])).execute 0 noFile "quit\u2028a \u2029" =
      some (.ok false, opened (.ofTexts [])) := by
  have parsed : Line.parse "quit\u2028a \u2029" = .call .quit (some "a") := by decide +kernel
  obtain ⟨empty_iff, -, -⟩ := line_is_answered "quit\u2028a \u2029"
  have kept : ¬ Dropped "quit\u2028a \u2029" := by
    rw [← empty_iff, parsed]
    nofun
  refine ⟨kept, ?_⟩
  rw [execute, parsed]
  rfl

/-- To quit is asked for in vain if a line separator divides what follows the command. -/
theorem divided_quit_is_dropped :
    '\n' ∉ "quit a\u2028b".toList ∧ '\r' ∉ "quit a\u2028b".toList ∧
    ¬ Blank "quit a\u2028b".toList ∧
    words "quit a\u2028b".toList = ["quit".toList, ['a'], ['b']] ∧
    Command.quit.CalledBy "quit".toList ∧
    Line.parse "quit a\u2028b" = .empty ∧
    (opened (.ofTexts [])).execute 0 noFile "quit a\u2028b" =
      some (.ok true, opened (.ofTexts [])) := by
  have parsed : Line.parse "quit a\u2028b" = .empty := by decide +kernel
  refine ⟨by decide +kernel, by decide +kernel, by decide +kernel, by decide +kernel,
    .inl (by decide +kernel), parsed, ?_⟩
  rw [execute, parsed]

end Console

end TapeDebugger
