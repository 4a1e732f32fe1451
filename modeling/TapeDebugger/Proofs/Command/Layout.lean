import TapeDebugger.Command.Line
import TapeDebugger.Proofs.Text.Words

/-!
# The layout of a line

A line that is not blank has a first word, and behind it there may be more, with
blanks around all of it.  What such a line asks for depends only on its word and on
what is behind it; the blanks before, between and after them do not matter.
-/

namespace TapeDebugger

namespace Command

open Text (Blank Trimmed Word)

/-- A line that is not blank, taken apart. -/
structure Layout where
  before : List Char
  word : List Char
  gap : List Char
  rest : List Char
  behind : List Char
  before_blank : Blank before
  word_solid : Word word
  gap_blank : Blank gap
  rest_trimmed : Trimmed rest
  behind_blank : Blank behind
  separated : rest ≠ [] → gap ≠ []

namespace Layout

/-- What follows the word. -/
def after (layout : Layout) : List Char :=
  layout.gap ++ (layout.rest ++ layout.behind)

def line (layout : Layout) : List Char :=
  layout.before ++ (layout.word ++ layout.after)

theorem blank_head_after (layout : Layout) :
    ∀ char ∈ layout.after.head?, Text.isBlank char = true := by
  intro char found
  unfold after at found
  cases gap_eq : layout.gap with
  | nil =>
      have rest_eq : layout.rest = [] := by
        by_contra more
        exact layout.separated more gap_eq
      rw [gap_eq, rest_eq] at found
      exact layout.behind_blank char (List.mem_of_mem_head? found)
  | cons first blanks =>
      rw [gap_eq] at found
      obtain rfl : first = char := Option.some.inj found
      apply layout.gap_blank
      rw [gap_eq]
      exact List.mem_cons_self

/-- What follows the word is trimmed to the rest. -/
theorem trim_after (layout : Layout) :
    Text.trimEnd (Text.trimStart layout.after) = layout.rest :=
  Text.trim_append layout.gap_blank layout.rest_trimmed layout.behind_blank

/-- Without the blanks before it a line begins with its word. -/
theorem trimStart_line (layout : Layout) :
    Text.trimStart layout.line = layout.word ++ layout.after := by
  have first : ∀ char ∈ (layout.word ++ layout.after).head?, Text.isBlank char = false := by
    rw [List.head?_append_of_ne_nil _ layout.word_solid.nonempty]
    exact layout.word_solid.trimmed.first
  exact (Text.trimStart_append layout.before_blank _).trans (Text.trimStart_of_head first)

/-- The words of a line are its word and those of its rest. -/
theorem words_line (layout : Layout) :
    Text.words layout.line = layout.word :: Text.words layout.rest := by
  rw [line, Text.words_blank_append layout.before_blank,
    Text.words_word_append layout.word_solid layout.blank_head_after, after,
    Text.words_blank_append layout.gap_blank, Text.words_append_blank _ layout.behind_blank]

/-- The line with more blanks around it. -/
def padded (layout : Layout) {front back : List Char} (front_blank : Blank front)
    (back_blank : Blank back) : Layout :=
  { layout with
    before := front ++ layout.before
    behind := layout.behind ++ back
    before_blank := front_blank.append layout.before_blank
    behind_blank := layout.behind_blank.append back_blank }

theorem line_padded (layout : Layout) {front back : List Char} (front_blank : Blank front)
    (back_blank : Blank back) :
    (layout.padded front_blank back_blank).line = front ++ (layout.line ++ back) := by
  simp only [line, after, padded, List.append_assoc]

end Layout

/-- Every line that is not blank can be taken apart. -/
theorem exists_layout {chars : List Char} (notBlank : ¬ Blank chars) :
    ∃ layout : Layout, layout.line = chars := by
  obtain ⟨before, word, after, before_blank, word_solid, first, rfl⟩ := Text.exists_word notBlank
  obtain ⟨gap, behind, gap_blank, rest_trimmed, behind_blank, after_eq⟩ := Text.exists_trimmed after
  have separated : Text.trimEnd (Text.trimStart after) ≠ [] → gap ≠ [] := by
    rintro present rfl
    -- without a gap the rest would begin with the blank that ends the word
    obtain ⟨char, found⟩ := Option.isSome_iff_exists.mp (List.isSome_head?.mpr present)
    have blank : Text.isBlank char = true := by
      apply first
      rw [after_eq, List.nil_append, List.head?_append_of_ne_nil _ present]
      exact found
    rw [rest_trimmed.first char found] at blank
    cases blank
  let layout : Layout :=
    { before, word, gap, rest := Text.trimEnd (Text.trimStart after), behind, before_blank
      word_solid, gap_blank, rest_trimmed, behind_blank, separated }
  refine ⟨layout, ?_⟩
  show before ++ (word ++ (gap ++ (Text.trimEnd (Text.trimStart after) ++ behind))) = _
  rw [← after_eq]

/-- What a line asks for is told by its word and its rest alone. -/
theorem Line.ofChars_line (layout : Layout) :
    Line.ofChars layout.line =
      if layout.rest.any Text.isLineBreak then .empty
      else
        match ofWord? (String.ofList layout.word) with
        | none => .unknown (String.ofList layout.word)
        | some command => .call command (argumentFor? command layout.rest) := by
  have trimmed := layout.trimStart_line
  have nonempty : layout.word.isEmpty = false := by
    simpa using layout.word_solid.nonempty
  have firstWord_eq := Text.firstWord_append layout.word_solid layout.blank_head_after
  have afterWord_eq := Text.afterWord_append layout.word_solid layout.blank_head_after
  cases called : ofWord? (String.ofList layout.word) with
  | none =>
      simp only [ofChars, trimmed, firstWord_eq, afterWord_eq, layout.trim_after, nonempty,
        Bool.false_or, called]
  | some command =>
      simp only [ofChars, trimmed, firstWord_eq, afterWord_eq, layout.trim_after, nonempty,
        Bool.false_or, called]

theorem Line.ofChars_of_blank {chars : List Char} (blank : Blank chars) :
    Line.ofChars chars = .empty := by
  rw [ofChars, Text.trimStart_of_blank blank]
  rfl

/-- Blanks around a line make no difference. -/
theorem Line.ofChars_padded {front back : List Char} (front_blank : Blank front)
    (back_blank : Blank back) (chars : List Char) :
    Line.ofChars (front ++ (chars ++ back)) = Line.ofChars chars := by
  by_cases blank : Blank chars
  · rw [ofChars_of_blank blank, ofChars_of_blank (front_blank.append (blank.append back_blank))]
  · obtain ⟨layout, rfl⟩ := exists_layout blank
    rw [← layout.line_padded front_blank back_blank, ofChars_line, ofChars_line]
    rfl

end Command

end TapeDebugger
