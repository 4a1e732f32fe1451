/-!
# Blank characters

Command lines are divided at blanks.  A line break is a blank that moreover
ends a line; an argument may hold blanks but no line break.
-/

namespace TapeDebugger

namespace Text

/-- The characters that end a line of text. -/
def isLineBreak (char : Char) : Bool :=
  char = '\n' ∨ char = '\r' ∨ char = '\u2028' ∨ char = '\u2029'

/--
The blank characters: the controls from tab to carriage return, every space
separator, both separators of lines and paragraphs, and the byte order mark.
-/
def isBlank (char : Char) : Bool :=
  ('\t' ≤ char ∧ char ≤ '\r') ∨ char = ' ' ∨ char = '\u00a0' ∨ char = '\u1680' ∨
    ('\u2000' ≤ char ∧ char ≤ '\u200a') ∨ char = '\u2028' ∨ char = '\u2029' ∨
    char = '\u202f' ∨ char = '\u205f' ∨ char = '\u3000' ∨ char = '\ufeff'

theorem isBlank_of_isLineBreak {char : Char} (h : isLineBreak char = true) :
    isBlank char = true := by
  simp only [isLineBreak, decide_eq_true_eq] at h
  rcases h with rfl | rfl | rfl | rfl <;> decide

def trimStart (chars : List Char) : List Char :=
  chars.dropWhile isBlank

def trimEnd (chars : List Char) : List Char :=
  (chars.reverse.dropWhile isBlank).reverse

def firstWord (chars : List Char) : List Char :=
  chars.takeWhile fun char => !isBlank char

/-- What follows the first word, from its blank on. -/
def afterWord (chars : List Char) : List Char :=
  chars.dropWhile fun char => !isBlank char

/-- The first word and what follows it make up the text. -/
theorem firstWord_append_afterWord (chars : List Char) :
    firstWord chars ++ afterWord chars = chars :=
  List.takeWhile_append_dropWhile

end Text

end TapeDebugger
