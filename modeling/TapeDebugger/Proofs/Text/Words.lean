import Mathlib.Data.List.Basic
import Mathlib.Data.List.TakeWhile
import TapeDebugger.Text.Blank

/-!
# Words

Blanks divide a text into words.  Blanks at either end of a text and further blanks
between two words make no difference to what its words are.
-/

namespace TapeDebugger

namespace Text

/-! ## Blanks and words -/

/-- Characters that are blank, perhaps none at all. -/
def Blank (chars : List Char) : Prop :=
  ∀ char ∈ chars, isBlank char = true

/-- A word has a character, and none of its characters is blank. -/
structure Word (chars : List Char) : Prop where
  nonempty : chars ≠ []
  solid : ∀ char ∈ chars, isBlank char = false

/-- Characters without a blank at either end. -/
structure Trimmed (chars : List Char) : Prop where
  first : ∀ char ∈ chars.head?, isBlank char = false
  last : ∀ char ∈ chars.getLast?, isBlank char = false

instance (chars : List Char) : Decidable (Blank chars) :=
  decidable_of_iff (chars.all isBlank = true) List.all_eq_true

instance (chars : List Char) : Decidable (Word chars) :=
  decidable_of_iff (chars ≠ [] ∧ chars.all (fun char => !isBlank char) = true)
    ⟨fun ⟨nonempty, solid⟩ => ⟨nonempty, by simpa using solid⟩,
      fun word => ⟨word.nonempty, by simpa using word.solid⟩⟩

theorem all_not_isBlank_iff (char? : Option Char) :
    char?.all (fun char => !isBlank char) = true ↔ ∀ char ∈ char?, isBlank char = false := by
  simp [Option.all_eq_true]

instance (chars : List Char) : Decidable (Trimmed chars) :=
  decidable_of_iff (chars.head?.all (fun char => !isBlank char) = true ∧
      chars.getLast?.all (fun char => !isBlank char) = true)
    ⟨fun ⟨first, last⟩ => ⟨(all_not_isBlank_iff _).mp first, (all_not_isBlank_iff _).mp last⟩,
      fun trimmed => ⟨(all_not_isBlank_iff _).mpr trimmed.first,
        (all_not_isBlank_iff _).mpr trimmed.last⟩⟩

theorem Word.trimmed {chars : List Char} (word : Word chars) : Trimmed chars :=
  ⟨fun char found => word.solid char (List.mem_of_mem_head? found),
    fun char found => word.solid char (List.mem_of_mem_getLast? found)⟩

theorem Blank.reverse {chars : List Char} (blank : Blank chars) : Blank chars.reverse :=
  fun char found => blank char (List.mem_reverse.mp found)

theorem Blank.append {first second : List Char} (blank : Blank first) (others : Blank second) :
    Blank (first ++ second) :=
  List.forall_mem_append.mpr ⟨blank, others⟩

theorem Trimmed.reverse {chars : List Char} (trimmed : Trimmed chars) : Trimmed chars.reverse := by
  refine ⟨?_, ?_⟩
  · rw [List.head?_reverse]
    exact trimmed.last
  · rw [List.getLast?_reverse]
    exact trimmed.first

/-- Not all is blank before a blank inside a text that is trimmed. -/
theorem Trimmed.not_blank_before {before behind : List Char} {blank : Char}
    (trimmed : Trimmed (before ++ blank :: behind)) (blank_blank : isBlank blank = true) :
    ¬ Blank before := by
  intro before_blank
  cases before with
  | nil =>
      rw [trimmed.first blank rfl] at blank_blank
      cases blank_blank
  | cons char before =>
      have solid := trimmed.first char rfl
      rw [before_blank char List.mem_cons_self] at solid
      cases solid

theorem Trimmed.not_blank_behind {before behind : List Char} {blank : Char}
    (trimmed : Trimmed (before ++ blank :: behind)) (blank_blank : isBlank blank = true) :
    ¬ Blank behind := by
  have reversed := trimmed.reverse
  rw [List.reverse_append, List.reverse_cons, List.append_assoc] at reversed
  exact fun behind_blank => reversed.not_blank_before blank_blank behind_blank.reverse

/-! ## Trimming -/

theorem trimStart_of_head {chars : List Char}
    (first : ∀ char ∈ chars.head?, isBlank char = false) : trimStart chars = chars := by
  cases chars with
  | nil => rfl
  | cons char rest => exact List.dropWhile_cons_of_neg (Bool.not_eq_true _ ▸ first char rfl)

theorem trimStart_append {before : List Char} (blank : Blank before) (chars : List Char) :
    trimStart (before ++ chars) = trimStart chars :=
  List.dropWhile_append_of_pos blank

theorem trimStart_of_blank {chars : List Char} (blank : Blank chars) : trimStart chars = [] :=
  List.dropWhile_eq_nil_iff.mpr blank

theorem trimEnd_append {behind : List Char} (chars : List Char) (blank : Blank behind) :
    trimEnd (chars ++ behind) = trimEnd chars := by
  rw [trimEnd, trimEnd, List.reverse_append]
  exact congrArg List.reverse (trimStart_append blank.reverse chars.reverse)

theorem trimEnd_of_last {chars : List Char}
    (last : ∀ char ∈ chars.getLast?, isBlank char = false) : trimEnd chars = chars := by
  rw [← List.head?_reverse] at last
  have same := congrArg List.reverse (trimStart_of_head last)
  rwa [List.reverse_reverse] at same

/-- What is trimmed comes out of trimming, whatever blanks there are around it. -/
theorem trim_append {before middle behind : List Char} (before_blank : Blank before)
    (trimmed : Trimmed middle) (behind_blank : Blank behind) :
    trimEnd (trimStart (before ++ (middle ++ behind))) = middle := by
  rw [trimStart_append before_blank]
  by_cases none : middle = []
  · rw [none, List.nil_append, trimStart_of_blank behind_blank]
    rfl
  · have head_eq : (middle ++ behind).head? = middle.head? := List.head?_append_of_ne_nil _ none
    rw [trimStart_of_head (head_eq ▸ trimmed.first), trimEnd_append _ behind_blank,
      trimEnd_of_last trimmed.last]

/-- What is left behind all characters of a kind does not begin with one of them. -/
theorem head_dropWhile {holds : Char → Bool} {chars : List Char} {char : Char}
    (found : char ∈ (chars.dropWhile holds).head?) : holds char = false := by
  have head := List.head?_dropWhile_not holds chars
  rwa [Option.mem_def.mp found] at head

/-- Only blanks are cut off the end of a text. -/
theorem exists_trimEnd (chars : List Char) :
    ∃ behind, Blank behind ∧ chars = trimEnd chars ++ behind := by
  refine ⟨(chars.reverse.takeWhile isBlank).reverse,
    Blank.reverse fun char => List.mem_takeWhile_imp, ?_⟩
  rw [trimEnd, ← List.reverse_append, List.takeWhile_append_dropWhile, List.reverse_reverse]

/-- Every text is trimmed between the blanks at its ends. -/
theorem exists_trimmed (chars : List Char) :
    ∃ before behind, Blank before ∧ Trimmed (trimEnd (trimStart chars)) ∧ Blank behind ∧
      chars = before ++ (trimEnd (trimStart chars) ++ behind) := by
  obtain ⟨behind, behind_blank, split⟩ := exists_trimEnd (trimStart chars)
  refine ⟨chars.takeWhile isBlank, behind, fun char => List.mem_takeWhile_imp, ⟨?_, ?_⟩,
    behind_blank, ?_⟩
  · intro char found
    have head : char ∈ (trimStart chars).head? := by
      rw [split, List.head?_append, Option.mem_def.mp found]
      rfl
    exact head_dropWhile head
  · intro char found
    rw [trimEnd, List.getLast?_reverse] at found
    exact head_dropWhile found
  · rw [← split]
    exact List.takeWhile_append_dropWhile.symm

theorem firstWord_append {word after : List Char} (solid : Word word)
    (first : ∀ char ∈ after.head?, isBlank char = true) : firstWord (word ++ after) = word := by
  have none : firstWord after = [] := by
    cases after with
    | nil => rfl
    | cons char rest => exact List.takeWhile_cons_of_neg (by simp [first char rfl])
  rw [firstWord, List.takeWhile_append_of_pos (by simpa using solid.solid)]
  exact (congrArg (word ++ ·) none).trans (List.append_nil word)

theorem afterWord_append {word after : List Char} (solid : Word word)
    (first : ∀ char ∈ after.head?, isBlank char = true) : afterWord (word ++ after) = after := by
  have whole := firstWord_append_afterWord (word ++ after)
  rw [firstWord_append solid first] at whole
  exact List.append_cancel_left whole

/-- Whatever is not blank has a first word, and a blank or nothing behind it. -/
theorem exists_word {chars : List Char} (notBlank : ¬ Blank chars) :
    ∃ before word after, Blank before ∧ Word word ∧
      (∀ char ∈ after.head?, isBlank char = true) ∧ chars = before ++ (word ++ after) := by
  refine ⟨chars.takeWhile isBlank, firstWord (trimStart chars), afterWord (trimStart chars),
    fun char => List.mem_takeWhile_imp, ⟨?_, ?_⟩, ?_, ?_⟩
  · intro wordless
    cases trimmed : trimStart chars with
    | nil => exact notBlank (List.dropWhile_eq_nil_iff.mp trimmed)
    | cons char rest =>
        have solid : isBlank char = false := head_dropWhile (congrArg List.head? trimmed)
        rw [trimmed, firstWord, List.takeWhile_cons_of_pos (by simp [solid])] at wordless
        cases wordless
  · intro char found
    simpa using List.mem_takeWhile_imp found
  · intro char found
    simpa using head_dropWhile found
  · rw [firstWord_append_afterWord]
    exact List.takeWhile_append_dropWhile.symm

/-! ## All words -/

/-- The words of a text: its longest stretches without a blank, in their order. -/
def words (chars : List Char) : List (List Char) :=
  (chars.splitOnP isBlank).filter fun stretch => !stretch.isEmpty

variable {before word after behind chars : List Char}

/-- No word goes across a blank. -/
theorem words_append_cons {blank : Char} (blank_blank : isBlank blank = true)
    (before behind : List Char) :
    words (before ++ blank :: behind) = words before ++ words behind := by
  rw [words, List.splitOnP_append_cons _ _ blank_blank, List.filter_append]
  rfl

theorem words_of_word (word : Word chars) : words chars = [chars] := by
  rw [words, List.splitOnP_eq_singleton word.solid]
  exact List.filter_cons_of_pos (by simpa using word.nonempty)

theorem words_blank_append (blank : Blank before) (chars : List Char) :
    words (before ++ chars) = words chars := by
  induction before with
  | nil => rfl
  | cons char before ih =>
      obtain ⟨first, others⟩ := List.forall_mem_cons.mp blank
      exact (words_append_cons first [] (before ++ chars)).trans (ih others)

theorem words_of_blank (blank : Blank chars) : words chars = [] := by
  have same := words_blank_append blank []
  rwa [List.append_nil] at same

theorem words_append_blank (chars : List Char) (blank : Blank behind) :
    words (chars ++ behind) = words chars := by
  cases behind with
  | nil => rw [List.append_nil]
  | cons char behind =>
      obtain ⟨first, others⟩ := List.forall_mem_cons.mp blank
      rw [words_append_cons first, words_of_blank others, List.append_nil]

/-- A word that a blank follows is the first of the words. -/
theorem words_word_append (solid : Word word) (first : ∀ char ∈ after.head?, isBlank char = true) :
    words (word ++ after) = word :: words after := by
  cases after with
  | nil =>
      rw [List.append_nil, words_of_word solid]
      rfl
  | cons char after =>
      have blank := first char rfl
      rw [words_append_cons blank, words_of_word solid]
      exact congrArg (word :: ·) (words_append_cons blank [] after).symm

/-- What begins with a character that is not blank begins with the first of its words. -/
theorem words_of_head (nonempty : chars ≠ []) (first : ∀ char ∈ chars.head?, isBlank char = false) :
    words chars = firstWord chars :: words (afterWord chars) := by
  obtain ⟨char, rest, rfl⟩ := List.exists_cons_of_ne_nil nonempty
  have solid : isBlank char = false := first char rfl
  have word : Word (firstWord (char :: rest)) := by
    refine ⟨?_, fun other found => by simpa using List.mem_takeWhile_imp found⟩
    rw [firstWord, List.takeWhile_cons_of_pos (by simp [solid])]
    exact List.cons_ne_nil _ _
  have blank : ∀ other ∈ (afterWord (char :: rest)).head?, isBlank other = true :=
    fun other found => by simpa using head_dropWhile found
  rw [← words_word_append word blank, firstWord_append_afterWord]

/-- Only blanks have no word. -/
theorem words_eq_nil_iff : words chars = [] ↔ Blank chars := by
  constructor
  · intro wordless
    by_contra notBlank
    obtain ⟨before, word, after, blank, solid, first, rfl⟩ := exists_word notBlank
    rw [words_blank_append blank, words_word_append solid first] at wordless
    cases wordless
  · exact words_of_blank

example : words "\u3000 input\tx  y\u00a0".toList = ["input".toList, ['x'], ['y']] := by
  decide +kernel

end Text

end TapeDebugger
