import TapeDebugger.Proofs.Command.Pattern

/-!
# Lines and their words

What a line asks for can be told from its words.  The first of them calls a command, and
the second is its argument; only the text for the program goes on to the last of them.
The exception is a line that a line break divides behind its second word: it asks for
nothing.
-/

namespace TapeDebugger

namespace Command

open Text (Blank words)

/-! ## Called commands -/

/-- The word calls the command: it is its name or its letter, exactly. -/
def CalledBy (command : Command) (word : List Char) : Prop :=
  String.ofList word = command.name ∨ String.ofList word = command.abbreviation

/-- No other command has the name or the letter. -/
theorem ofWord?_name (command : Command) :
    ofWord? command.name = some command ∧ ofWord? command.abbreviation = some command := by
  cases command <;> decide +kernel

theorem ofWord?_eq_some_iff {command : Command} {word : List Char} :
    ofWord? (String.ofList word) = some command ↔ command.CalledBy word := by
  constructor
  · intro found
    have called := List.find?_some found
    simp only [Bool.or_eq_true, beq_iff_eq] at called
    exact called.imp Eq.symm Eq.symm
  · rintro (named | abbreviated)
    · rw [named, command.ofWord?_name.1]
    · rw [abbreviated, command.ofWord?_name.2]

theorem ofWord?_eq_none_iff {word : List Char} :
    ofWord? (String.ofList word) = none ↔ ∀ command : Command, ¬ command.CalledBy word := by
  simp only [Option.eq_none_iff_forall_ne_some, ne_eq, ofWord?_eq_some_iff]

theorem takesRest_iff {command : Command} : command.takesRest = true ↔ command = .input := by
  cases command <;> decide

namespace Line

/-! ## Divided lines -/

/-- A line break stands behind the second word, and another word behind it. -/
def Divided (chars : List Char) : Prop :=
  ∃ before lineBreak behind, chars = before ++ lineBreak :: behind ∧
    Text.isLineBreak lineBreak = true ∧ 2 ≤ (words before).length ∧ words behind ≠ []

theorem not_divided_of_unbroken {chars : List Char}
    (unbroken : ∀ char ∈ chars, Text.isLineBreak char = false) : ¬ Divided chars := by
  rintro ⟨before, lineBreak, behind, rfl, breaks, -, -⟩
  rw [unbroken lineBreak (List.mem_append_right before List.mem_cons_self)] at breaks
  cases breaks

/-- What stands before the rest of a line has one word, so no line break in it divides. -/
theorem words_front (layout : Layout) :
    words (layout.before ++ (layout.word ++ layout.gap)) = [layout.word] := by
  rw [Text.words_blank_append layout.before_blank, Text.words_append_blank _ layout.gap_blank,
    Text.words_of_word layout.word_solid]

/-- A line break that divides a line is neither before its rest nor behind it. -/
theorem mem_rest_of_divided {layout : Layout} (divided : Divided layout.line) :
    ∃ char ∈ layout.rest, Text.isLineBreak char = true := by
  obtain ⟨before, lineBreak, behind, line_eq, breaks, two, more⟩ := divided
  have notBehind : ∀ front, layout.behind ≠ front ++ lineBreak :: behind := by
    intro front behind_eq
    have behind_blank := behind_eq ▸ layout.behind_blank
    exact more (Text.words_of_blank (List.forall_mem_cons.mp
      (List.forall_mem_append.mp behind_blank).2).2)
  have notFront : ∀ back, layout.before ++ (layout.word ++ layout.gap) ≠
      before ++ lineBreak :: back := by
    intro back front_eq
    have all := Text.words_append_cons (Text.isBlank_of_isLineBreak breaks) before back
    rw [← front_eq, words_front] at all
    have count := congrArg List.length all
    rw [List.length_append, List.length_singleton] at count
    omega
  have whole : (layout.before ++ (layout.word ++ layout.gap)) ++ (layout.rest ++ layout.behind) =
      before ++ lineBreak :: behind := by
    rw [← line_eq]
    simp only [Layout.line, Layout.after, List.append_assoc]
  -- the line break is in front of the rest, inside it or behind it
  rcases List.append_eq_append_iff.mp whole with ⟨inner, -, inner_eq⟩ | ⟨inner, front_eq, cons_eq⟩
  · rcases List.append_eq_append_iff.mp inner_eq with ⟨front, -, behind_eq⟩ | ⟨last, rest_eq, cons_eq⟩
    · exact absurd behind_eq (notBehind front)
    · rcases List.cons_eq_append_iff.mp cons_eq with ⟨-, behind_eq⟩ | ⟨back, rfl, -⟩
      · exact absurd behind_eq (notBehind [])
      · exact ⟨lineBreak, rest_eq ▸ List.mem_append_right inner List.mem_cons_self, breaks⟩
  · rcases List.cons_eq_append_iff.mp cons_eq with ⟨rfl, -⟩ | ⟨back, rfl, -⟩
    · rw [List.append_nil] at front_eq
      rw [← front_eq, words_front, List.length_singleton] at two
      omega
    · exact absurd front_eq (notFront back)

/-- The rest is trimmed, so there are words on both sides of a line break inside it. -/
theorem divided_of_mem_rest {layout : Layout} {char : Char} (inside : char ∈ layout.rest)
    (breaks : Text.isLineBreak char = true) : Divided layout.line := by
  obtain ⟨first, second, rest_eq⟩ := List.append_of_mem inside
  have blank := Text.isBlank_of_isLineBreak breaks
  have trimmed := rest_eq ▸ layout.rest_trimmed
  have first_words : words first ≠ [] :=
    fun wordless => trimmed.not_blank_before blank (Text.words_eq_nil_iff.mp wordless)
  have second_words : words second ≠ [] :=
    fun wordless => trimmed.not_blank_behind blank (Text.words_eq_nil_iff.mp wordless)
  have gap_head : ∀ other ∈ (layout.gap ++ first).head?, Text.isBlank other = true := by
    rw [List.head?_append_of_ne_nil _ (layout.separated (List.ne_nil_of_mem inside))]
    exact fun other found => layout.gap_blank other (List.mem_of_mem_head? found)
  refine ⟨layout.before ++ (layout.word ++ (layout.gap ++ first)), char,
    second ++ layout.behind, ?_, breaks, ?_, ?_⟩
  · simp only [Layout.line, Layout.after, rest_eq, List.append_assoc, List.cons_append]
  · rw [Text.words_blank_append layout.before_blank,
      Text.words_word_append layout.word_solid gap_head,
      Text.words_blank_append layout.gap_blank, List.length_cons]
    exact Nat.succ_le_succ (List.length_pos_iff.mpr first_words)
  · rwa [Text.words_append_blank _ layout.behind_blank]

/-- A line is divided just if a line break is inside its rest. -/
theorem divided_line_iff (layout : Layout) :
    Divided layout.line ↔ layout.rest.any Text.isLineBreak = true := by
  rw [List.any_eq_true]
  exact ⟨mem_rest_of_divided, fun ⟨_, inside, breaks⟩ => divided_of_mem_rest inside breaks⟩

/-! ## What a line asks for -/

/-- What the words of a line ask for. -/
inductive Asks (chars : List Char) : Line → Prop where
  | empty (wordless : words chars = []) : Asks chars .empty
  | unknown {word : List Char} {others : List (List Char)} (words_eq : words chars = word :: others)
      (uncalled : ∀ command : Command, ¬ command.CalledBy word) :
      Asks chars (.unknown (String.ofList word))
  | bare {word : List Char} {command : Command} (words_eq : words chars = [word])
      (called : command.CalledBy word) : Asks chars (.call command none)
  | word {word argument : List Char} {others : List (List Char)} {command : Command}
      (words_eq : words chars = word :: argument :: others) (called : command.CalledBy word)
      (other : command ≠ .input) : Asks chars (.call command (some (String.ofList argument)))
  /-- The text goes from the second word to the last one. -/
  | text {layout : Layout} {argument : List Char} {others : List (List Char)}
      (line_eq : layout.line = chars) (rest_eq : words layout.rest = argument :: others)
      (called : Command.input.CalledBy layout.word) :
      Asks chars (.call .input (some (String.ofList layout.rest)))

/-- The words of a line that has any. -/
theorem exists_layout_of_words {chars word : List Char} {others : List (List Char)}
    (words_eq : words chars = word :: others) :
    ∃ layout : Layout, layout.line = chars ∧ layout.word = word ∧ words layout.rest = others := by
  have notBlank : ¬ Blank chars := fun blank => by
    rw [Text.words_of_blank blank] at words_eq
    cases words_eq
  obtain ⟨layout, rfl⟩ := exists_layout notBlank
  rw [layout.words_line] at words_eq
  obtain ⟨word_eq, rest_eq⟩ := List.cons_eq_cons.mp words_eq
  exact ⟨layout, rfl, word_eq, rest_eq⟩

theorem argumentFor?_of_wordless (command : Command) {layout : Layout}
    (rest_eq : words layout.rest = []) : argumentFor? command layout.rest = none := by
  have nothing : layout.rest = [] := by
    by_contra present
    obtain ⟨char, found⟩ := Option.isSome_iff_exists.mp (List.isSome_head?.mpr present)
    have solid := layout.rest_trimmed.first char found
    rw [Text.words_eq_nil_iff.mp rest_eq char (List.mem_of_mem_head? found)] at solid
    cases solid
  rw [nothing]
  rfl

theorem argumentFor?_of_words (command : Command) {layout : Layout} {argument : List Char}
    {others : List (List Char)} (rest_eq : words layout.rest = argument :: others) :
    argumentFor? command layout.rest =
      some (String.ofList (if command = .input then layout.rest else argument)) := by
  have present : layout.rest ≠ [] := by
    intro nothing
    rw [nothing] at rest_eq
    cases rest_eq
  rw [Text.words_of_head present layout.rest_trimmed.first] at rest_eq
  rw [argumentFor?, if_neg (by simpa using present), ← (List.cons_eq_cons.mp rest_eq).1]
  by_cases text : command = .input
  · rw [if_pos text, if_pos (takesRest_iff.mpr text)]
  · rw [if_neg text, if_neg (mt takesRest_iff.mp text)]

/-- Whatever the words of a line are, they ask for something. -/
theorem exists_asks (chars : List Char) : ∃ asked, Asks chars asked := by
  rcases words_eq : words chars with _ | ⟨word, others⟩
  · exact ⟨_, .empty words_eq⟩
  · by_cases uncalled : ∀ command : Command, ¬ command.CalledBy word
    · exact ⟨_, .unknown words_eq uncalled⟩
    · obtain ⟨command, called⟩ := not_forall_not.mp uncalled
      cases others with
      | nil => exact ⟨_, .bare words_eq called⟩
      | cons argument others =>
          by_cases text : command = .input
          · obtain ⟨layout, line_eq, rfl, rest_eq⟩ := exists_layout_of_words words_eq
            exact ⟨_, .text line_eq rest_eq (text ▸ called)⟩
          · exact ⟨_, .word words_eq called text⟩

/-- A line that is not divided is taken for what its words ask for. -/
theorem ofChars_of_asks {chars : List Char} {asked : Line} (undivided : ¬ Divided chars)
    (asks : Asks chars asked) : ofChars chars = asked := by
  have unbroken : ∀ {layout : Layout}, layout.line = chars →
      ¬ layout.rest.any Text.isLineBreak = true := by
    rintro layout rfl broken
    exact undivided ((divided_line_iff layout).mpr broken)
  cases asks with
  | empty wordless => exact ofChars_of_blank (Text.words_eq_nil_iff.mp wordless)
  | unknown words_eq uncalled =>
      obtain ⟨layout, rfl, rfl, -⟩ := exists_layout_of_words words_eq
      rw [ofChars_line, if_neg (unbroken rfl), ofWord?_eq_none_iff.mpr uncalled]
  | bare words_eq called =>
      obtain ⟨layout, rfl, rfl, rest_eq⟩ := exists_layout_of_words words_eq
      rw [ofChars_line, if_neg (unbroken rfl), ofWord?_eq_some_iff.mpr called]
      exact congrArg (Line.call _) (argumentFor?_of_wordless _ rest_eq)
  | @word _ _ _ command words_eq called other =>
      obtain ⟨layout, rfl, rfl, rest_eq⟩ := exists_layout_of_words words_eq
      rw [ofChars_line, if_neg (unbroken rfl), ofWord?_eq_some_iff.mpr called]
      refine congrArg (Line.call command) ((argumentFor?_of_words command rest_eq).trans ?_)
      rw [if_neg other]
  | text line_eq rest_eq called =>
      subst line_eq
      rw [ofChars_line, if_neg (unbroken rfl), ofWord?_eq_some_iff.mpr called]
      exact congrArg (Line.call .input) (argumentFor?_of_words .input rest_eq)

theorem ofChars_eq_iff {chars : List Char} (undivided : ¬ Divided chars) (asked : Line) :
    ofChars chars = asked ↔ Asks chars asked := by
  constructor
  · rintro rfl
    obtain ⟨asked, asks⟩ := exists_asks chars
    rwa [ofChars_of_asks undivided asks]
  · exact ofChars_of_asks undivided

theorem ofChars_of_divided {chars : List Char} (divided : Divided chars) :
    ofChars chars = .empty := by
  by_cases blank : Blank chars
  · exact ofChars_of_blank blank
  · obtain ⟨layout, rfl⟩ := exists_layout blank
    rw [ofChars_line, if_pos ((divided_line_iff layout).mp divided)]

/--
A line without a line break is taken for what its words ask for and for nothing else,
blanks around it make no difference, and it is the first way to match the pattern that
counts.
-/
theorem parse_by_words (line : String)
    (unbroken : ∀ char ∈ line.toList, Text.isLineBreak char = false) :
    (∀ asked, parse line = asked ↔ Asks line.toList asked) ∧
    (∀ front back : String, Blank front.toList → Blank back.toList →
      parse (front ++ line ++ back) = parse line) ∧
    parse line = ofReading (Pattern.readings line.toList).head? := by
  refine ⟨ofChars_eq_iff (not_divided_of_unbroken unbroken), ?_,
    ofChars_eq_ofReading line.toList⟩
  intro front back front_blank back_blank
  rw [parse, String.toList_append, String.toList_append, List.append_assoc]
  exact ofChars_padded front_blank back_blank line.toList

/-- The text keeps the blanks inside it and loses those around it. -/
theorem parse_by_words_text :
    (∀ char ∈ "\u3000input \t a  b\u00a0".toList, Text.isLineBreak char = false) ∧
    parse "\u3000input \t a  b\u00a0" = .call .input (some "a  b") ∧
    Asks "\u3000input \t a  b\u00a0".toList (.call .input (some "a  b")) ∧
    parse ("\ufeff" ++ "\u3000input \t a  b\u00a0" ++ "\t") = .call .input (some "a  b") := by
  have none : "\u3000input \t a  b\u00a0".toList.any Text.isLineBreak = false := by decide +kernel
  have unbroken : ∀ char ∈ "\u3000input \t a  b\u00a0".toList, Text.isLineBreak char = false :=
    fun char inside => Bool.eq_false_iff.mpr (List.any_eq_false.mp none char inside)
  have asked : parse "\u3000input \t a  b\u00a0" = .call .input (some "a  b") := by
    decide +kernel
  obtain ⟨by_words, padded, -⟩ := parse_by_words "\u3000input \t a  b\u00a0" unbroken
  refine ⟨unbroken, asked, (by_words _).mp asked, ?_⟩
  rw [padded "\ufeff" "\t" (by decide +kernel) (by decide +kernel), asked]

end Line

end Command

end TapeDebugger
