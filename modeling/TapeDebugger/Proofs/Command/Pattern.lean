import TapeDebugger.Proofs.Command.Layout

/-!
# The pattern of a line

A line is matched against a pattern: blanks, a word, perhaps blanks with an argument
that no line break divides, and blanks up to the end.  Each part can match in several
ways, which are tried in a fixed order, and what counts is the first way in which
everything matches.  It is the one that taking the line apart at its outer blanks and at
its first word leads to.
-/

namespace TapeDebugger

namespace Command

open Text (Blank)

namespace Pattern

/-! ## Ways to match -/

/-- A way to match at the front of a text: the characters that are taken and those left. -/
abbrev Way := List Char × List Char

/-- The way with one more character taken before. -/
def Way.cons (char : Char) (way : Way) : Way :=
  (char :: way.1, way.2)

/-- Takes characters of a kind, as many as there are or else fewer. -/
def greedy (holds : Char → Bool) : List Char → List Way
  | [] => [([], [])]
  | char :: rest =>
      if holds char then
        (greedy holds rest).map (Way.cons char) ++ [([], char :: rest)]
      else [([], char :: rest)]

/-- Takes at least one character of a kind, as many as there are or else fewer. -/
def repeated (holds : Char → Bool) : List Char → List Way
  | [] => []
  | char :: rest =>
      if holds char then (greedy holds rest).map (Way.cons char) else []

/-- Takes characters of a kind, none or else more. -/
def reluctant (holds : Char → Bool) : List Char → List Way
  | [] => [([], [])]
  | char :: rest =>
      ([], char :: rest) ::
        if holds char then (reluctant holds rest).map (Way.cons char) else []

/-- Takes blanks up to the end. -/
def ending (chars : List Char) : List Way :=
  (greedy Text.isBlank chars).filter fun way => way.2.isEmpty

/-- Takes blanks and an argument behind them or else nothing, with what is left then. -/
def argument (chars : List Char) : List (Option (List Char) × List Char) :=
  ((repeated Text.isBlank chars).flatMap fun gap =>
    (reluctant (fun char => !Text.isLineBreak char) gap.2).map fun way => (some way.1, way.2)) ++
  [(none, chars)]

/-- The arguments with which all that is behind the word can be matched. -/
def arguments (chars : List Char) : List (Option (List Char)) :=
  (argument chars).flatMap fun found => (ending found.2).map fun _ => found.1

/-- The word of a line, and the argument, which may be empty, if there is one. -/
structure Reading where
  word : List Char
  argument? : Option (List Char)
  deriving DecidableEq, Repr

/-- All ways to read a whole line, in the order in which they are tried. -/
def readings (chars : List Char) : List Reading :=
  (greedy Text.isBlank chars).flatMap fun front =>
    (repeated (fun char => !Text.isBlank char) front.2).flatMap fun word =>
      (arguments word.2).map fun argument? => ⟨word.1, argument?⟩

variable {α : Type} {holds : Char → Bool} {chars : List Char} {way : Way}

/-! ## What the ways take -/

/-- The way takes characters of the kind off the front of the text. -/
structure Way.Takes (holds : Char → Bool) (chars : List Char) (way : Way) : Prop where
  chars_eq : chars = way.1 ++ way.2
  all : ∀ char ∈ way.1, holds char = true

theorem Way.takes_nothing (holds : Char → Bool) (chars : List Char) :
    Way.Takes holds chars ([], chars) :=
  ⟨rfl, nofun⟩

theorem Way.Takes.cons {char : Char} (takes : way.Takes holds chars) (held : holds char = true) :
    (way.cons char).Takes holds (char :: chars) :=
  ⟨congrArg (char :: ·) takes.chars_eq, List.forall_mem_cons.mpr ⟨held, takes.all⟩⟩

theorem takes_of_greedy (found : way ∈ greedy holds chars) : way.Takes holds chars := by
  induction chars generalizing way with
  | nil => exact List.mem_singleton.mp found ▸ Way.takes_nothing holds []
  | cons char rest ih =>
      rw [greedy] at found
      split at found
      · rename_i held
        rcases List.mem_append.mp found with more | last
        · obtain ⟨shorter, inside, rfl⟩ := List.mem_map.mp more
          exact (ih inside).cons held
        · exact List.mem_singleton.mp last ▸ Way.takes_nothing holds _
      · exact List.mem_singleton.mp found ▸ Way.takes_nothing holds _

theorem takes_of_repeated (found : way ∈ repeated holds chars) : way.Takes holds chars := by
  cases chars with
  | nil => cases found
  | cons char rest =>
      rw [repeated] at found
      split at found
      · rename_i held
        obtain ⟨shorter, inside, rfl⟩ := List.mem_map.mp found
        exact (takes_of_greedy inside).cons held
      · cases found

theorem takes_of_reluctant (found : way ∈ reluctant holds chars) : way.Takes holds chars := by
  induction chars generalizing way with
  | nil => exact List.mem_singleton.mp found ▸ Way.takes_nothing holds []
  | cons char rest ih =>
      rw [reluctant] at found
      rcases List.mem_cons.mp found with rfl | more
      · exact Way.takes_nothing holds _
      · split at more
        · rename_i held
          obtain ⟨shorter, inside, rfl⟩ := List.mem_map.mp more
          exact (ih inside).cons held
        · cases more

/-! ## Which ways lead on -/

/-- The way leaves a character that it could have taken. -/
def Leaves (holds : Char → Bool) (way : Way) : Prop :=
  ∃ char ∈ way.2.head?, holds char = true

/-- Taking as many as there are comes first, and every other way leaves one more. -/
theorem greedy_eq (holds : Char → Bool) (chars : List Char) :
    ∃ others, greedy holds chars = (chars.takeWhile holds, chars.dropWhile holds) :: others ∧
      ∀ way ∈ others, Leaves holds way := by
  induction chars with
  | nil => exact ⟨[], rfl, nofun⟩
  | cons char rest ih =>
      by_cases held : holds char = true
      · obtain ⟨others, rest_eq, leaves⟩ := ih
        refine ⟨others.map (Way.cons char) ++ [([], char :: rest)], ?_, ?_⟩
        · rw [greedy, if_pos held, rest_eq, List.takeWhile_cons_of_pos held,
            List.dropWhile_cons_of_pos held]
          rfl
        · intro way found
          rcases List.mem_append.mp found with more | last
          · obtain ⟨shorter, inside, rfl⟩ := List.mem_map.mp more
            exact leaves shorter inside
          · rw [List.mem_singleton.mp last]
            exact ⟨char, rfl, held⟩
      · refine ⟨[], ?_, nofun⟩
        rw [greedy, if_neg held, List.takeWhile_cons_of_neg held, List.dropWhile_cons_of_neg held]

/-- If nothing can follow a way that leaves a character, all characters are taken. -/
theorem flatMap_greedy {next : Way → List α} (stuck : ∀ way, Leaves holds way → next way = [])
    (chars : List Char) :
    (greedy holds chars).flatMap next = next (chars.takeWhile holds, chars.dropWhile holds) := by
  obtain ⟨others, greedy_eq, leaves⟩ := greedy_eq holds chars
  have none : others.flatMap next = [] :=
    List.flatMap_eq_nil_iff.mpr fun way found => stuck way (leaves way found)
  rw [greedy_eq, List.flatMap_cons, none, List.append_nil]

theorem flatMap_repeated {next : Way → List α} (stuck : ∀ way, Leaves holds way → next way = [])
    {char : Char} (held : holds char = true) (rest : List Char) :
    (repeated holds (char :: rest)).flatMap next =
      next ((char :: rest).takeWhile holds, (char :: rest).dropWhile holds) := by
  rw [repeated, if_pos held, List.flatMap_map, List.takeWhile_cons_of_pos held,
    List.dropWhile_cons_of_pos held]
  exact flatMap_greedy (fun way leaves => stuck (way.cons char) leaves) rest

theorem ending_of_blank (blank : Blank chars) : ending chars = [(chars, [])] := by
  obtain ⟨others, greedy_eq, leaves⟩ := greedy_eq Text.isBlank chars
  have none : others.filter (fun way => way.2.isEmpty) = [] := by
    refine List.filter_eq_nil_iff.mpr fun way found empty => ?_
    obtain ⟨char, head, -⟩ := leaves way found
    rw [List.isEmpty_iff.mp empty] at head
    cases head
  rw [ending, greedy_eq, List.takeWhile_eq_self_iff.mpr blank, List.dropWhile_eq_nil_iff.mpr blank,
    List.filter_cons_of_pos rfl, none]

theorem blank_of_mem_ending (found : way ∈ ending chars) : Blank chars := by
  obtain ⟨taken, empty⟩ := List.mem_filter.mp found
  have takes := takes_of_greedy taken
  have chars_eq := takes.chars_eq
  rw [List.isEmpty_iff.mp empty, List.append_nil] at chars_eq
  exact chars_eq ▸ takes.all

theorem ending_of_not_blank (notBlank : ¬ Blank chars) : ending chars = [] :=
  List.eq_nil_iff_forall_not_mem.mpr fun _ found => notBlank (blank_of_mem_ending found)

/-! ## The argument -/

/-- Behind the word there are only blanks, or an argument between blanks. -/
theorem of_mem_arguments {argument? : Option (List Char)} (found : argument? ∈ arguments chars) :
    Blank chars ∨ ∃ gap taken behind, chars = gap ++ (taken ++ behind) ∧ Blank gap ∧
      (∀ char ∈ taken, Text.isLineBreak char = false) ∧ Blank behind := by
  obtain ⟨⟨argument?, left⟩, found, ended⟩ := List.mem_flatMap.mp found
  obtain ⟨last, ended, -⟩ := List.mem_map.mp ended
  have behind_blank := blank_of_mem_ending ended
  rcases List.mem_append.mp found with some | none
  · obtain ⟨gap, gap_found, some⟩ := List.mem_flatMap.mp some
    obtain ⟨taken, taken_found, some⟩ := List.mem_map.mp some
    cases some
    have gap_takes := takes_of_repeated gap_found
    have takes := takes_of_reluctant taken_found
    refine .inr ⟨gap.1, taken.1, taken.2, ?_, gap_takes.all, ?_, behind_blank⟩
    · rw [← takes.chars_eq]
      exact gap_takes.chars_eq
    · exact fun char inside => by simpa using takes.all char inside
  · cases List.mem_singleton.mp none
    exact .inl behind_blank

theorem arguments_of_word {char : Char} (solid : Text.isBlank char = false) (rest : List Char) :
    arguments (char :: rest) = [] := by
  have notBlank : ¬ Blank (char :: rest) := fun blank => by
    rw [blank char List.mem_cons_self] at solid
    cases solid
  have none : repeated Text.isBlank (char :: rest) = [] := by
    rw [repeated, if_neg (by simp [solid])]
  rw [arguments, argument, none, List.flatMap_nil, List.nil_append, List.flatMap_singleton,
    ending_of_not_blank notBlank]
  rfl

theorem head?_flatMap_ending {α : Type} (view : List Char → α) (ways : List Way) :
    (ways.flatMap fun way => (ending way.2).map fun _ => view way.1).head? =
      (ways.flatMap fun way => (ending way.2).map fun _ => way.1).head?.map view := by
  rw [← List.head?_map, List.map_flatMap]
  simp only [List.map_map, Function.comp_def]

/-- Of the arguments that start at a place, the first up to the last blanks is the shortest. -/
theorem head?_reluctant {rest behind : List Char}
    (unbroken : ∀ char ∈ rest, Text.isLineBreak char = false)
    (last : ∀ char ∈ rest.getLast?, Text.isBlank char = false) (blank : Blank behind) :
    ((reluctant (fun char => !Text.isLineBreak char) (rest ++ behind)).flatMap fun way =>
      (ending way.2).map fun _ => way.1).head? = some rest := by
  induction rest with
  | nil =>
      rw [List.nil_append]
      cases behind with
      | nil => rfl
      | cons char behind =>
          rw [reluctant, List.flatMap_cons, ending_of_blank blank]
          rfl
  | cons char rest ih =>
      have first : Text.isLineBreak char = false := unbroken char List.mem_cons_self
      have notBlank : ¬ Blank (char :: (rest ++ behind)) := by
        intro blank
        have solid := last _ (List.getLast?_eq_some_getLast (List.cons_ne_nil char rest))
        rw [blank _ (List.mem_append_left behind (List.getLast_mem (List.cons_ne_nil char rest)))]
          at solid
        cases solid
      have shorter := ih (fun other inside => unbroken other (List.mem_cons_of_mem char inside)) ?_
      · rw [List.cons_append, reluctant, List.flatMap_cons, ending_of_not_blank notBlank,
          if_pos (by simp [first]), List.flatMap_map]
        refine (head?_flatMap_ending (char :: ·) _).trans ?_
        rw [shorter]
        rfl
      · intro other found
        apply last other
        rw [List.getLast?_cons, Option.mem_def.mp found]
        rfl

/-- Behind a word that is followed by a blank, the first argument is what is between blanks. -/
theorem head?_arguments_of_blank {char : Char} {rest taken behind : List Char}
    (first : Text.isBlank char = true)
    (rest_eq : Text.trimStart (char :: rest) = taken ++ behind)
    (unbroken : ∀ char ∈ taken, Text.isLineBreak char = false)
    (last : ∀ char ∈ taken.getLast?, Text.isBlank char = false) (behind_blank : Blank behind) :
    (arguments (char :: rest)).head? = some (some taken) := by
  obtain ⟨others, greedy_eq, -⟩ := greedy_eq Text.isBlank rest
  have left_eq : rest.dropWhile Text.isBlank = taken ++ behind := by
    rw [← rest_eq, Text.trimStart, List.dropWhile_cons_of_pos first]
  have found := (head?_flatMap_ending some _).trans
    (congrArg (Option.map some) (head?_reluctant unbroken last behind_blank))
  rw [arguments, argument, repeated, if_pos first, greedy_eq, List.map_cons, List.flatMap_cons,
    left_eq, List.append_assoc, List.flatMap_append, List.flatMap_map, List.head?_append]
  exact congrArg (Option.or · _) found

/-- Behind the word of a line the first argument is the rest, unless a line break divides it. -/
theorem head?_arguments_after (layout : Layout) :
    (arguments layout.after).head? =
      if layout.rest.any Text.isLineBreak then none
      else some (if layout.after = [] then none else some layout.rest) := by
  by_cases broken : layout.rest.any Text.isLineBreak = true
  · obtain ⟨char, inside, breaks⟩ := List.any_eq_true.mp broken
    have nothing : arguments layout.after = [] := by
      refine List.eq_nil_iff_forall_not_mem.mpr fun argument? found => ?_
      rcases of_mem_arguments found with blank | ⟨gap, taken, behind, after_eq, gap_blank,
        unbroken, behind_blank⟩
      · rw [← layout.trim_after, Text.trimStart_of_blank blank] at inside
        cases inside
      · -- the rest is what is between the blanks of any argument
        obtain ⟨front, back, front_blank, trimmed, back_blank, taken_eq⟩ := Text.exists_trimmed taken
        generalize Text.trimEnd (Text.trimStart taken) = middle at trimmed taken_eq
        subst taken_eq
        have rest_eq : layout.rest = middle := by
          rw [← layout.trim_after, after_eq]
          simpa using Text.trim_append (gap_blank.append front_blank) trimmed
            (back_blank.append behind_blank)
        rw [rest_eq] at inside
        rw [unbroken char (List.mem_append_right front (List.mem_append_left back inside))] at breaks
        cases breaks
    rw [if_pos broken, nothing]
    rfl
  · rw [if_neg broken]
    cases after_eq : layout.after with
    | nil => rfl
    | cons char rest =>
        have first := layout.blank_head_after char (congrArg List.head? after_eq)
        obtain ⟨behind, behind_blank, trimmed⟩ := Text.exists_trimEnd (Text.trimStart layout.after)
        rw [layout.trim_after, after_eq] at trimmed
        rw [if_neg (List.cons_ne_nil char rest)]
        refine head?_arguments_of_blank first trimmed ?_ layout.rest_trimmed.last behind_blank
        simpa using broken

/-! ## The line -/

theorem arguments_of_leaves (leaves : Leaves (fun char => !Text.isBlank char) way) :
    arguments way.2 = [] := by
  obtain ⟨char, head, solid⟩ := leaves
  obtain ⟨rest, left_eq⟩ := List.head?_eq_some_iff.mp head
  rw [left_eq]
  exact arguments_of_word (by simpa using solid) rest

/-- Only the first word can be the word of a line, and only outer blanks come before it. -/
theorem readings_line (layout : Layout) :
    readings layout.line = (arguments layout.after).map fun argument? => ⟨layout.word, argument?⟩ := by
  have wordless : ∀ way : Way, Leaves Text.isBlank way →
      repeated (fun char => !Text.isBlank char) way.2 = [] := by
    rintro way ⟨char, head, blank⟩
    obtain ⟨rest, left_eq⟩ := List.head?_eq_some_iff.mp head
    rw [left_eq, repeated, if_neg (by simp [blank])]
  have front := layout.trimStart_line
  obtain ⟨char, rest, word_eq⟩ := List.exists_cons_of_ne_nil layout.word_solid.nonempty
  rw [readings, flatMap_greedy fun way leaves => by rw [wordless way leaves, List.flatMap_nil]]
  show (repeated _ (Text.trimStart layout.line)).flatMap _ = _
  rw [front, word_eq, List.cons_append, flatMap_repeated (fun way leaves => by
    rw [arguments_of_leaves leaves, List.map_nil])
      (by simp [layout.word_solid.solid char (word_eq ▸ List.mem_cons_self)])]
  show (arguments (Text.afterWord (char :: (rest ++ layout.after)))).map
    (fun argument? => (⟨Text.firstWord (char :: (rest ++ layout.after)), argument?⟩ : Reading)) = _
  rw [← List.cons_append, ← word_eq,
    Text.firstWord_append layout.word_solid layout.blank_head_after,
    Text.afterWord_append layout.word_solid layout.blank_head_after]

theorem readings_of_blank (blank : Blank chars) : readings chars = [] := by
  refine List.flatMap_eq_nil_iff.mpr fun front found => ?_
  have left_blank : Blank front.2 := fun char inside => by
    apply blank
    rw [(takes_of_greedy found).chars_eq]
    exact List.mem_append_right _ inside
  cases left_eq : front.2 with
  | nil => rfl
  | cons char rest =>
      rw [left_eq] at left_blank
      rw [repeated, if_neg (by simp [left_blank char List.mem_cons_self]), List.flatMap_nil]

end Pattern

namespace Line

/-- What a line asks for that can be read in a way, or in none. -/
def ofReading : Option Pattern.Reading → Line
  | none => .empty
  | some reading =>
      match ofWord? (String.ofList reading.word) with
      | none => .unknown (String.ofList reading.word)
      | some command => .call command (argumentFor? command (reading.argument?.getD []))

/-- A line asks for what the first way to read it says. -/
theorem ofChars_eq_ofReading (chars : List Char) :
    ofChars chars = ofReading (Pattern.readings chars).head? := by
  by_cases blank : Blank chars
  · rw [ofChars_of_blank blank, Pattern.readings_of_blank blank]
    rfl
  · obtain ⟨layout, rfl⟩ := exists_layout blank
    rw [ofChars_line, Pattern.readings_line, List.head?_map, Pattern.head?_arguments_after]
    by_cases broken : layout.rest.any Text.isLineBreak = true
    · rw [if_pos broken, if_pos broken]
      rfl
    · have argument_eq : (if layout.after = [] then none else some layout.rest).getD [] =
          layout.rest := by
        split
        · rename_i nothing
          have rest_eq := layout.trim_after
          rw [nothing] at rest_eq
          exact rest_eq
        · rfl
      rw [if_neg broken, if_neg broken, Option.map_some, ofReading]
      generalize (if layout.after = [] then none else some layout.rest).getD [] = shown
        at argument_eq ⊢
      subst argument_eq
      rfl

example : (Pattern.readings "n  5 ".toList).map Pattern.Reading.argument? =
    [some ['5'], some ['5', ' '], some [' ', '5'], some [' ', '5', ' ']] := by
  decide +kernel

end Line

end Command

end TapeDebugger
