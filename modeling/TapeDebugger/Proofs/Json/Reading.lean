import TapeDebugger.Proofs.Json.Grammar

/-!
# Reading by the grammar

The reader takes exactly the texts of the grammar, each for the value that it spells.  What
it reads from the front of a text is a value, and a value is read to its end whatever
follows, unless that goes on with a numeral.  The budget bounds how deep it nests and how
many items it reads; twice as many as there are characters is always enough.
-/

namespace TapeDebugger

namespace Json

open Number (nearest)

variable {chars rest before behind : List Char} {budget : Nat} {json : Json}

/-! ## Spaces and words -/

theorem exists_spaces (chars : List Char) :
    ∃ before, Spaces before ∧ chars = before ++ skipSpaces chars :=
  ⟨chars.takeWhile isSpace, fun _ => List.mem_takeWhile_imp,
    List.takeWhile_append_dropWhile.symm⟩

theorem skipSpaces_append {char : Char} (spaces : Spaces before)
    (solid : isSpace char = false) (rest : List Char) :
    skipSpaces (before ++ char :: rest) = char :: rest := by
  rw [skipSpaces, List.dropWhile_append_of_pos spaces,
    List.dropWhile_cons_of_neg (Bool.eq_false_iff.mp solid)]

theorem skipSpaces_eq_nil_iff : skipSpaces chars = [] ↔ Spaces chars :=
  List.dropWhile_eq_nil_iff

/-- A space does not go on with a numeral. -/
theorem Spaces.ends_append (spaces : Spaces behind) (ends : Ends rest) : Ends (behind ++ rest) := by
  cases behind with
  | nil => exact ends
  | cons char more =>
      intro _ found
      cases found
      have space := spaces char List.mem_cons_self
      simp only [isSpace, decide_eq_true_eq] at space
      rcases space with rfl | rfl | rfl | rfl <;> decide

theorem ends_nil : Ends [] :=
  nofun

/-- Neither does a comma or a closing bracket. -/
theorem ends_cons {char : Char} (closes : char = ',' ∨ char = ']' ∨ char = '\x7d') :
    Ends (char :: rest) := by
  intro _ found
  cases found
  rcases closes with rfl | rfl | rfl <;> decide

theorem of_readWord {α : Type} {value found : α} {word : List Char}
    (read : readWord value word chars = .ok (found, rest)) :
    found = value ∧ chars = word ++ rest := by
  induction word generalizing chars with
  | nil =>
      cases read
      exact ⟨rfl, rfl⟩
  | cons expected word ih =>
      cases chars with
      | nil => cases read
      | cons char more =>
          rw [readWord] at read
          split at read
          · rename_i same
            obtain ⟨found_eq, rfl⟩ := ih read
            exact ⟨found_eq, by rw [same, List.cons_append]⟩
          · cases read

theorem readWord_append {α : Type} (value : α) (word rest : List Char) :
    readWord value word (word ++ rest) = .ok (value, rest) := by
  induction word with
  | nil => rfl
  | cons expected word ih => rw [List.cons_append, readWord, if_pos rfl, ih]

/-! ## Strings -/

/-- What is read up to a quote is pieces of a string. -/
theorem of_readUnits {read units : List UInt16}
    (found : readUnits read chars = .ok (units, rest)) :
    ∃ inside more, Pieces inside more ∧ chars = inside ++ '"' :: rest ∧
      units = read.reverse ++ more := by
  fun_induction readUnits read chars with
  | case2 read first second third fourth tail unit hex ih =>
      obtain ⟨inside, more, pieces, rfl, rfl⟩ := ih found
      exact ⟨_, _, .cons (.unit hex) pieces, by simp, by simp⟩
  | case5 read letter tail _ _ char stands ih =>
      obtain ⟨inside, more, pieces, rfl, rfl⟩ := ih found
      exact ⟨_, _, .cons (.short stands) pieces, by simp, by simp [pushChar]⟩
  | case7 read tail =>
      cases found
      exact ⟨[], [], .nil, rfl, (List.append_nil _).symm⟩
  | case10 read char tail _ _ _ notQuote notBackslash notControl ih =>
      obtain ⟨inside, more, pieces, rfl, rfl⟩ := ih found
      exact ⟨_, _, .cons (.plain notQuote notBackslash notControl) pieces, by simp,
        by simp [pushChar]⟩
  | case1 | case3 | case4 | case8 | case9 => cases found
  | case6 read letter tail =>
      unfold refuseEscape at found
      split at found <;> cases found

theorem of_readString {fault : Fault} {units : List UInt16}
    (found : readString fault chars = .ok (units, rest)) :
    ∃ quoted, Quoted quoted units ∧ chars = quoted ++ rest := by
  unfold readString at found
  split at found
  · obtain ⟨inside, more, pieces, rfl, rfl⟩ := of_readUnits found
    exact ⟨_, .intro pieces, by simp⟩
  · cases found

/-- Pieces of a string are read up to the quote behind them. -/
theorem readUnits_append {inside : List Char} {units : List UInt16} (pieces : Pieces inside units)
    (read : List UInt16) (rest : List Char) :
    readUnits read (inside ++ '"' :: rest) = .ok (read.reverse ++ units, rest) := by
  induction pieces generalizing read with
  | nil =>
      rw [List.append_nil, List.nil_append, readUnits, if_pos rfl]
      all_goals nofun
  | cons first others ih =>
      rw [List.append_assoc]
      cases first with
      | plain notQuote notBackslash notControl =>
          rw [List.singleton_append, readUnits, if_neg notQuote, if_neg notBackslash,
            if_neg notControl, ih]
          · simp [pushChar]
          all_goals
            intros
            exact notBackslash ‹_›
      | @short letter char stands =>
          have notUnit : letter ≠ 'u' := by
            rintro rfl
            cases stands
          rw [List.cons_append, List.singleton_append, readUnits, stands]
          · simp only [ih]
            simp [pushChar]
          all_goals
            intros
            exact notUnit ‹_›
      | unit hex =>
          simp only [List.cons_append, List.nil_append]
          rw [readUnits, hex]
          simp only [ih]
          simp

theorem readString_append {fault : Fault} {quoted : List Char} {units : List UInt16}
    (spelled : Quoted quoted units) (rest : List Char) :
    readString fault (quoted ++ rest) = .ok (units, rest) := by
  cases spelled with
  | intro pieces =>
      have read := readUnits_append pieces [] rest
      simpa [readString] using read

/-! ## What is read is spelled -/

/-- What a budget lets read from the front of a text is of the grammar. -/
structure Faithful (budget : Nat) : Prop where
  value : ∀ {chars rest json}, readValue budget chars = .ok (json, rest) →
    ∃ before value, Spaces before ∧ Value value json ∧ chars = before ++ (value ++ rest)
  items : ∀ {chars rest items}, readItems budget chars = .ok (items, rest) →
    ∃ inside, Items inside items ∧ chars = inside ++ ']' :: rest
  members : ∀ {fault chars rest written}, readMembers fault budget chars = .ok (written, rest) →
    ∃ inside, Row inside written ∧ chars = inside ++ '\x7d' :: rest

namespace Faithful

variable (faithful : Faithful budget)
include faithful

/-- A value is read together with the spaces around it. -/
theorem padded (read : readValue budget chars = .ok (json, rest)) :
    ∃ padded, Padded padded json ∧ chars = padded ++ skipSpaces rest := by
  obtain ⟨before, value, spaces, spelled, rfl⟩ := faithful.value read
  obtain ⟨behind, spacesBehind, rest_eq⟩ := exists_spaces rest
  refine ⟨_, .intro spaces spelled spacesBehind, ?_⟩
  simp only [List.append_assoc]
  rw [← rest_eq]

theorem bracketed (read : (do
      let (items, rest) ← readItems budget chars
      pure (Json.array items, rest)) = .ok (json, rest)) :
    ∃ items bracketed, Bracketed bracketed items ∧ json = .array items ∧
      '[' :: chars = bracketed ++ rest := by
  obtain ⟨⟨items, behind⟩, read, found⟩ := bind_eq_ok_iff.mp read
  cases found
  obtain ⟨inside, row, rfl⟩ := faithful.items read
  exact ⟨items, _, .filled row, rfl, by simp⟩

theorem braced (read : (do
      let (members, rest) ← readMembers .notAName budget chars
      pure (ofMembers members, rest)) = .ok (json, rest)) :
    ∃ written braced, Braced braced written ∧ json = ofMembers written ∧
      '\x7b' :: chars = braced ++ rest := by
  obtain ⟨⟨written, behind⟩, read, found⟩ := bind_eq_ok_iff.mp read
  cases found
  obtain ⟨inside, row, rfl⟩ := faithful.members read
  exact ⟨written, _, .filled row, rfl, by simp⟩

end Faithful

/-- An array without an item, or an object without a member, has nothing but spaces inside. -/
theorem exists_blank {close : Char} {more : List Char} (closes : skipSpaces chars = close :: more) :
    ∃ spaces, Spaces spaces ∧ chars = spaces ++ close :: more := by
  obtain ⟨spaces, blank, divided⟩ := exists_spaces chars
  exact ⟨spaces, blank, closes ▸ divided⟩

theorem value_of_read (faithful : Faithful budget)
    (read : readValue (budget + 1) chars = .ok (json, rest)) :
    ∃ before value, Spaces before ∧ Value value json ∧ chars = before ++ (value ++ rest) := by
  obtain ⟨before, spaces, divided⟩ := exists_spaces chars
  suffices spelled : ∃ value, Value value json ∧ skipSpaces chars = value ++ rest by
    obtain ⟨value, spelled, skipped⟩ := spelled
    exact ⟨before, value, spaces, spelled, skipped ▸ divided⟩
  rw [readValue] at read
  split at read
  · rename_i more starts
    obtain ⟨rfl, rfl⟩ := of_readWord read
    exact ⟨_, .null, starts⟩
  · rename_i more starts
    obtain ⟨rfl, rfl⟩ := of_readWord read
    exact ⟨_, .bool true, starts⟩
  · rename_i more starts
    obtain ⟨rfl, rfl⟩ := of_readWord read
    exact ⟨_, .bool false, starts⟩
  · rename_i more starts
    obtain ⟨⟨units, behind⟩, readUnits, found⟩ := bind_eq_ok_iff.mp read
    cases found
    obtain ⟨inside, units', pieces, rfl, rfl⟩ := of_readUnits readUnits
    exact ⟨_, .string (.intro pieces), starts.trans (by simp)⟩
  · rename_i more starts
    split at read
    · rename_i tail closes
      cases read
      obtain ⟨blanks, blank, rfl⟩ := exists_blank closes
      exact ⟨_, .array (.empty blank), starts.trans (by simp)⟩
    · obtain ⟨items, chars, bracketed, rfl, spelled⟩ := faithful.bracketed read
      exact ⟨chars, .array bracketed, starts.trans spelled⟩
  · rename_i more starts
    split at read
    · rename_i tail closes
      cases read
      obtain ⟨blanks, blank, rfl⟩ := exists_blank closes
      rw [← ofMembers_nil]
      exact ⟨_, .object (.empty blank), starts.trans (by simp)⟩
    · obtain ⟨written, chars, braced, rfl, spelled⟩ := faithful.braced read
      exact ⟨chars, .object braced, starts.trans spelled⟩
  · obtain ⟨numeral, value, spelled, divided, rfl⟩ := numeral_of_readNumber read
    exact ⟨numeral, .number spelled, divided⟩

theorem items_of_read (faithful : Faithful budget) {items : List Json}
    (read : readItems (budget + 1) chars = .ok (items, rest)) :
    ∃ inside, Items inside items ∧ chars = inside ++ ']' :: rest := by
  rw [readItems] at read
  obtain ⟨⟨item, behind⟩, readItem, behindItem⟩ := bind_eq_ok_iff.mp read
  obtain ⟨one, padded, rfl⟩ := faithful.padded readItem
  dsimp only at behindItem
  split at behindItem
  · rename_i more goesOn
    obtain ⟨⟨others, last⟩, readOthers, found⟩ := bind_eq_ok_iff.mp behindItem
    cases found
    obtain ⟨inside, row, rfl⟩ := faithful.items readOthers
    exact ⟨_, .more padded row, by simp [goesOn]⟩
  · rename_i more ends
    cases behindItem
    exact ⟨_, .last padded, by rw [ends]⟩
  · cases behindItem

theorem members_of_read (faithful : Faithful budget) {fault : Fault}
    {written : List (List UInt16 × Json)}
    (read : readMembers fault (budget + 1) chars = .ok (written, rest)) :
    ∃ inside, Row inside written ∧ chars = inside ++ '\x7d' :: rest := by
  rw [readMembers] at read
  obtain ⟨⟨name, between⟩, readName, behindName⟩ := bind_eq_ok_iff.mp read
  obtain ⟨before, spaces, divided⟩ := exists_spaces chars
  obtain ⟨quoted, named, starts⟩ := of_readString readName
  rw [divided, starts]
  dsimp only at behindName
  split at behindName
  · rename_i tail colon
    obtain ⟨blanks, blank, rfl⟩ := exists_blank colon
    obtain ⟨⟨value, behind⟩, readOne, behindValue⟩ := bind_eq_ok_iff.mp behindName
    obtain ⟨one, padded, rfl⟩ := faithful.padded readOne
    have member := Member.intro spaces named blank padded
    dsimp only at behindValue
    split at behindValue
    · rename_i more goesOn
      obtain ⟨⟨others, last⟩, readOthers, found⟩ := bind_eq_ok_iff.mp behindValue
      cases found
      obtain ⟨inside, row, rfl⟩ := faithful.members readOthers
      exact ⟨_, .more member row, by simp [goesOn]⟩
    · rename_i more ends
      cases behindValue
      exact ⟨_, .last member, by simp [ends]⟩
    · cases behindValue
  · cases behindName

theorem faithful (budget : Nat) : Faithful budget := by
  induction budget with
  | zero => exact ⟨nofun, nofun, nofun⟩
  | succ budget ih => exact ⟨value_of_read ih, items_of_read ih, members_of_read ih⟩

/-! ## What is spelled is read -/

/-- The first character that is read of a value in an array does not end the array. -/
theorem Padded.exists_skipped (padded : Padded chars json) (rest : List Char) :
    ∃ char more, skipSpaces (chars ++ rest) = char :: more ∧ char ≠ ']' := by
  cases padded with
  | intro spaces value =>
      obtain ⟨char, more, rfl, solid, opens⟩ := value.exists_cons
      simp only [List.append_assoc, List.cons_append]
      exact ⟨char, _, skipSpaces_append spaces solid _, opens⟩

theorem Items.exists_skipped {items : List Json} (row : Items chars items) (rest : List Char) :
    ∃ char more, skipSpaces (chars ++ rest) = char :: more ∧ char ≠ ']' := by
  cases row with
  | last padded => exact padded.exists_skipped rest
  | more padded =>
      rw [List.append_assoc]
      exact padded.exists_skipped _

theorem Member.exists_skipped {entry : List UInt16 × Json} (member : Member chars entry)
    (rest : List Char) : ∃ more, skipSpaces (chars ++ rest) = '"' :: more := by
  cases member with
  | intro spaces named =>
      cases named with
      | intro pieces =>
          simp only [List.append_assoc, List.cons_append]
          exact ⟨_, skipSpaces_append spaces (by decide) _⟩

theorem Row.exists_skipped {written : List (List UInt16 × Json)} (row : Row chars written)
    (rest : List Char) : ∃ more, skipSpaces (chars ++ rest) = '"' :: more := by
  cases row with
  | last member => exact member.exists_skipped rest
  | more member =>
      rw [List.append_assoc]
      exact member.exists_skipped _

/-- What begins as no other value does is read as a numeral. -/
theorem readValue_of_numeral {numeral : List Char} {value : Rat} (spaces : Spaces before)
    (spelled : Numeral numeral value) (ends : Ends rest) :
    readValue (budget + 1) (before ++ (numeral ++ rest)) =
      .ok (.number (nearest value), rest) := by
  have read := readNumber_append spelled ends
  obtain ⟨char, more, rfl, solid, -⟩ := (Value.number spelled).exists_cons
  obtain ⟨_, _, same, starts⟩ := spelled.exists_cons
  obtain ⟨rfl, rfl⟩ := List.cons.inj same
  rw [List.cons_append] at read ⊢
  rw [readValue, skipSpaces_append spaces solid]
  -- no other value starts with a minus or a digit
  split
  case h_7 => exact read
  all_goals
    rename_i same
    exact absurd (List.cons.inj same).1 (ne_of_starts starts (by decide) (by decide))

/-- A budget lets everything be read that is spelled and is not too long for it. -/
structure Complete (budget : Nat) : Prop where
  value : ∀ {before value rest json}, Spaces before → Value value json → Ends rest →
    2 * value.length ≤ budget + 1 →
    readValue budget (before ++ (value ++ rest)) = .ok (json, rest)
  items : ∀ {inside items rest}, Items inside items → 2 * inside.length ≤ budget →
    readItems budget (inside ++ ']' :: rest) = .ok (items, rest)
  members : ∀ {fault inside written rest}, Row inside written → 2 * inside.length ≤ budget →
    readMembers fault budget (inside ++ '\x7d' :: rest) = .ok (written, rest)

/-- A value is read up to the spaces between it and what ends it. -/
theorem Complete.padded (complete : Complete budget) {padded : List Char}
    (spelled : Padded padded json) (short : 2 * padded.length ≤ budget + 1) {close : Char}
    (closes : close = ',' ∨ close = ']' ∨ close = '\x7d') (rest : List Char) :
    ∃ behind, readValue budget (padded ++ close :: rest) = .ok (json, behind) ∧
      skipSpaces behind = close :: rest := by
  cases spelled with
  | @intro before chars behind _ spaces value spacesBehind =>
      simp only [List.append_assoc, List.length_append] at short ⊢
      have ends : Ends (close :: rest) := ends_cons closes
      have solid : isSpace close = false := by rcases closes with rfl | rfl | rfl <;> decide
      exact ⟨_, complete.value spaces value (spacesBehind.ends_append ends) (by omega),
        skipSpaces_append spacesBehind solid rest⟩

/-- A member is read by its name, its colon and its value, up to what ends it. -/
theorem Complete.member (complete : Complete budget) {entry : List UInt16 × Json}
    (spelled : Member chars entry) (short : 2 * chars.length ≤ budget + 1) {close : Char}
    (closes : close = ',' ∨ close = ']' ∨ close = '\x7d') (rest : List Char) (fault : Fault) :
    ∃ between inner behind,
      readString fault (skipSpaces (chars ++ close :: rest)) = .ok (entry.1, between) ∧
      skipSpaces between = ':' :: inner ∧ readValue budget inner = .ok (entry.2, behind) ∧
      skipSpaces behind = close :: rest := by
  cases spelled with
  | @intro before quoted blanks inner name json spaces named blank padded =>
      simp only [List.length_cons, List.length_append] at short
      obtain ⟨behind, read, skipped⟩ := complete.padded padded (by omega) closes rest
      have starts : skipSpaces (before ++ (quoted ++ (blanks ++ ':' :: (inner ++ close :: rest)))) =
          quoted ++ (blanks ++ ':' :: (inner ++ close :: rest)) := by
        cases named
        exact skipSpaces_append spaces (by decide) _
      simp only [List.append_assoc, List.cons_append, starts]
      exact ⟨_, _, behind, readString_append named _, skipSpaces_append blank (by decide) _, read,
        skipped⟩

/-- Brackets are read by their items, and right away if there is none. -/
theorem readValue_of_bracketed (complete : Complete budget) {items : List Json}
    (bracketed : Bracketed chars items) (short : 2 * chars.length ≤ budget + 2)
    (skipped : skipSpaces before = chars ++ rest) :
    readValue (budget + 1) before = .ok (.array items, rest) := by
  rw [readValue, skipped]
  cases bracketed with
  | empty blank =>
      simp only [List.cons_append, List.append_assoc, List.nil_append,
        skipSpaces_append blank (show isSpace ']' = false by decide)]
  | @filled inside _ row =>
      simp only [List.length_cons, List.length_append] at short
      have read : readItems budget (inside ++ ']' :: rest) = .ok (items, rest) :=
        complete.items row (by omega)
      obtain ⟨first, others, inside_eq, opens⟩ := row.exists_skipped (']' :: rest)
      simp only [List.cons_append, List.append_assoc, List.nil_append, inside_eq]
      split
      · rename_i tail closes
        exact absurd (List.cons.inj closes).1 opens
      · rw [read]
        rfl

theorem readValue_of_braced (complete : Complete budget) {written : List (List UInt16 × Json)}
    (braced : Braced chars written) (short : 2 * chars.length ≤ budget + 2)
    (skipped : skipSpaces before = chars ++ rest) :
    readValue (budget + 1) before = .ok (ofMembers written, rest) := by
  rw [readValue, skipped]
  cases braced with
  | empty blank =>
      simp only [List.cons_append, List.append_assoc, List.nil_append,
        skipSpaces_append blank (show isSpace '\x7d' = false by decide), ofMembers_nil]
  | @filled inside _ row =>
      simp only [List.length_cons, List.length_append] at short
      have read : readMembers .notAName budget (inside ++ '\x7d' :: rest) =
          .ok (written, rest) := complete.members row (by omega)
      obtain ⟨others, inside_eq⟩ := row.exists_skipped ('\x7d' :: rest)
      simp only [List.cons_append, List.append_assoc, List.nil_append, inside_eq, read]
      rfl

theorem readValue_append (complete : Complete budget) {value : List Char} (spaces : Spaces before)
    (spelled : Value value json) (ends : Ends rest) (short : 2 * value.length ≤ budget + 2) :
    readValue (budget + 1) (before ++ (value ++ rest)) = .ok (json, rest) := by
  obtain ⟨char, more, value_eq, solid, -⟩ := spelled.exists_cons
  have skipped : skipSpaces (before ++ (value ++ rest)) = value ++ rest := by
    rw [value_eq, List.cons_append]
    exact skipSpaces_append spaces solid _
  cases spelled with
  | number numeral => exact readValue_of_numeral spaces numeral ends
  | array bracketed => exact readValue_of_bracketed complete bracketed short skipped
  | object braced => exact readValue_of_braced complete braced short skipped
  | null =>
      rw [readValue, skipped]
      exact readWord_append _ _ _
  | bool value =>
      rw [readValue, skipped]
      cases value <;> exact readWord_append _ _ _
  | string quoted =>
      cases quoted with
      | intro pieces =>
          have read := readUnits_append pieces [] rest
          rw [readValue, skipped]
          simp only [List.cons_append, List.append_assoc, List.nil_append, read]
          rfl

theorem readItems_append (complete : Complete budget) {inside : List Char} {items : List Json}
    (row : Items inside items) (short : 2 * inside.length ≤ budget + 1) :
    readItems (budget + 1) (inside ++ ']' :: rest) = .ok (items, rest) := by
  cases row with
  | last padded =>
      obtain ⟨behind, read, skipped⟩ := complete.padded padded short (.inr (.inl rfl)) rest
      simp only [readItems, read, bind, Except.bind, skipped]
      rfl
  | @more chars others item items padded row =>
      simp only [List.length_cons, List.length_append] at short
      obtain ⟨behind, read, skipped⟩ :=
        complete.padded padded (by omega) (.inl rfl) (others ++ ']' :: rest)
      have readOthers : readItems budget (others ++ ']' :: rest) = .ok (items, rest) :=
        complete.items row (by omega)
      simp only [List.append_assoc, List.cons_append]
      simp only [readItems, read, bind, Except.bind, skipped, readOthers]
      rfl

theorem readMembers_append (complete : Complete budget) {fault : Fault} {inside : List Char}
    {written : List (List UInt16 × Json)} (row : Row inside written)
    (short : 2 * inside.length ≤ budget + 1) :
    readMembers fault (budget + 1) (inside ++ '\x7d' :: rest) = .ok (written, rest) := by
  cases row with
  | last member =>
      obtain ⟨between, inner, behind, readName, colon, read, skipped⟩ :=
        complete.member member short (.inr (.inr rfl)) rest fault
      simp only [readMembers, readName, bind, Except.bind, colon, read, skipped]
      rfl
  | @more chars others entry written member row =>
      simp only [List.length_cons, List.length_append] at short
      obtain ⟨between, inner, behind, readName, colon, read, skipped⟩ :=
        complete.member member (by omega) (.inl rfl) (others ++ '\x7d' :: rest) fault
      have readOthers : readMembers .notAQuotedName budget (others ++ '\x7d' :: rest) =
          .ok (written, rest) := complete.members row (by omega)
      simp only [List.append_assoc, List.cons_append]
      simp only [readMembers, readName, bind, Except.bind, colon, read, skipped, readOthers]
      rfl

theorem complete (budget : Nat) : Complete budget := by
  induction budget with
  | zero =>
      refine ⟨?_, ?_, ?_⟩
      · intro _ value _ _ _ spelled _ short
        obtain ⟨char, more, rfl, -⟩ := spelled.exists_cons
        simp only [List.length_cons] at short
        omega
      · intro inside _ _ row short
        obtain rfl : inside = [] := List.length_eq_zero_iff.mp (by omega)
        obtain ⟨_, _, contradiction, -⟩ := row.exists_skipped []
        cases contradiction
      · intro _ inside _ _ row short
        obtain rfl : inside = [] := List.length_eq_zero_iff.mp (by omega)
        obtain ⟨_, contradiction⟩ := row.exists_skipped []
        cases contradiction
  | succ budget ih =>
      exact ⟨readValue_append ih, readItems_append ih, readMembers_append ih⟩

/-! ## Texts -/

/-- A text is JSON for a value just if the grammar has it for the value. -/
theorem parse_eq_ok_iff {text : String} :
    parse text = .ok json ↔ Padded text.toList json := by
  have readText_iff : parse text = .ok json ↔ readText text.toList = .ok json := by
    rw [parse]
    cases readText text.toList with
    | ok value => simp
    | error stop => simp
  rw [readText_iff, readText, bind_eq_ok_iff]
  constructor
  · rintro ⟨⟨value, behind⟩, read, finished⟩
    dsimp only at finished
    split at finished
    · rename_i skipped
      cases finished
      obtain ⟨before, chars, spaces, value, divided⟩ := (faithful _).value read
      rw [divided]
      exact .intro spaces value (skipSpaces_eq_nil_iff.mp skipped)
    · cases finished
  · intro padded
    generalize text.toList = chars at padded
    cases padded with
    | @intro before chars behind _ spaces value blank =>
        have ends : Ends behind := List.append_nil behind ▸ blank.ends_append ends_nil
        have short : 2 * chars.length ≤ 2 * (before ++ (chars ++ behind)).length + 2 + 1 := by
          simp only [List.length_append]
          omega
        refine ⟨_, (complete _).value spaces value ends short, ?_⟩
        dsimp only
        rw [skipSpaces_eq_nil_iff.mpr blank]
        rfl

end Json

end TapeDebugger
