import Mathlib.Data.List.TakeWhile
import TapeDebugger.Text.Line

/-!
# Lines of input in a row

A line feed is a byte of its own in every text: it continues no sequence, and a
sequence that is open in front of it is broken.  It ends a line, too, whether there is
a carriage return in front of it or not.  So input behind a line feed is read as if it
stood alone.
-/

namespace TapeDebugger

namespace Text

/-! ## Decoding -/

/-- The characters that bytes hold behind those of a sequence that may be open. -/
def decodeFrom : Option Sequence → List UInt8 → List Char
  | none, [] => []
  | some _, [] => [replacement]
  | sequence?, byte :: rest =>
      (decodeByte sequence? byte).1 ++ decodeFrom (decodeByte sequence? byte).2 rest

theorem toList_foldl_decodeNext (bytes : List UInt8) (state : Array Char × Option Sequence) :
    (if (bytes.foldl decodeNext state).2.isSome
      then (bytes.foldl decodeNext state).1.push replacement
      else (bytes.foldl decodeNext state).1).toList =
      state.1.toList ++ decodeFrom state.2 bytes := by
  induction bytes generalizing state with
  | nil =>
      obtain ⟨chars, sequence?⟩ := state
      cases sequence? with
      | none => exact (List.append_nil _).symm
      | some sequence => exact Array.toList_push
  | cons byte rest ih =>
      have next_eq : decodeNext state byte =
          (state.1 ++ (decodeByte state.2 byte).1, (decodeByte state.2 byte).2) := rfl
      rw [List.foldl_cons, ih, next_eq, Array.toList_appendList, List.append_assoc, decodeFrom]

theorem toList_decode (bytes : List UInt8) : (decode bytes).toList = decodeFrom none bytes :=
  String.toList_ofList.trans (toList_foldl_decodeNext bytes (#[], none))

/-- No open sequence waits for a byte that is a character by itself. -/
def Waits (sequence? : Option Sequence) : Prop :=
  ∀ sequence ∈ sequence?, 0x80 ≤ sequence.low

theorem waits_decodeFirst (byte : UInt8) : Waits (decodeFirst byte).2 := by
  unfold decodeFirst Waits
  split
  · nofun
  · split
    · rintro _ ⟨⟩
      exact Nat.le_refl _
    · split
      · rintro _ ⟨⟩
        simp only
        split <;> decide
      · split
        · rintro _ ⟨⟩
          simp only
          split <;> decide
        · nofun

theorem waits_decodeByte (sequence? : Option Sequence) (byte : UInt8) :
    Waits (decodeByte sequence? byte).2 := by
  cases sequence? with
  | none => exact waits_decodeFirst byte
  | some sequence =>
      simp only [decodeByte]
      split
      · split
        · nofun
        · rintro _ ⟨⟩
          exact Nat.le_refl _
      · exact waits_decodeFirst byte

/-- A line feed ends what was open in front of it and leaves nothing open. -/
theorem decodeByte_lineFeed {sequence? : Option Sequence} (waits : Waits sequence?) :
    ∃ broken, decodeByte sequence? 10 = (broken ++ ['\n'], none) := by
  cases sequence? with
  | none => exact ⟨[], rfl⟩
  | some sequence =>
      refine ⟨[replacement], ?_⟩
      have tooLow : ¬ (sequence.low ≤ 10 ∧ 10 ≤ sequence.high) := by
        intro within
        have contradiction : (0x80 : UInt8) ≤ 10 :=
          UInt8.le_trans (waits sequence rfl) within.1
        exact absurd contradiction (by decide)
      rw [decodeByte, if_neg tooLow]
      rfl

/-- What stands behind a line feed is decoded as if it stood alone. -/
theorem decodeFrom_lineFeed (front : List UInt8) {sequence? : Option Sequence}
    (waits : Waits sequence?) :
    ∃ chars, ∀ rest, decodeFrom sequence? (front ++ 10 :: rest) =
      chars ++ '\n' :: decodeFrom none rest := by
  induction front generalizing sequence? with
  | nil =>
      obtain ⟨broken, decoded⟩ := decodeByte_lineFeed waits
      refine ⟨broken, fun rest => ?_⟩
      rw [List.nil_append, decodeFrom, decoded, List.append_assoc]
      rfl
  | cons byte front ih =>
      obtain ⟨chars, decoded⟩ := ih (waits_decodeByte sequence? byte)
      refine ⟨(decodeByte sequence? byte).1 ++ chars, fun rest => ?_⟩
      rw [List.cons_append, decodeFrom, decoded, List.append_assoc]

/-! ## Bytes that wait -/

theorem waitingLength_le (bytes : List UInt8) : waitingLength bytes ≤ bytes.length := by
  simp only [waitingLength]
  split
  · exact Nat.zero_le _
  · rename_i first others found
    split
    · have lengths := congrArg List.length found
      rw [List.length_drop, List.length_reverse, List.length_cons] at lengths
      omega
    · exact Nat.zero_le _

/-- A line feed does not wait for bytes, nor does anything in front of it. -/
theorem waitingLength_lineFeed (front second : List UInt8) :
    waitingLength (front ++ 10 :: second) = waitingLength second := by
  have reverse_eq : (front ++ 10 :: second).reverse =
      second.reverse ++ 10 :: front.reverse := by simp
  have continuing : (second.reverse ++ 10 :: front.reverse).takeWhile isContinuation = _ :=
    List.takeWhile_append
  simp only [waitingLength, reverse_eq]
  split at continuing
  · rename_i whole
    -- all that stands behind the line feed goes on with a sequence that nothing has begun
    have stops : (10 :: front.reverse).takeWhile isContinuation = [] := rfl
    rw [continuing, stops, List.append_nil, List.drop_left, whole, List.drop_length]
    rfl
  · rename_i within
    have lt : (second.reverse.takeWhile isContinuation).length < second.reverse.length :=
      lt_of_le_of_ne (List.takeWhile_prefix _).length_le within
    rw [continuing, List.drop_append_of_le_length lt.le]
    cases found : second.reverse.drop (second.reverse.takeWhile isContinuation).length with
    | nil => exact absurd (List.drop_eq_nil_iff.mp found) (Nat.not_le_of_lt lt)
    | cons byte others => rfl

theorem dropWaiting_lineFeed (front second : List UInt8) :
    dropWaiting (front ++ 10 :: second) = front ++ 10 :: dropWaiting second := by
  have le := waitingLength_le second
  have length_eq : (front ++ 10 :: second).length - waitingLength second =
      front.length + (1 + (second.length - waitingLength second)) := by
    rw [List.length_append, List.length_cons]
    omega
  rw [dropWaiting, waitingLength_lineFeed, length_eq, List.take_length_add_append,
    Nat.add_comm 1, List.take_succ_cons]
  rfl

/-! ## Lines -/

/-- A line ends at a line feed, and at a carriage return that has none behind it. -/
theorem linesFrom_cons_of_break {current rest : List Char} {char : Char}
    (breaks : char = '\n' ∨ char = '\r') (single : char = '\r' → ∀ more, rest ≠ '\n' :: more) :
    linesFrom current (char :: rest) = String.ofList current.reverse :: linesFrom [] rest := by
  rw [linesFrom, if_pos breaks]
  intro more isReturn follows
  exact single isReturn more follows

theorem linesFrom_cons_of_not_break {current rest : List Char} {char : Char}
    (other : ¬ (char = '\n' ∨ char = '\r')) :
    linesFrom current (char :: rest) = linesFrom (char :: current) rest := by
  rw [linesFrom, if_neg other]
  intro more isReturn follows
  exact other (.inr isReturn)

/-- What stands behind a line feed is divided into lines as if it stood alone. -/
theorem linesFrom_lineFeed (current chars rest : List Char) :
    linesFrom current (chars ++ '\n' :: rest) =
      linesFrom current (chars ++ ['\n']) ++ linesFrom [] rest := by
  have feed (current rest : List Char) : linesFrom current ('\n' :: rest) =
      String.ofList current.reverse :: linesFrom [] rest :=
    linesFrom_cons_of_break (.inl rfl) (fun isReturn => absurd isReturn (by decide))
  induction current, chars using linesFrom.induct with
  | case1 current | case2 current =>
      rw [List.nil_append, feed, List.nil_append, feed]
      rfl
  | case3 current others ih =>
      simp only [List.cons_append, linesFrom, ih]
  | case4 current char others single breaks ih =>
      by_cases pair : char = '\r' ∧ others = []
      · -- the carriage return and the line feed end the line together
        obtain ⟨rfl, rfl⟩ := pair
        simp only [List.cons_append, List.nil_append, linesFrom]
        rfl
      · have apart (tail : List Char) :
            char = '\r' → ∀ more, others ++ '\n' :: tail ≠ '\n' :: more := by
          intro isReturn more follows
          cases others with
          | nil => exact pair ⟨isReturn, rfl⟩
          | cons next later =>
              obtain ⟨rfl, -⟩ := List.cons.inj follows
              exact single later isReturn rfl
        rw [List.cons_append, linesFrom_cons_of_break breaks (apart rest), List.cons_append,
          linesFrom_cons_of_break breaks (apart []), ih, List.cons_append]
  | case5 current char others _ other ih =>
      rw [List.cons_append, linesFrom_cons_of_not_break other, List.cons_append,
        linesFrom_cons_of_not_break other, ih]

theorem inputLines_eq (bytes : List UInt8) :
    inputLines bytes = linesFrom [] (decodeFrom none (dropWaiting bytes)) := by
  rw [inputLines, lines, toList_decode]

theorem inputLines_nil : inputLines [] = [] := by
  decide

/-- Input behind a line feed has the lines that it has alone. -/
theorem inputLines_append {first : List UInt8} (ended : first = [] ∨ first.getLast? = some 10)
    (second : List UInt8) :
    inputLines (first ++ second) = inputLines first ++ inputLines second := by
  rcases ended with rfl | ended
  · rw [List.nil_append, inputLines_nil, List.nil_append]
  · obtain ⟨front, rfl⟩ := List.getLast?_eq_some_iff.mp ended
    have waits : Waits none := nofun
    obtain ⟨chars, decoded⟩ := decodeFrom_lineFeed front waits
    have lines_eq (bytes : List UInt8) : inputLines (front ++ 10 :: bytes) =
        linesFrom [] (chars ++ ['\n']) ++ inputLines bytes := by
      rw [inputLines_eq, inputLines_eq bytes, dropWaiting_lineFeed, decoded, linesFrom_lineFeed]
    rw [List.append_assoc, List.singleton_append, lines_eq, lines_eq [], inputLines_nil,
      List.append_nil]

end Text

end TapeDebugger
