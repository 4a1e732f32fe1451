import Mathlib.Data.Nat.Digits.Defs
import TapeDebugger.Proofs.Json.Scalar
import TapeDebugger.Proofs.Number.Nearest

/-!
# Integers as they are typed

A sign, if there is one, and at least one decimal digit spell an integer, and nothing else
does.  It is read as the number nearest to it, so as itself up to the 53rd power of 2.  Hence
reading agrees with what is known of integers: idle zeros and a plus change nothing, a minus
negates, the order is kept, and an integer that is written is read back.
-/

namespace TapeDebugger

namespace Number

/-! ## The grammar -/

/-- The characters of a row of decimal digits. -/
def written (row : List (Fin 10)) : List Char :=
  row.map fun digit : Fin 10 => Nat.digitChar digit

/-- The natural number that a row of decimal digits denotes, with the ones at its end. -/
def denoted (row : List (Fin 10)) : Nat :=
  Nat.ofDigits 10 (row.reverse.map Fin.val)

/-- Characters that spell an integer. -/
inductive Spells : List Char → Int → Prop where
  | unsigned {row : List (Fin 10)} (present : row ≠ []) : Spells (written row) (denoted row)
  | plus {row : List (Fin 10)} (present : row ≠ []) : Spells ('+' :: written row) (denoted row)
  | minus {row : List (Fin 10)} (present : row ≠ []) :
      Spells ('-' :: written row) (-(denoted row : Int))

/-! ## Digits -/

variable {row : List (Fin 10)} {chars : List Char} {value : Int}

theorem digit?_digitChar : ∀ digit : Fin 10, digit? (Nat.digitChar digit) = some digit.val := by
  decide

theorem exists_digit {char : Char} (solid : isDigit char = true) :
    ∃ digit : Fin 10, Nat.digitChar digit = char := by
  have bounds : 48 ≤ char.toNat ∧ char.toNat ≤ 57 := by
    unfold isDigit digit? at solid
    split at solid
    · assumption
    · cases solid
  obtain ⟨lower, upper⟩ := bounds
  refine ⟨⟨char.toNat - 48, by omega⟩, Char.toNat_inj.mp ?_⟩
  rw [Nat.toNat_digitChar_of_lt_ten (by dsimp only; omega)]
  dsimp only
  omega

theorem isDigit_of_mem_written : ∀ char ∈ written row, isDigit char = true := by
  intro char found
  obtain ⟨digit, -, rfl⟩ := List.mem_map.mp found
  rw [isDigit, digit?_digitChar, Option.isSome_some]

theorem exists_row (solid : ∀ char ∈ chars, isDigit char = true) : ∃ row, chars = written row := by
  induction chars with
  | nil => exact ⟨[], rfl⟩
  | cons char rest ih =>
      obtain ⟨first, others⟩ := List.forall_mem_cons.mp solid
      obtain ⟨digit, rfl⟩ := exists_digit first
      obtain ⟨row, rfl⟩ := ih others
      exact ⟨digit :: row, rfl⟩

theorem written_eq_nil_iff : written row = [] ↔ row = [] :=
  List.map_eq_nil_iff

theorem denoted_concat (front : List (Fin 10)) (digit : Fin 10) :
    denoted (front ++ [digit]) = denoted front * 10 + digit := by
  rw [denoted, List.reverse_append, List.reverse_singleton, List.singleton_append, List.map_cons,
    Nat.ofDigits_cons, denoted]
  ring

theorem ofDigits_written (row : List (Fin 10)) : ofDigits (written row) = denoted row := by
  induction row using List.reverseRecOn with
  | nil => rfl
  | append_singleton front digit ih =>
      have last : ofDigits [Nat.digitChar digit] = digit := by
        rw [ofDigits, List.foldl_cons, List.foldl_nil, digit?_digitChar, zero_mul, zero_add]
        rfl
      rw [denoted_concat, written, List.map_append, List.map_singleton, ofDigits_append, last,
        ← written, ih, List.length_singleton, pow_one]

theorem denoted_zeros (count : Nat) (row : List (Fin 10)) :
    denoted (List.replicate count 0 ++ row) = denoted row := by
  induction row using List.reverseRecOn with
  | nil =>
      induction count with
      | zero => rfl
      | succ count ih =>
          rw [List.append_nil] at ih ⊢
          rw [List.replicate_succ', denoted_concat, ih]
          rfl
  | append_singleton front digit ih => rw [← List.append_assoc, denoted_concat, denoted_concat, ih]

/-! ## Signs -/

/-- What is read of the characters behind a sign, or of all if there is none. -/
def ofSigned? (negative : Bool) (digits : List Char) : Option Int :=
  if digits.isEmpty || !digits.all isDigit then none
  else if negative then some (-(ofDigits digits : Int))
  else some (ofDigits digits)

/-- What passes the check of the reader is a row of digits. -/
theorem solid_iff {digits : List Char} :
    (digits.isEmpty || !digits.all isDigit) = false ↔ ∃ row, row ≠ [] ∧ digits = written row := by
  rw [Bool.or_eq_false_iff, Bool.not_eq_false', List.isEmpty_eq_false_iff, List.all_eq_true]
  constructor
  · rintro ⟨present, solid⟩
    obtain ⟨row, rfl⟩ := exists_row solid
    exact ⟨row, fun absent => present (written_eq_nil_iff.mpr absent), rfl⟩
  · rintro ⟨row, present, rfl⟩
    exact ⟨fun absent => present (written_eq_nil_iff.mp absent), isDigit_of_mem_written⟩

theorem ofSigned?_written (negative : Bool) (present : row ≠ []) :
    ofSigned? negative (written row) =
      some (if negative then -(denoted row : Int) else denoted row) := by
  have solid := solid_iff.mpr ⟨row, present, rfl⟩
  rw [ofSigned?, solid, if_neg Bool.false_ne_true, ofDigits_written]
  split <;> rfl

theorem exists_row_of_ofSigned? {negative : Bool} {digits : List Char}
    (read : ofSigned? negative digits = some value) : ∃ row, row ≠ [] ∧ digits = written row := by
  unfold ofSigned? at read
  split at read
  · cases read
  · rename_i solid
    exact solid_iff.mp (Bool.eq_false_iff.mpr solid)

theorem integerOfChars?_minus (digits : List Char) :
    integerOfChars? ('-' :: digits) = ofSigned? true digits :=
  rfl

theorem integerOfChars?_plus (digits : List Char) :
    integerOfChars? ('+' :: digits) = ofSigned? false digits :=
  rfl

theorem integerOfChars?_of_unsigned (notMinus : '-' ∉ chars.head?) (notPlus : '+' ∉ chars.head?) :
    integerOfChars? chars = ofSigned? false chars := by
  unfold integerOfChars?
  split
  rename_i parted
  split at parted
  · exact absurd rfl notMinus
  · exact absurd rfl notPlus
  · cases parted
    rfl

/-- A sign is no digit. -/
theorem not_mem_head?_written {sign : Char} (notDigit : isDigit sign = false) :
    sign ∉ (written row).head? := by
  intro found
  rw [isDigit_of_mem_written sign (List.mem_of_mem_head? found)] at notDigit
  cases notDigit

/-- What is read is spelled, and what is spelled is read. -/
theorem integerOfChars?_eq_some_iff : integerOfChars? chars = some value ↔ Spells chars value := by
  constructor
  · intro read
    by_cases minus : '-' ∈ chars.head?
    · obtain ⟨digits, rfl⟩ := List.head?_eq_some_iff.mp minus
      rw [integerOfChars?_minus] at read
      obtain ⟨row, present, rfl⟩ := exists_row_of_ofSigned? read
      cases (ofSigned?_written true present).symm.trans read
      exact .minus present
    by_cases plus : '+' ∈ chars.head?
    · obtain ⟨digits, rfl⟩ := List.head?_eq_some_iff.mp plus
      rw [integerOfChars?_plus] at read
      obtain ⟨row, present, rfl⟩ := exists_row_of_ofSigned? read
      cases (ofSigned?_written false present).symm.trans read
      exact .plus present
    rw [integerOfChars?_of_unsigned minus plus] at read
    obtain ⟨row, present, rfl⟩ := exists_row_of_ofSigned? read
    cases (ofSigned?_written false present).symm.trans read
    exact .unsigned present
  · intro spelled
    cases spelled with
    | minus present => exact ofSigned?_written true present
    | plus present => exact ofSigned?_written false present
    | unsigned present =>
        rw [integerOfChars?_of_unsigned (not_mem_head?_written rfl) (not_mem_head?_written rfl)]
        exact ofSigned?_written false present

/-! ## Texts -/

variable {text : String}

theorem ofIntegerText?_eq (text : String) :
    ofIntegerText? text = (integerOfChars? text.toList).map fun value : Int => nearest value := by
  rw [ofIntegerText?]
  congr 1
  funext value
  have value_eq : decimalValue (decide (value < 0)) value.natAbs 0 = value := by
    rw [decimalValue, zpow_zero, mul_one, ← Int.cast_natCast]
    by_cases negative : value < 0
    · rw [if_pos (decide_eq_true negative), ← Int.cast_neg,
        show -(value.natAbs : Int) = value by omega]
    · rw [if_neg (by simpa using negative), show (value.natAbs : Int) = value by omega]
  rw [ofDecimal_eq_nearest, value_eq]

theorem ofIntegerText?_of_spells (spelled : Spells text.toList value) :
    ofIntegerText? text = some (nearest value) := by
  rw [ofIntegerText?_eq, integerOfChars?_eq_some_iff.mpr spelled, Option.map_some]

theorem ofIntegerText?_eq_none_iff :
    ofIntegerText? text = none ↔ ¬ ∃ value, Spells text.toList value := by
  rw [ofIntegerText?_eq, Option.map_eq_none_iff, Option.eq_none_iff_forall_ne_some, not_exists]
  exact forall_congr' fun value => not_congr integerOfChars?_eq_some_iff

/-- The digits of a natural number are a row. -/
theorem exists_row_of_toDigits (number : Nat) :
    ∃ row, row ≠ [] ∧ Nat.toDigits 10 number = written row ∧ denoted row = number := by
  have whole := Json.whole_toDigits number
  obtain ⟨row, row_eq⟩ := exists_row whole.solid
  refine ⟨row, ?_, row_eq, ?_⟩
  · rintro rfl
    exact whole.nonempty row_eq
  · rw [← ofDigits_written, ← row_eq, Json.ofDigits_toDigits]

/-- An integer is written as what spells it. -/
theorem spells_toString (value : Int) : Spells (toString value).toList value := by
  obtain ⟨row, present, row_eq, denoted_eq⟩ := exists_row_of_toDigits value.natAbs
  rw [Json.toList_toString, row_eq]
  by_cases negative : value < 0
  · have spelled := Spells.minus present
    rw [denoted_eq, show -(value.natAbs : Int) = value by omega] at spelled
    rwa [if_pos (decide_eq_true negative)]
  · have spelled := Spells.unsigned present
    rw [denoted_eq, show (value.natAbs : Int) = value by omega] at spelled
    rwa [if_neg (by simpa using negative)]

/-- An integer below the bound is shown as it is written. -/
theorem integerText_eq (small : value.natAbs ≤ exactIntegerBound) :
    integerText value = toString value := by
  rw [integerText, ofInt, nearest_intCast small, Number.text, rationalText, Rat.num_intCast,
    Rat.den_intCast, if_pos ⟨rfl, small⟩]

theorem written_zeros (count : Nat) (row : List (Fin 10)) :
    List.replicate count '0' ++ written row = written (List.replicate count 0 ++ row) := by
  rw [written, written, List.map_append, List.map_replicate]
  rfl

theorem ofIntegerText?_ofList (spelled : Spells chars value) :
    ofIntegerText? (.ofList chars) = some (nearest value) :=
  ofIntegerText?_of_spells (by rwa [String.toList_ofList])

/-! ## Reading integers -/

/--
What it is to read integers: a text is refused unless it spells an integer, and then the
nearest number is read, which is the integer itself up to the 53rd power of 2.
-/
structure ReadsIntegers (read : String → Option Number) : Prop where
  refused : ∀ text, read text = none ↔ ¬ ∃ value, Spells text.toList value
  rounded : ∀ text (value : Int), Spells text.toList value →
    ∃ number, read text = some number ∧ ∀ other, IsNearest value other ↔ other = number
  exact : ∀ text (value : Int), Spells text.toList value → value.natAbs ≤ 2 ^ 53 →
    read text = some (.finite value)
  zeros : ∀ (count : Nat) (row : List (Fin 10)), row ≠ [] → ∀ sign ∈ [[], ['+'], ['-']],
    read (.ofList (sign ++ (List.replicate count '0' ++ written row))) =
      read (.ofList (sign ++ written row))
  plus : ∀ row, read (.ofList ('+' :: written row)) = read (.ofList (written row))
  minus : ∀ row, read (.ofList ('-' :: written row)) =
    (read (.ofList (written row))).map negated
  mono : ∀ text other value value', Spells text.toList value → Spells other.toList value' →
    value ≤ value' → ∃ number number', read text = some number ∧ read other = some number' ∧
      AtMost number number'
  writtenBack : ∀ value : Int, value.natAbs < 2 ^ 53 →
    integerText value = toString value ∧ read (toString value) = some (.finite value)

theorem ofIntegerText?_zeros (count : Nat) (present : row ≠ []) {sign : List Char}
    (signs : sign ∈ [[], ['+'], ['-']]) :
    ofIntegerText? (.ofList (sign ++ (List.replicate count '0' ++ written row))) =
      ofIntegerText? (.ofList (sign ++ written row)) := by
  have longer : List.replicate count 0 ++ row ≠ [] := List.append_ne_nil_of_right_ne_nil _ present
  have same := denoted_zeros count row
  rw [written_zeros]
  simp only [List.mem_cons, List.not_mem_nil, or_false] at signs
  rcases signs with rfl | rfl | rfl
  · exact (ofIntegerText?_ofList (.unsigned longer)).trans
      (same ▸ (ofIntegerText?_ofList (.unsigned present)).symm)
  · exact (ofIntegerText?_ofList (.plus longer)).trans
      (same ▸ (ofIntegerText?_ofList (.plus present)).symm)
  · exact (ofIntegerText?_ofList (.minus longer)).trans
      (same ▸ (ofIntegerText?_ofList (.minus present)).symm)

theorem ofIntegerText?_plus (row : List (Fin 10)) :
    ofIntegerText? (.ofList ('+' :: written row)) = ofIntegerText? (.ofList (written row)) := by
  by_cases present : row = []
  · subst present
    decide +kernel
  · rw [ofIntegerText?_ofList (.plus present), ofIntegerText?_ofList (.unsigned present)]

theorem ofIntegerText?_minus (row : List (Fin 10)) :
    ofIntegerText? (.ofList ('-' :: written row)) =
      (ofIntegerText? (.ofList (written row))).map negated := by
  by_cases present : row = []
  · subst present
    decide +kernel
  · rw [ofIntegerText?_ofList (.minus present), ofIntegerText?_ofList (.unsigned present),
      Int.cast_neg, nearest_neg, Option.map_some]

/-- Integers are read as they are typed. -/
theorem ofIntegerText?_reads_integers : ReadsIntegers ofIntegerText? where
  refused _ := ofIntegerText?_eq_none_iff
  rounded _ _ spelled := ⟨_, ofIntegerText?_of_spells spelled, fun _ => isNearest_iff⟩
  exact _ _ spelled small := by
    have bound : (2 : Nat) ^ 53 = exactIntegerBound := rfl
    rw [ofIntegerText?_of_spells spelled, nearest_intCast (bound ▸ small)]
  zeros count _ present _ signs := ofIntegerText?_zeros count present signs
  plus := ofIntegerText?_plus
  minus := ofIntegerText?_minus
  mono _ _ _ _ spelled spelled' le :=
    ⟨_, _, ofIntegerText?_of_spells spelled, ofIntegerText?_of_spells spelled',
      nearest_mono (Int.cast_le.mpr le)⟩
  writtenBack value small := by
    have small : value.natAbs ≤ exactIntegerBound := small.le
    refine ⟨integerText_eq small, ?_⟩
    rw [ofIntegerText?_of_spells (spells_toString value), nearest_intCast small]

/-- Behind the bound a tie goes to the even significand. -/
example : ofIntegerText? "+009007199254740993" = some (.finite 9007199254740992) := by
  decide +kernel

end Number

end TapeDebugger
