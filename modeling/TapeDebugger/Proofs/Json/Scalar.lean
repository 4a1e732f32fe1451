import TapeDebugger.Json.Writer
import TapeDebugger.Proofs.Json.Reading

/-!
# Texts of numbers, truth values and objects

A text is JSON for a number exactly if it is a numeral between spaces, for a truth value
exactly if it is its word between spaces, and for an object exactly if it is members
between braces.  An integer of at most 53 bits is written as a numeral that is read as the
same integer again.
-/

namespace TapeDebugger

namespace Json

open Number (isDigit nearest ofDigits)

/-! ## Texts of the grammar -/

/-- The text is a numeral between spaces, and the number is nearest to what it denotes. -/
def SpellsNumber (text : String) (number : Number) : Prop :=
  ∃ before numeral behind value, Spaces before ∧ Numeral numeral value ∧ Spaces behind ∧
    text.toList = before ++ (numeral ++ behind) ∧ number = nearest value

/-- The text is the word of the truth value between spaces. -/
def SpellsBool (text : String) (value : Bool) : Prop :=
  ∃ before behind, Spaces before ∧ Spaces behind ∧
    text.toList = before ++ (boolWord value ++ behind)

/-- The text is members between braces, with spaces around them. -/
def SpellsMembers (text : String) (written : List (List UInt16 × Json)) : Prop :=
  ∃ before braced behind, Spaces before ∧ Braced braced written ∧ Spaces behind ∧
    text.toList = before ++ (braced ++ behind)

variable {text : String}

/-- A text is JSON for a value if it is the value between spaces. -/
theorem parse_eq_ok_iff_value {json : Json} :
    parse text = .ok json ↔ ∃ before chars behind, Spaces before ∧ Value chars json ∧
      Spaces behind ∧ text.toList = before ++ (chars ++ behind) := by
  rw [parse_eq_ok_iff]
  generalize text.toList = chars
  constructor
  · rintro ⟨spaces, value, blank⟩
    exact ⟨_, _, _, spaces, value, blank, rfl⟩
  · rintro ⟨before, chars, behind, spaces, value, blank, rfl⟩
    exact .intro spaces value blank

theorem parse_eq_number_iff {number : Number} :
    parse text = .ok (.number number) ↔ SpellsNumber text number := by
  rw [parse_eq_ok_iff_value]
  constructor
  · rintro ⟨before, chars, behind, spaces, value, blank, divided⟩
    cases value with
    | number numeral => exact ⟨before, chars, behind, _, spaces, numeral, blank, divided, rfl⟩
  · rintro ⟨before, numeral, behind, value, spaces, spelled, blank, divided, rfl⟩
    exact ⟨before, numeral, behind, spaces, .number spelled, blank, divided⟩

theorem parse_eq_bool_iff {value : Bool} :
    parse text = .ok (.bool value) ↔ SpellsBool text value := by
  rw [parse_eq_ok_iff_value]
  constructor
  · rintro ⟨before, chars, behind, spaces, spelled, blank, divided⟩
    cases spelled with
    | bool => exact ⟨before, behind, spaces, blank, divided⟩
  · rintro ⟨before, behind, spaces, blank, divided⟩
    exact ⟨before, _, behind, spaces, .bool value, blank, divided⟩

/-- A text that spells members is accepted, as the object that they denote. -/
theorem parse_of_spellsMembers {written : List (List UInt16 × Json)}
    (spelled : SpellsMembers text written) : parse text = .ok (ofMembers written) := by
  obtain ⟨before, braced, behind, spaces, spelled, blank, divided⟩ := spelled
  exact parse_eq_ok_iff_value.mpr
    ⟨before, braced, behind, spaces, .object spelled, blank, divided⟩

/-- Only texts that spell members are objects, those that the members denote. -/
theorem parse_eq_object_iff {members : List (List UInt16 × Json)} :
    parse text = .ok (.object members) ↔
      ∃ written, SpellsMembers text written ∧ ofMembers written = .object members := by
  constructor
  · intro parsed
    obtain ⟨before, chars, behind, spaces, value, blank, divided⟩ :=
      parse_eq_ok_iff_value.mp parsed
    generalize json_eq : Json.object members = json at value
    cases value with
    | object braced => exact ⟨_, ⟨before, chars, behind, spaces, braced, blank, divided⟩, rfl⟩
    | null | bool | number | string | array => cases json_eq
  · rintro ⟨written, spelled, denoted⟩
    rw [parse_of_spellsMembers spelled, denoted]

/-! ## Integers -/

/-- The digits of a natural number, by the number without its last digit. -/
theorem toDigits_induction (holds : Nat → List Char → Prop)
    (last : ∀ digit, digit < 10 → holds digit [digit.digitChar])
    (more : ∀ value digit, 0 < value → digit < 10 → holds value (Nat.toDigits 10 value) →
      holds (value * 10 + digit) (Nat.toDigits 10 value ++ [digit.digitChar])) (value : Nat) :
    holds value (Nat.toDigits 10 value) := by
  induction value using Nat.strong_induction_on with
  | _ value ih =>
      by_cases small : value < 10
      · rw [Nat.toDigits_of_lt_base small]
        exact last value small
      · have shorter := more (value / 10) (value % 10) (by omega) (Nat.mod_lt _ (by decide))
          (ih (value / 10) (by omega))
        rw [Nat.toDigits_of_base_le (by decide) (by omega)]
        rwa [Nat.div_add_mod'] at shorter

theorem digitChar_value : ∀ digit < 10,
    isDigit digit.digitChar = true ∧ ofDigits [digit.digitChar] = digit := by
  decide

theorem ofDigits_toDigits (value : Nat) : ofDigits (Nat.toDigits 10 value) = value := by
  refine toDigits_induction (fun value chars => ofDigits chars = value) ?_ ?_ value
  · exact fun digit small => (digitChar_value digit small).2
  · intro value digit _ small read
    rw [Number.ofDigits_append, read, (digitChar_value digit small).2]
    rfl

/-- The digits of a natural number are a whole part. -/
theorem whole_toDigits (value : Nat) : Whole (Nat.toDigits 10 value) := by
  have solid : ∀ char ∈ Nat.toDigits 10 value, isDigit char = true := by
    refine toDigits_induction (fun _ chars => ∀ char ∈ chars, isDigit char = true)
      ?_ ?_ value
    · intro digit small char found
      rw [List.mem_singleton.mp found]
      exact (digitChar_value digit small).1
    · intro value digit _ small solid char found
      rcases List.mem_append.mp found with found | found
      · exact solid char found
      · rw [List.mem_singleton.mp found]
        exact (digitChar_value digit small).1
  refine ⟨⟨Nat.toDigits_ne_nil, solid⟩, ?_⟩
  have lead : (Nat.toDigits 10 value).head? = some '0' → value = 0 := by
    refine toDigits_induction (fun value chars => chars.head? = some '0' → value = 0)
      ?_ ?_ value
    · intro digit _ lead
      exact Nat.digitChar_eq_zero.mp (Option.some.inj lead)
    · intro value digit positive _ ih lead
      rw [List.head?_append_of_ne_nil _ Nat.toDigits_ne_nil] at lead
      exact absurd (ih lead) positive.ne'
  intro zero
  rw [lead zero]
  rfl

theorem toList_toString (value : Int) :
    (toString value).toList =
      (if decide (value < 0) then ['-'] else []) ++ Nat.toDigits 10 value.natAbs := by
  rw [Int.toString_eq_repr, Int.repr_eq_if]
  by_cases negative : value < 0
  · rw [if_neg (by omega), if_pos (decide_eq_true negative), String.toList_append, Nat.toList_repr,
      show (-value).toNat = value.natAbs by omega]
    rfl
  · rw [if_pos (by omega), if_neg (by simpa using negative), Nat.toList_repr,
      show value.toNat = value.natAbs by omega, List.nil_append]

theorem denoted_toDigits (value : Int) :
    denoted (decide (value < 0)) (Nat.toDigits 10 value.natAbs) [] 0 = value := by
  have magnitude : ((ofDigits (Nat.toDigits 10 value.natAbs) : Rat) +
      (ofDigits [] : Nat) / (10 : Rat) ^ ([] : List Char).length) * (10 : Rat) ^ (0 : Int) =
        ((value.natAbs : Int) : Rat) := by
    rw [ofDigits_toDigits]
    simp [ofDigits]
  rw [denoted, magnitude]
  split_ifs with negative
  · rw [← Int.cast_neg, show -(value.natAbs : Int) = value by
      have := of_decide_eq_true negative
      omega]
  · rw [show (value.natAbs : Int) = value by
      have : ¬ value < 0 := by simpa using negative
      omega]

/-- An integer is written as a numeral that denotes it. -/
theorem numeral_toString (value : Int) : Numeral (toString value).toList value := by
  have numeral := Numeral.ofParts (decide (value < 0)) (whole_toDigits value.natAbs) .absent .absent
  rwa [denoted_toDigits, List.append_nil, List.append_nil, ← toList_toString] at numeral

/-- An integer of at most 53 bits is written as a text that is read as it again. -/
theorem parse_text_intCast {value : Int} (small : value.natAbs ≤ Number.exactIntegerBound) :
    parse (Json.number (.finite value)).text = .ok (.number (.finite value)) := by
  have written : (Json.number (.finite value)).text = toString value := by
    rw [text, numberText, Number.text, Number.rationalText, Rat.num_intCast, Rat.den_intCast,
      if_pos ⟨rfl, small⟩]
  rw [parse_eq_number_iff, written]
  exact ⟨[], _, [], _, nofun, numeral_toString value, nofun, by simp,
    (Number.nearest_intCast small).symm⟩

end Json

end TapeDebugger
