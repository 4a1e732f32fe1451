import Mathlib.Data.List.TakeWhile
import Mathlib.Tactic.FieldSimp
import Mathlib.Tactic.Ring
import TapeDebugger.Json.Reader
import TapeDebugger.Proofs.Number.Rounding

/-!
# Numerals

A numeral of JSON has a whole part without idle zeros in front, perhaps a fraction, and
perhaps an exponent; it denotes a rational, and is read as the number nearest to it.
The reader takes exactly the numerals, each to its end.
-/

namespace TapeDebugger

namespace Number

theorem ofDigits_append (first second : List Char) :
    ofDigits (first ++ second) = ofDigits first * 10 ^ second.length + ofDigits second := by
  have shifted (digits : List Char) (start : Nat) :
      digits.foldl (fun value char => value * 10 + (digit? char).getD 0) start =
        start * 10 ^ digits.length + ofDigits digits := by
    induction digits generalizing start with
    | nil => simp [ofDigits]
    | cons char rest ih =>
        rw [ofDigits, List.foldl_cons, List.foldl_cons, ih, ih (0 * 10 + _), List.length_cons]
        ring
  rw [ofDigits, List.foldl_append, shifted]
  rfl

end Number

namespace Json

open Number (isDigit nearest ofDigits)

/-! ## The grammar -/

/-- At least one digit, and nothing else. -/
structure Digits (chars : List Char) : Prop where
  nonempty : chars ≠ []
  solid : ∀ char ∈ chars, isDigit char = true

/-- The whole part of a numeral starts with 0 only if it is 0. -/
structure Whole (chars : List Char) : Prop extends Digits chars where
  lead : chars.head? = some '0' → chars = ['0']

/-- A point and digits, or nothing; with the digits. -/
inductive Fraction : List Char → List Char → Prop where
  | absent : Fraction [] []
  | present {digits : List Char} (solid : Digits digits) : Fraction ('.' :: digits) digits

/-- A sign, or nothing; with whether it negates. -/
inductive Sign : List Char → Bool → Prop where
  | absent : Sign [] false
  | plus : Sign ['+'] false
  | minus : Sign ['-'] true

/-- A mark, perhaps a sign, and digits, or nothing; with the exponent. -/
inductive Exponent : List Char → Int → Prop where
  | absent : Exponent [] 0
  | present {mark : Char} {sign digits : List Char} {negative : Bool}
      (marked : mark = 'e' ∨ mark = 'E') (signed : Sign sign negative) (solid : Digits digits) :
      Exponent (mark :: (sign ++ digits))
        (if negative then -(ofDigits digits : Int) else ofDigits digits)

/-- The rational that the parts of a numeral denote. -/
def denoted (negative : Bool) (whole fraction : List Char) (exponent : Int) : Rat :=
  let magnitude : Rat :=
    (ofDigits whole + ofDigits fraction / (10 : Rat) ^ fraction.length) * (10 : Rat) ^ exponent
  if negative then -magnitude else magnitude

/-- A numeral, with the rational that it denotes. -/
inductive Numeral : List Char → Rat → Prop where
  | ofParts (negative : Bool) {whole pointed fraction scale : List Char} {exponent : Int}
      (solid : Whole whole) (fractional : Fraction pointed fraction)
      (scaled : Exponent scale exponent) :
      Numeral ((if negative then ['-'] else []) ++ (whole ++ (pointed ++ scale)))
        (denoted negative whole fraction exponent)

/-- What cannot go on with a numeral. -/
def Ends (rest : List Char) : Prop :=
  ∀ char ∈ rest.head?, isDigit char = false ∧ char ≠ '.' ∧ char ≠ 'e' ∧ char ≠ 'E'

/-- The digits of a numeral and its exponent, with the point moved behind the last digit. -/
theorem decimalValue_eq_denoted (negative : Bool) (whole fraction : List Char) (exponent : Int) :
    Number.decimalValue negative (ofDigits (whole ++ fraction)) (exponent - fraction.length) =
      denoted negative whole fraction exponent := by
  have moved : ((ofDigits (whole ++ fraction) : Nat) : Rat) *
      (10 : Rat) ^ (exponent - fraction.length) =
        (ofDigits whole + ofDigits fraction / (10 : Rat) ^ fraction.length) *
          (10 : Rat) ^ exponent := by
    rw [Number.ofDigits_append, zpow_sub₀ (by norm_num), zpow_natCast]
    push_cast
    field_simp
  rw [Number.decimalValue, moved]
  rfl

/-! ## Reading the parts -/

variable {chars rest digits whole pointed fraction scale : List Char} {exponent : Int}

theorem Digits.exists_cons (solid : Digits digits) :
    ∃ char more, digits = char :: more ∧ isDigit char = true := by
  obtain ⟨char, more, rfl⟩ := List.exists_cons_of_ne_nil solid.nonempty
  exact ⟨char, more, rfl, solid.solid char List.mem_cons_self⟩

theorem spanDigits_append (solid : ∀ char ∈ digits, isDigit char = true)
    (ends : ∀ char ∈ rest.head?, isDigit char = false) :
    spanDigits (digits ++ rest) = (digits, rest) := by
  rw [spanDigits, List.takeWhile_append_of_pos solid, List.dropWhile_append_of_pos solid]
  cases rest with
  | nil => simp
  | cons char more =>
      have other : ¬ isDigit char = true := by simp [ends char rfl]
      rw [List.takeWhile_cons_of_neg other, List.dropWhile_cons_of_neg other, List.append_nil]

/-- What is spanned is made of digits, and the two parts make up the whole. -/
theorem of_spanDigits (spanned : spanDigits chars = (digits, rest)) :
    (∀ char ∈ digits, isDigit char = true) ∧ chars = digits ++ rest := by
  obtain ⟨rfl, rfl⟩ := Prod.mk.inj spanned
  exact ⟨fun _ => List.mem_takeWhile_imp, List.takeWhile_append_dropWhile.symm⟩

/-! ## What is read is a numeral -/

theorem whole_of_readWhole (read : readWhole chars = .ok (whole, rest)) :
    Whole whole ∧ chars = whole ++ rest := by
  unfold readWhole at read
  split at read
  · split at read
    · cases read
    · cases read
      have solid : ∀ char ∈ ['0'], isDigit char = true := by
        rintro _ found
        rw [List.mem_singleton.mp found]
        rfl
      exact ⟨⟨⟨List.cons_ne_nil _ _, solid⟩, fun _ => rfl⟩, rfl⟩
  · rename_i other
    split at read
    · cases read
    · rename_i nonempty spanned
      cases read
      obtain ⟨solid, rfl⟩ := of_spanDigits spanned
      refine ⟨⟨⟨nonempty, solid⟩, fun lead => ?_⟩, rfl⟩
      obtain ⟨more, rfl⟩ := List.head?_eq_some_iff.mp lead
      exact absurd rfl (other _)

theorem fraction_of_readFraction (read : readFraction chars = .ok (digits, rest)) :
    ∃ pointed, Fraction pointed digits ∧ chars = pointed ++ rest := by
  unfold readFraction at read
  split at read
  · split at read
    · cases read
    · rename_i nonempty spanned
      cases read
      obtain ⟨solid, rfl⟩ := of_spanDigits spanned
      exact ⟨_, .present ⟨nonempty, solid⟩, rfl⟩
  · cases read
    exact ⟨[], .absent, rfl⟩

/-- The digits of an exponent, behind a sign that was taken off. -/
theorem exponent_of_spanned {mark : Char} {sign : List Char} {negative : Bool}
    (marked : mark = 'e' ∨ mark = 'E') (signed : Sign sign negative)
    (read : (match spanDigits chars with
      | ([], rest) => stopAt .noDigitInExponent rest
      | (digits, rest) =>
          let scale : Int := ofDigits digits
          Except.ok (if negative then -scale else scale, rest)) = .ok (exponent, rest)) :
    ∃ scale, Exponent scale exponent ∧ mark :: (sign ++ chars) = scale ++ rest := by
  split at read
  · cases read
  · rename_i nonempty spanned
    cases read
    obtain ⟨solid, rfl⟩ := of_spanDigits spanned
    exact ⟨_, .present marked signed ⟨nonempty, solid⟩, by simp⟩

theorem exponent_of_readScale {mark : Char} (marked : mark = 'e' ∨ mark = 'E')
    (read : readScale chars = .ok (exponent, rest)) :
    ∃ scale, Exponent scale exponent ∧ mark :: chars = scale ++ rest := by
  unfold readScale at read
  split at read
  rename_i stripped
  split at stripped
  · cases stripped
    exact exponent_of_spanned marked .minus read
  · cases stripped
    exact exponent_of_spanned marked .plus read
  · cases stripped
    exact exponent_of_spanned marked .absent read

theorem exponent_of_readExponent (read : readExponent chars = .ok (exponent, rest)) :
    ∃ scale, Exponent scale exponent ∧ chars = scale ++ rest := by
  unfold readExponent at read
  split at read
  · exact exponent_of_readScale (.inl rfl) read
  · exact exponent_of_readScale (.inr rfl) read
  · cases read
    exact ⟨[], .absent, rfl⟩

/-- One reader behind the other reads what both of them read. -/
theorem bind_eq_ok_iff {α β : Type} {first : Except Stop α} {next : α → Except Stop β} {value : β} :
    first >>= next = .ok value ↔ ∃ found, first = .ok found ∧ next found = .ok value := by
  cases first with
  | error stop => exact ⟨nofun, nofun⟩
  | ok found =>
      constructor
      · intro read
        exact ⟨found, rfl, read⟩
      · rintro ⟨_, ⟨⟩, read⟩
        exact read

theorem numeral_of_readMagnitude {negative : Bool} {json : Json}
    (read : readMagnitude negative chars = .ok (json, rest)) :
    ∃ numeral value, Numeral numeral value ∧
      (if negative then ['-'] else []) ++ chars = numeral ++ rest ∧
      json = .number (nearest value) := by
  unfold readMagnitude at read
  obtain ⟨⟨whole, behindWhole⟩, readWhole, read⟩ := bind_eq_ok_iff.mp read
  obtain ⟨⟨fraction, behindFraction⟩, readFraction, read⟩ := bind_eq_ok_iff.mp read
  obtain ⟨⟨exponent, behindExponent⟩, readExponent, read⟩ := bind_eq_ok_iff.mp read
  cases read
  obtain ⟨solid, rfl⟩ := whole_of_readWhole readWhole
  obtain ⟨pointed, fractional, rfl⟩ := fraction_of_readFraction readFraction
  obtain ⟨scale, scaled, rfl⟩ := exponent_of_readExponent readExponent
  refine ⟨_, _, .ofParts negative solid fractional scaled, by simp, ?_⟩
  rw [Number.ofDecimal_eq_nearest, decimalValue_eq_denoted]

theorem numeral_of_readNumber {json : Json} (read : readNumber chars = .ok (json, rest)) :
    ∃ numeral value, Numeral numeral value ∧ chars = numeral ++ rest ∧
      json = .number (nearest value) := by
  unfold readNumber at read
  split at read
  · exact numeral_of_readMagnitude read
  · split at read
    · exact numeral_of_readMagnitude read
    · cases read

/-! ## Every numeral is read -/

theorem isDigit_ne {char other : Char} (digit : isDigit char = true)
    (not : isDigit other = false) : char ≠ other := by
  rintro rfl
  rw [digit] at not
  cases not

theorem readWhole_append (solid : Whole whole)
    (ends : ∀ char ∈ rest.head?, isDigit char = false) :
    readWhole (whole ++ rest) = .ok (whole, rest) := by
  obtain ⟨char, more, rfl, digit⟩ := solid.toDigits.exists_cons
  by_cases zero : char = '0'
  · obtain ⟨rfl, rfl⟩ := List.cons.inj (solid.lead (by rw [zero]; rfl))
    have stops : rest.head?.any isDigit = false := by
      rw [Option.any_eq_false]
      simpa using ends
    simp [readWhole, stops]
  · have spanned := spanDigits_append solid.solid ends
    rw [List.cons_append] at spanned ⊢
    rw [readWhole, spanned]
    rintro more' same
    exact zero (List.cons.inj same).1

theorem readFraction_append (fractional : Fraction pointed digits)
    (ends : ∀ char ∈ rest.head?, isDigit char = false ∧ char ≠ '.') :
    readFraction (pointed ++ rest) = .ok (digits, rest) := by
  cases fractional with
  | absent =>
      rw [List.nil_append, readFraction]
      rintro more rfl
      exact (ends '.' rfl).2 rfl
  | present solid =>
      obtain ⟨char, more, rfl, -⟩ := solid.exists_cons
      rw [List.cons_append, readFraction,
        spanDigits_append solid.solid fun char found => (ends char found).1]

theorem readScale_append {sign : List Char} {negative : Bool} (signed : Sign sign negative)
    (solid : Digits digits) (ends : ∀ char ∈ rest.head?, isDigit char = false) :
    readScale (sign ++ digits ++ rest) =
      .ok (if negative then -(ofDigits digits : Int) else ofDigits digits, rest) := by
  have spanned := spanDigits_append solid.solid ends
  obtain ⟨char, more, rfl, digit⟩ := solid.exists_cons
  rw [List.cons_append] at spanned
  cases signed with
  | absent =>
      have notMinus : char ≠ '-' := isDigit_ne digit (by decide)
      have notPlus : char ≠ '+' := isDigit_ne digit (by decide)
      simp [readScale, notMinus, notPlus, spanned]
  | plus => simp [readScale, spanned]
  | minus => simp [readScale, spanned]

theorem readExponent_append (scaled : Exponent scale exponent) (ends : Ends rest) :
    readExponent (scale ++ rest) = .ok (exponent, rest) := by
  cases scaled with
  | absent =>
      rw [List.nil_append, readExponent]
      · rintro more rfl
        exact (ends 'e' rfl).2.2.1 rfl
      · rintro more rfl
        exact (ends 'E' rfl).2.2.2 rfl
  | present marked signed solid =>
      have read := readScale_append signed solid fun char found => (ends char found).1
      rcases marked with rfl | rfl
      · exact read
      · exact read

/-- Behind the whole part there is no digit, and behind the fraction no point either. -/
theorem head_scale (scaled : Exponent scale exponent) (ends : Ends rest) :
    ∀ char ∈ (scale ++ rest).head?, isDigit char = false ∧ char ≠ '.' := by
  intro char found
  cases scaled with
  | absent => exact ⟨(ends char found).1, (ends char found).2.1⟩
  | present marked signed solid =>
      cases found
      rcases marked with rfl | rfl
      · decide
      · decide

theorem head_pointed (fractional : Fraction pointed fraction) (scaled : Exponent scale exponent)
    (ends : Ends rest) : ∀ char ∈ (pointed ++ (scale ++ rest)).head?, isDigit char = false := by
  intro char found
  cases fractional with
  | absent => exact (head_scale scaled ends char found).1
  | present solid =>
      cases found
      decide

theorem readMagnitude_append (negative : Bool) (solid : Whole whole)
    (fractional : Fraction pointed fraction) (scaled : Exponent scale exponent)
    (ends : Ends rest) :
    readMagnitude negative (whole ++ (pointed ++ (scale ++ rest))) =
      .ok (.number (nearest (denoted negative whole fraction exponent)), rest) := by
  refine bind_eq_ok_iff.mpr
    ⟨_, readWhole_append solid (head_pointed fractional scaled ends), ?_⟩
  refine bind_eq_ok_iff.mpr ⟨_, readFraction_append fractional (head_scale scaled ends), ?_⟩
  refine bind_eq_ok_iff.mpr ⟨_, readExponent_append scaled ends, ?_⟩
  rw [← decimalValue_eq_denoted, ← Number.ofDecimal_eq_nearest]
  rfl

theorem unexpected_of_isDigit {char : Char} (digit : isDigit char = true) (rest : List Char) :
    unexpected (char :: rest) = .unexpectedNumber := by
  have notQuote : char ≠ '"' := isDigit_ne digit (by decide)
  rw [unexpected, if_neg notQuote, if_pos (.inr digit)]

/-- A numeral is read to its end, as the number nearest to what it denotes. -/
theorem readNumber_append {numeral : List Char} {value : Rat} (spelled : Numeral numeral value)
    (ends : Ends rest) : readNumber (numeral ++ rest) = .ok (.number (nearest value), rest) := by
  cases spelled with
  | ofParts negative solid fractional scaled =>
      have read := readMagnitude_append negative solid fractional scaled ends
      simp only [List.append_assoc]
      cases negative with
      | true => exact read
      | false =>
          obtain ⟨char, more, rfl, digit⟩ := solid.toDigits.exists_cons
          have notMinus : char ≠ '-' := isDigit_ne digit (by decide)
          rw [if_neg Bool.false_ne_true, List.nil_append, List.cons_append, readNumber,
            if_pos (unexpected_of_isDigit digit _)]
          · exact read
          · rintro _ same
            exact notMinus (List.cons.inj same).1

end Json

end TapeDebugger
