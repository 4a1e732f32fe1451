import TapeDebugger.Number.Basic

/-!
# Decimal numerals

A numeral denotes `digits * 10 ^ exponent`, and is read as the nearest number.
A number is written with the fewest digits that read back as it, positionally
while the decimal point stands close to them and with an exponent beyond.
-/

namespace TapeDebugger

namespace Number

/-! ## Reading -/

def digit? (char : Char) : Option Nat :=
  if '0' ≤ char ∧ char ≤ '9' then some (char.toNat - '0'.toNat) else none

def isDigit (char : Char) : Bool :=
  (digit? char).isSome

/-- The natural number that a row of digits denotes; other characters count as 0. -/
def ofDigits (digits : List Char) : Nat :=
  digits.foldl (fun value char => value * 10 + (digit? char).getD 0) 0

/--
The number nearest to `digits * 10 ^ exponent`, negated if `negative`.  An
exponent that puts a nonzero numeral out of every finite or nonzero reach is
answered at once, so that no huge power is ever formed.
-/
def ofDecimal (negative : Bool) (digits : Nat) (exponent : Int) : Number :=
  if digits = 0 then .finite 0
  else if 400 < exponent then .infinite negative
  else if (digits.log2 : Int) + 1 + 3 * exponent < -1100 then .finite 0
  else
    let magnitude := (digits : Rat) * (10 : Rat) ^ exponent
    nearest (if negative then -magnitude else magnitude)

/-- The integer denoted by an optional sign and at least one digit, and nothing else. -/
def integerOfChars? (chars : List Char) : Option Int :=
  let (negative, digits) :=
    match chars with
    | '-' :: rest => (true, rest)
    | '+' :: rest => (false, rest)
    | rest => (false, rest)
  if digits.isEmpty || !digits.all isDigit then none
  else if negative then some (-(ofDigits digits : Int))
  else some (ofDigits digits)

/-- Reads a strict decimal integer, rounded to the nearest number. -/
def ofIntegerText? (text : String) : Option Number :=
  (integerOfChars? text.toList).map fun value =>
    ofDecimal (value < 0) value.natAbs 0

/-! ## Shortest digits -/

/-- A decimal value `digits * 10 ^ exponent`. -/
structure Decimal where
  digits : Nat
  exponent : Int
  deriving DecidableEq, Repr

namespace Decimal

def value (decimal : Decimal) : Rat :=
  (decimal.digits : Rat) * (10 : Rat) ^ decimal.exponent

def trimmed (decimal : Decimal) : Decimal :=
  go decimal.digits decimal.digits decimal.exponent
where
  /-- One zero goes at a time; there are fewer of them than the digits' value. -/
  go : Nat → Nat → Int → Decimal
    | 0, digits, exponent => ⟨digits, exponent⟩
    | budget + 1, digits, exponent =>
        if digits ≠ 0 ∧ digits % 10 = 0 then go budget (digits / 10) (exponent + 1)
        else ⟨digits, exponent⟩

end Decimal

/-- How many decimal digits a natural number has; 0 has one. -/
def digitCount (value : Nat) : Nat :=
  (Nat.toDigits 10 value).length

/-- The `point` with `10 ^ (point - 1) ≤ value < 10 ^ point`, for a positive value. -/
def decimalPoint (value : Rat) : Int :=
  if 1 ≤ value then digitCount value.floor.toNat
  else 1 - (digitCount ((1 / value).ceil - 1).toNat : Int)

/--
A decimal of at most `count` digits that reads back as the positive `value`, if
there is one: of the two neighbours on that grid the nearer, and of two equally
near the even one.
-/
def decimalWith? (value : Rat) (count : Nat) : Option Decimal :=
  let exponent := decimalPoint value - count
  let below := (value / (10 : Rat) ^ exponent).floor.toNat
  let lower : Decimal := ⟨below, exponent⟩
  let upper : Decimal := ⟨below + 1, exponent⟩
  let toLower := value - lower.value
  let toUpper := upper.value - value
  match decide (round lower.value = value), decide (round upper.value = value) with
  | true, true =>
      if toLower < toUpper ∨ (toLower = toUpper ∧ below % 2 = 0) then some lower
      else some upper
  | true, false => some lower
  | false, true => some upper
  | false, false => none

/-- The shortest decimal that reads back as a positive binary64 value; 17 digits suffice. -/
def shortest (value : Rat) : Decimal :=
  (((List.range 17).findSome? fun count => decimalWith? value (count + 1)).getD
    ⟨value.floor.toNat, 0⟩).trimmed

/-! ## Writing -/

/-- Numbers are written positionally up to this many digits before the point. -/
def maxWholeDigits : Int := 21

/-- Numbers are written positionally up to this many zeros right after the point. -/
def maxLeadingZeros : Int := 5

def zeros (count : Int) : List Char :=
  List.replicate count.toNat '0'

def Decimal.text (decimal : Decimal) : List Char :=
  let digits := Nat.toDigits 10 decimal.digits
  let point := digits.length + decimal.exponent
  if 0 ≤ decimal.exponent ∧ point ≤ maxWholeDigits then
    digits ++ zeros decimal.exponent
  else if 0 < point ∧ point ≤ maxWholeDigits then
    digits.take point.toNat ++ '.' :: digits.drop point.toNat
  else if -maxLeadingZeros ≤ point ∧ point ≤ 0 then
    '0' :: '.' :: (zeros (-point) ++ digits)
  else
    let scale := point - 1
    let fraction :=
      match digits.drop 1 with
      | [] => []
      | rest => '.' :: rest
    digits.take 1 ++ fraction ++
      'e' :: (if scale < 0 then '-' else '+') :: Nat.toDigits 10 scale.natAbs

/-- Integers up to this magnitude, the 53rd power of 2, are all binary64 values. -/
def exactIntegerBound : Nat := 9007199254740992

def rationalText (value : Rat) : String :=
  if value.den = 1 ∧ value.num.natAbs ≤ exactIntegerBound then toString value.num
  else if value < 0 then String.ofList ('-' :: (shortest (-value)).text)
  else String.ofList (shortest value).text

def text : Number → String
  | .nan => "NaN"
  | .infinite negative => if negative then "-Infinity" else "Infinity"
  | .finite value => rationalText value

def integerText (value : Int) : String :=
  (ofInt value).text

end Number

end TapeDebugger
