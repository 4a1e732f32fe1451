/-!
# Numbers

The numbers that a user types, a settings file holds and a message shows are
binary64 values.  A finite one is kept as the exact rational it denotes; the
sign of a zero is not kept, because nothing ever shows it.

Every operation of this library on numbers is exact, followed where needed by
one rounding: `round` takes a rational to the nearest multiple of its unit in
the last place, and a half to the even one.
-/

namespace TapeDebugger

/-- A binary64 value without the sign of its zero. -/
inductive Number where
  | nan
  | infinite (negative : Bool)
  | finite (value : Rat)
  deriving DecidableEq, Repr

namespace Number

/-! ## Rounding -/

/-- The nearest integer; a half goes to the even neighbour. -/
def roundHalfEven (value : Rat) : Int :=
  let below := value.floor
  let rest := value - below
  if rest < 1 / 2 then below
  else if 1 / 2 < rest then below + 1
  else if below % 2 = 0 then below
  else below + 1

/-- The exponent `e` with `2 ^ e ≤ |value| < 2 ^ (e + 1)`, for a nonzero value. -/
def binade (value : Rat) : Int :=
  let guess : Int := (value.num.natAbs.log2 : Int) - (value.den.log2 : Int)
  if (2 : Rat) ^ guess ≤ value.abs then guess else guess - 1

/-- The distance between neighbouring binary64 values around `value`. -/
def unit (value : Rat) : Rat :=
  (2 : Rat) ^ max (-1074) (binade value - 52)

/-- The nearest value with a significand of 53 bits, overflow left aside. -/
def round (value : Rat) : Rat :=
  roundHalfEven (value / unit value) * unit value

/-- The least magnitude that is too large for a finite number. -/
def overflowBound : Rat :=
  (2 : Rat) ^ (1024 : Int)

/-- The number nearest to a rational; beyond the range it is infinite. -/
def nearest (value : Rat) : Number :=
  let rounded := round value
  if overflowBound ≤ rounded.abs then .infinite (rounded < 0) else .finite rounded

/-! ## Integers -/

def ofInt (value : Int) : Number :=
  nearest value

def ofNat (value : Nat) : Number :=
  ofInt value

def toInt? : Number → Option Int
  | .finite value => if value.den = 1 then some value.num else none
  | _ => none

def toNat? (number : Number) : Option Nat :=
  number.toInt?.bind Int.toNat?

/-- A number is taken for a natural number exactly if it is one. -/
theorem toNat?_eq_some_iff {number : Number} {value : Nat} :
    number.toNat? = some value ↔ number = .finite value := by
  cases number with
  | nan => exact ⟨nofun, nofun⟩
  | infinite negative => exact ⟨nofun, nofun⟩
  | finite rational =>
      rw [finite.injEq, toNat?, toInt?]
      constructor
      · intro found
        split at found
        · rename_i whole
          have num_eq : rational.num = value := Int.mem_toNat?.mp found
          exact Rat.ext (by rw [num_eq, Rat.num_natCast]) (by rw [whole, Rat.den_natCast])
        · cases found
      · rintro rfl
        rw [if_pos (Rat.den_natCast value), Rat.num_natCast]
        exact Int.mem_toNat?.mpr rfl

@[simp] theorem toNat?_natCast (value : Nat) : (finite value).toNat? = some value :=
  toNat?_eq_some_iff.mpr rfl

/-- A number cut toward 0; one that is not finite becomes 0. -/
def truncated : Number → Int
  | .finite value => if value < 0 then value.ceil else value.floor
  | _ => 0

/-! ## Residues -/

/--
The cell value that stands for a number among `modulus` many: the residue of
an integer.  A fraction is reduced with the sign of the number, moved up by one
modulus, rounded, reduced once more and cut; a number that is not finite
stands for 0.
-/
def residue (modulus : Nat) : Number → Nat
  | .finite value =>
      if value.den = 1 then (value.num % modulus).toNat
      else
        let towardZero := truncated (.finite (value / modulus))
        let moved := round (value - towardZero * modulus + modulus)
        (moved.floor % modulus).toNat
  | _ => 0

end Number

end TapeDebugger
