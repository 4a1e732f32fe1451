import TapeDebugger.Text.Utf8

/-!
# Units

Places in a text are counted in UTF-16 units, and the strings of JSON are rows
of them.  A character beyond U+FFFF takes two units, a high half and a low one.
A half that stands without the other is no character; where one is needed, the
replacement character stands for it.  Main statement: the units of a text read
as its characters.
-/

namespace TapeDebugger

namespace Text

/-! ## Characters to units -/

def unitsOf (char : Char) : List UInt16 :=
  if char.toNat < 0x10000 then [char.toNat.toUInt16]
  else
    let offset := char.toNat - 0x10000
    [(0xd800 + offset / 0x400).toUInt16, (0xdc00 + offset % 0x400).toUInt16]

def unitsOfChars (chars : List Char) : List UInt16 :=
  chars.flatMap unitsOf

def utf16 (text : String) : List UInt16 :=
  unitsOfChars text.toList

/-! ## Units to characters -/

/-- What a row of units reads as: characters, and halves without the other. -/
inductive Glyph where
  | char (value : Char)
  | half (unit : UInt16)
  deriving DecidableEq, Repr

def Glyph.toChar : Glyph → Char
  | char value => value
  | half _ => replacement

def isHigh (unit : UInt16) : Bool :=
  0xd800 ≤ unit.toNat ∧ unit.toNat < 0xdc00

def isLow (unit : UInt16) : Bool :=
  0xdc00 ≤ unit.toNat ∧ unit.toNat < 0xe000

def glyphOf (unit : UInt16) : Glyph :=
  if isHigh unit || isLow unit then .half unit else .char (Char.ofNat unit.toNat)

/-- The character of two halves. -/
def joined (high low : UInt16) : Char :=
  Char.ofNat (0x10000 + (high.toNat - 0xd800) * 0x400 + (low.toNat - 0xdc00))

/-- Puts a unit in front of units that read as some glyphs. -/
def putUnit (unit : UInt16) (glyphs : List Glyph) : List Glyph :=
  match glyphs with
  | .half low :: rest =>
      if isHigh unit && isLow low then .char (joined unit low) :: rest
      else glyphOf unit :: glyphs
  | _ => glyphOf unit :: glyphs

def glyphs (units : List UInt16) : List Glyph :=
  units.foldr putUnit []

def ofUtf16 (units : List UInt16) : String :=
  String.ofList ((glyphs units).map Glyph.toChar)

/-! ## The two ways -/

theorem putUnit_of_not_half {unit : UInt16} (h : isHigh unit = false ∧ isLow unit = false)
    (rest : List Glyph) : putUnit unit rest = .char (Char.ofNat unit.toNat) :: rest := by
  unfold putUnit
  split <;> simp [h.1, h.2, glyphOf]

theorem putUnit_of_low {unit : UInt16} (h : isLow unit = true) (rest : List Glyph) :
    putUnit unit rest = .half unit :: rest := by
  have h' : isHigh unit = false := by
    simp only [isLow, isHigh, decide_eq_true_eq, decide_eq_false_iff_not] at h ⊢
    omega
  unfold putUnit
  split <;> simp [h, h', glyphOf]

/-- A high half and a low one read as their character. -/
theorem putUnit_pair {high low : UInt16} (h : isHigh high = true) (h' : isLow low = true)
    (rest : List Glyph) :
    putUnit high (putUnit low rest) = .char (joined high low) :: rest := by
  rw [putUnit_of_low h']
  simp [putUnit, h, h']

/-- The units of a character read as it. -/
theorem putUnit_unitsOf (char : Char) (rest : List Glyph) :
    (unitsOf char).foldr putUnit rest = .char char :: rest := by
  have valid := char.valid
  rw [UInt32.isValidChar, Nat.isValidChar, ← Char.toNat] at valid
  unfold unitsOf
  split
  · have h : (char.toNat.toUInt16).toNat = char.toNat := by
      simp only [Nat.toUInt16, UInt16.toNat_ofNat']
      omega
    rw [List.foldr_cons, List.foldr_nil, putUnit_of_not_half]
    · rw [h, Char.ofNat_toNat]
    · simp only [isHigh, isLow, h, decide_eq_false_iff_not]
      omega
  · have high : ((0xd800 + (char.toNat - 0x10000) / 0x400).toUInt16).toNat =
        0xd800 + (char.toNat - 0x10000) / 0x400 := by
      simp only [Nat.toUInt16, UInt16.toNat_ofNat']
      omega
    have low : ((0xdc00 + (char.toNat - 0x10000) % 0x400).toUInt16).toNat =
        0xdc00 + (char.toNat - 0x10000) % 0x400 := by
      simp only [Nat.toUInt16, UInt16.toNat_ofNat']
      omega
    rw [List.foldr_cons, List.foldr_cons, List.foldr_nil, putUnit_pair, joined, high, low]
    · have h : 0x10000 + (0xd800 + (char.toNat - 0x10000) / 0x400 - 0xd800) * 0x400 +
          (0xdc00 + (char.toNat - 0x10000) % 0x400 - 0xdc00) = char.toNat := by
        omega
      rw [h, Char.ofNat_toNat]
    · simp only [isHigh, high, decide_eq_true_eq]
      omega
    · simp only [isLow, low, decide_eq_true_eq]
      omega

theorem glyphs_unitsOfChars (chars : List Char) :
    glyphs (unitsOfChars chars) = chars.map Glyph.char := by
  induction chars with
  | nil => rfl
  | cons char rest ih =>
      simp only [glyphs, unitsOfChars] at ih ⊢
      rw [List.flatMap_cons, List.foldr_append, ih, putUnit_unitsOf, List.map_cons]

/-- The units of a text read as this text. -/
@[simp] theorem ofUtf16_utf16 (text : String) : ofUtf16 (utf16 text) = text := by
  have h : (Glyph.toChar ∘ Glyph.char) = id := rfl
  simp [ofUtf16, utf16, glyphs_unitsOfChars, h]

end Text

end TapeDebugger
