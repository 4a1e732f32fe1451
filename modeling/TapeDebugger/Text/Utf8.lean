/-!
# Bytes and text

Text leaves the program as UTF-8.  Bytes that come in are decoded without ever
failing: every maximal piece of a broken sequence becomes one replacement
character, and a byte order mark is a character like any other.
-/

namespace TapeDebugger

namespace Text

/-! ## Encoding -/

def utf8 (text : String) : List UInt8 :=
  text.toUTF8.data.toList

@[simp] theorem utf8_empty : utf8 "" = [] := by
  simp [utf8]

/-- The bytes of two texts in a row are those of the one and then those of the other. -/
@[simp] theorem utf8_append (left right : String) :
    utf8 (left ++ right) = utf8 left ++ utf8 right := by
  simp [utf8]

/-! ## Decoding -/

/-- The character that stands for bytes that are no text. -/
def replacement : Char := '\ufffd'

/-- A sequence that lacks `missing` bytes, the next of them between `low` and `high`. -/
structure Sequence where
  missing : Nat
  low : UInt8
  high : UInt8
  value : Nat
  deriving Repr

/-- What the decoder has to say of a byte: characters read, and a sequence left open. -/
abbrev Decoding := List Char × Option Sequence

/-- Reads a byte outside any sequence. -/
def decodeFirst (byte : UInt8) : Decoding :=
  if byte < 0x80 then ([Char.ofNat byte.toNat], none)
  else if 0xc2 ≤ byte ∧ byte ≤ 0xdf then
    ([], some ⟨1, 0x80, 0xbf, byte.toNat % 32⟩)
  else if 0xe0 ≤ byte ∧ byte ≤ 0xef then
    let low := if byte = 0xe0 then 0xa0 else 0x80
    let high := if byte = 0xed then 0x9f else 0xbf
    ([], some ⟨2, low, high, byte.toNat % 16⟩)
  else if 0xf0 ≤ byte ∧ byte ≤ 0xf4 then
    let low := if byte = 0xf0 then 0x90 else 0x80
    let high := if byte = 0xf4 then 0x8f else 0xbf
    ([], some ⟨3, low, high, byte.toNat % 8⟩)
  else ([replacement], none)

/--
Reads a byte with a sequence perhaps open.  A byte that cannot go on with it
closes it as broken and is read anew.
-/
def decodeByte : Option Sequence → UInt8 → Decoding
  | none, byte => decodeFirst byte
  | some sequence, byte =>
      if sequence.low ≤ byte ∧ byte ≤ sequence.high then
        let value := sequence.value * 64 + byte.toNat % 64
        if sequence.missing ≤ 1 then ([Char.ofNat value], none)
        else ([], some ⟨sequence.missing - 1, 0x80, 0xbf, value⟩)
      else
        let (chars, next) := decodeFirst byte
        (replacement :: chars, next)

/-- Goes on decoding, behind the characters read so far, with one more byte. -/
def decodeNext (state : Array Char × Option Sequence) (byte : UInt8) :
    Array Char × Option Sequence :=
  let (chars, next) := decodeByte state.2 byte
  (state.1.appendList chars, next)

/-- The text that bytes hold; a sequence left open at their end is broken. -/
def decode (bytes : List UInt8) : String :=
  let (chars, sequence?) := bytes.foldl decodeNext (#[], none)
  String.ofList (if sequence?.isSome then chars.push replacement else chars).toList

/-! ## Input that stops short -/

/-- Whether a byte can only go on with a sequence. -/
def isContinuation (byte : UInt8) : Bool :=
  0x80 ≤ byte ∧ byte ≤ 0xbf

/-- How many bytes a sequence has whose first byte this is, going by its high bits; else 0. -/
def announcedLength (byte : UInt8) : Nat :=
  if 0xc0 ≤ byte ∧ byte ≤ 0xdf then 2
  else if 0xe0 ≤ byte ∧ byte ≤ 0xef then 3
  else if 0xf0 ≤ byte ∧ byte ≤ 0xf7 then 4
  else 0

/-- How many bytes at the end belong to a sequence that still waits for more. -/
def waitingLength (bytes : List UInt8) : Nat :=
  let reversed := bytes.reverse
  let continuing := (reversed.takeWhile isContinuation).length
  match reversed.drop continuing with
  | [] => 0
  | first :: _ => if continuing + 1 < announcedLength first then continuing + 1 else 0

/-- The bytes without a sequence at their end that still waits for more. -/
def dropWaiting (bytes : List UInt8) : List UInt8 :=
  bytes.take (bytes.length - waitingLength bytes)

end Text

end TapeDebugger
