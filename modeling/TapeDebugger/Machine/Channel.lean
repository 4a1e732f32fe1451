import TapeDebugger.Text.Utf8

/-!
# The channel

A program writes bytes to its channel and reads bytes that were queued there.
Bytes are read in the order they were queued, each once.
-/

namespace TapeDebugger

namespace Machine

/-- The bytes a program has written, and those it has still to read. -/
structure Channel where
  output : Array UInt8 := #[]
  pending : List UInt8 := []
  deriving DecidableEq, Repr

namespace Channel

def write (channel : Channel) (byte : UInt8) : Channel :=
  { channel with output := channel.output.push byte }

/-- Takes the next byte, if there is one. -/
def read (channel : Channel) : Option UInt8 × Channel :=
  match channel.pending with
  | [] => (none, channel)
  | byte :: rest => (some byte, { channel with pending := rest })

/-- Queues the bytes of a text behind all that are pending, and tells how many they are. -/
def queue (channel : Channel) (text : String) : Nat × Channel :=
  let bytes := Text.utf8 text
  (bytes.length, { channel with pending := channel.pending ++ bytes })

/-- Forgets what was written; what is pending stays. -/
def clearOutput (channel : Channel) : Channel :=
  { channel with output := #[] }

@[simp] theorem output_write (channel : Channel) (byte : UInt8) :
    (channel.write byte).output = channel.output.push byte := rfl

@[simp] theorem pending_write (channel : Channel) (byte : UInt8) :
    (channel.write byte).pending = channel.pending := rfl

@[simp] theorem output_read (channel : Channel) : channel.read.2.output = channel.output := by
  unfold read
  split <;> rfl

/-- What is read and what is pending then make up what was pending before. -/
theorem read_append_pending (channel : Channel) :
    channel.read.1.toList ++ channel.read.2.pending = channel.pending := by
  unfold read
  split <;> simp_all

/-- Reading finds nothing exactly if nothing is pending. -/
theorem read_eq_none_iff (channel : Channel) : channel.read.1 = none ↔ channel.pending = [] := by
  unfold read
  split <;> simp_all

@[simp] theorem pending_queue (channel : Channel) (text : String) :
    (channel.queue text).2.pending = channel.pending ++ Text.utf8 text := rfl

@[simp] theorem output_queue (channel : Channel) (text : String) :
    (channel.queue text).2.output = channel.output := rfl

@[simp] theorem pending_clearOutput (channel : Channel) :
    channel.clearOutput.pending = channel.pending := rfl

end Channel

end Machine

end TapeDebugger
