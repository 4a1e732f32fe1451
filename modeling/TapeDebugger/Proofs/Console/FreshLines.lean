import TapeDebugger.Proofs.Console.Intake
import TapeDebugger.Proofs.Console.Speech
import TapeDebugger.Proofs.Row
import TapeDebugger.Transcript

/-!
# Fresh lines

The console knows by one flag how its stream ends.  The flag tells that a byte of
the program was written last and left a line open; while it does not, the stream
ends with a line feed.  So whatever the console says begins on a line of its own,
and it ends a line before that exactly if the program has left one open.
-/

namespace TapeDebugger

namespace Console

/-! ## The end of the stream -/

/-- The bytes that effects write to the stream of messages and program output. -/
def outStream (effects : List Effect) : List UInt8 :=
  effects.flatMap Transcript.outBytes

/-- The stream is empty or ends with a line feed. -/
def Fresh (effects : List Effect) : Prop :=
  ∀ byte ∈ (outStream effects).getLast?, byte = 10

/-- Whether an effect goes to the stream of messages and program output. -/
def Effect.isOut : Effect → Bool
  | .message _ | .programByte _ => true
  | .errorMessage _ | .noted _ => false

/-- Whether an effect is a byte of the program that leaves a line open. -/
def Effect.leavesOpen : Effect → Bool
  | .programByte byte => byte ≠ 10
  | .message _ | .errorMessage _ | .noted _ => false

/-- Whether the stream ends with a byte of the program that leaves a line open. -/
def endsOpen (effects : List Effect) : Bool :=
  (effects.filter Effect.isOut).getLast?.any Effect.leavesOpen

variable {before : List Effect} {effect : Effect}

theorem outStream_append (before behind : List Effect) :
    outStream (before ++ behind) = outStream before ++ outStream behind :=
  List.flatMap_append

theorem endsOpen_concat_of_isOut (goesOut : effect.isOut = true) :
    endsOpen (before ++ [effect]) = effect.leavesOpen := by
  simp [endsOpen, List.filter_append, goesOut]

theorem endsOpen_concat_of_not_isOut (other : effect.isOut = false) :
    endsOpen (before ++ [effect]) = endsOpen before := by
  simp [endsOpen, List.filter_append, other]

theorem outBytes_of_not_isOut (other : effect.isOut = false) :
    Transcript.outBytes effect = [] := by
  cases effect with
  | message | programByte => cases other
  | errorMessage | noted => rfl

theorem fresh_nil : Fresh [] :=
  nofun

theorem Fresh.concat_of_not_isOut (fresh : Fresh before) (other : effect.isOut = false) :
    Fresh (before ++ [effect]) := by
  have out_eq : outStream [effect] = [] := by simp [outStream, outBytes_of_not_isOut other]
  rwa [Fresh, outStream_append, out_eq, List.append_nil]

/-- What ends with a line feed leaves a fresh line behind it. -/
theorem fresh_concat (bytes : List UInt8) (ended : Transcript.outBytes effect = bytes ++ [10]) :
    Fresh (before ++ [effect]) := by
  have out_eq : outStream [effect] = bytes ++ [10] := by simp [outStream, ended]
  rw [Fresh, outStream_append, out_eq, ← List.append_assoc, List.getLast?_concat]
  rintro _ ⟨⟩
  rfl

theorem fresh_line (before : List Effect) (text : String) :
    Fresh (before ++ [.message s!"{text}\n"]) :=
  fresh_concat _ (utf8_line text)

theorem fresh_lineFeed (before : List Effect) : Fresh (before ++ [.message "\n"]) :=
  fresh_line before ""

theorem line_ne_lineFeed {text : String} (present : text ≠ "") : s!"{text}\n" ≠ "\n" := by
  intro same
  have chars : text.toList ++ ['\n'] = [] ++ ['\n'] := by
    simpa [toString] using congrArg String.toList same
  exact present (String.toList_eq_nil_iff.mp (List.append_cancel_right chars))

/-! ## The place of an effect -/

/--
How an effect can follow those before it.  A message that is nothing but a line feed
ends a line that the program has left open; every other one begins a fresh line, on
either stream.
-/
def Placed (before : List Effect) : Effect → Prop
  | .message text => if endsOpen before then text = "\n" else text ≠ "\n" ∧ Fresh before
  | .errorMessage _ => endsOpen before = false ∧ Fresh before
  | .programByte _ | .noted _ => True

/--
The flag of a console tells how its stream ends, and what it has handed out follows
a rule.
-/
structure Aligned (rule : List Effect → Effect → Prop) (console : Console) : Prop where
  flag : console.lineOpen = endsOpen console.written.toList
  fresh : console.lineOpen = false → Fresh console.written.toList
  lawful : Row.Lawful rule console.written.toList

variable {rule : List Effect → Effect → Prop} {console next : Console}

namespace Aligned

theorem withSession (aligned : Aligned rule console) (session : Session) :
    Aligned rule { console with session } :=
  ⟨aligned.flag, aligned.fresh, aligned.lawful⟩

/-- One more effect, that the rule allows, with a flag that tells how the stream ends then. -/
theorem emit (aligned : Aligned rule console) (lineOpen : Bool)
    (allowed : rule console.written.toList effect)
    (flag : lineOpen = endsOpen (console.written.toList ++ [effect]))
    (fresh : lineOpen = false → Fresh (console.written.toList ++ [effect])) :
    Aligned rule { console.emit effect with lineOpen } where
  flag := by rwa [Console.emit, Array.toList_push]
  fresh := by rwa [Console.emit, Array.toList_push]
  lawful := by
    rw [Console.emit, Array.toList_push]
    exact aligned.lawful.concat allowed

/-- An effect that does not go to the stream changes nothing about its end. -/
theorem emit_silent (aligned : Aligned rule console) (other : effect.isOut = false)
    (allowed : rule console.written.toList effect) : Aligned rule (console.emit effect) := by
  apply aligned.emit console.lineOpen allowed
  · rw [endsOpen_concat_of_not_isOut other]
    exact aligned.flag
  · intro closed
    exact (aligned.fresh closed).concat_of_not_isOut other

/-- A message that ends its line keeps the flag, if no line is open in front of it. -/
theorem emit_line (aligned : Aligned rule console) (closed : console.lineOpen = false)
    {text : String} (allowed : rule console.written.toList (.message s!"{text}\n")) :
    Aligned rule (console.emit (.message s!"{text}\n")) := by
  apply aligned.emit console.lineOpen allowed
  · rw [endsOpen_concat_of_isOut rfl]
    exact closed
  · intro _
    exact fresh_line _ text

end Aligned

theorem lineOpen_closeLine (console : Console) : console.closeLine.lineOpen = false := by
  unfold closeLine
  split
  · rfl
  · exact Bool.eq_false_iff.mpr ‹_›

theorem written_closeLine (console : Console) :
    console.closeLine.written.toList =
      console.written.toList ++ if console.lineOpen then [.message "\n"] else [] := by
  unfold closeLine
  split
  · rw [emit, Array.toList_push]
  · exact (List.append_nil _).symm

theorem Placed.line {text : String} (present : text ≠ "") (closed : endsOpen before = false)
    (fresh : Fresh before) : Placed before (.message s!"{text}\n") := by
  rw [Placed, if_neg (by simp [closed])]
  exact ⟨line_ne_lineFeed present, fresh⟩

/-! ## Following the rule -/

section Wider

-- the rule allows whatever a console does by itself
variable (wider : ∀ before effect, Placed before effect → rule before effect)
include wider

namespace Aligned

/-- A new console, behind entries of the log that were noted before it. -/
theorem begins (session : Session) (entries : List Log.Entry) :
    Aligned rule { session, written := (entries.map Effect.noted).toArray } := by
  induction entries using List.reverseRecOn with
  | nil => exact ⟨rfl, fun _ => fresh_nil, Row.lawful_nil⟩
  | append_singleton front entry ih =>
      have noted := ih.emit_silent rfl (wider _ (.noted entry) trivial)
      rwa [Console.emit, List.push_toArray, ← List.map_singleton, ← List.map_append] at noted

theorem writeByte (aligned : Aligned rule console) (byte : UInt8) :
    Aligned rule (console.writeByte byte) := by
  apply aligned.emit (byte ≠ 10) (wider _ (.programByte byte) trivial)
  · rw [endsOpen_concat_of_isOut rfl]
    rfl
  · intro closed
    have ended : byte = 10 := by simpa using closed
    exact fresh_concat [] (congrArg (fun byte => [byte]) ended)

theorem writeBytes (aligned : Aligned rule console) (bytes : List UInt8) :
    Aligned rule (console.writeBytes bytes) := by
  induction bytes generalizing console with
  | nil => exact aligned
  | cons byte rest ih => exact ih (aligned.writeByte wider byte)

theorem closeLine (aligned : Aligned rule console) : Aligned rule console.closeLine := by
  unfold Console.closeLine
  split
  · rename_i unfinished
    apply aligned.emit false
    · apply wider
      rw [Placed, if_pos (aligned.flag.symm.trans unfinished)]
    · rw [endsOpen_concat_of_isOut rfl]
      rfl
    · intro _
      exact fresh_lineFeed _
  · exact aligned

theorem say (aligned : Aligned rule console) {text : String} (present : text ≠ "") :
    Aligned rule (console.say text) := by
  have closed := aligned.closeLine wider
  have shut := console.lineOpen_closeLine
  exact closed.emit_line shut
    (wider _ _ (.line present (closed.flag.symm.trans shut) (closed.fresh shut)))

theorem complain (aligned : Aligned rule console) (text : String) :
    Aligned rule (console.complain text) := by
  have closed := aligned.closeLine wider
  have shut := console.lineOpen_closeLine
  exact closed.emit_silent rfl (wider _ _ ⟨closed.flag.symm.trans shut, closed.fresh shut⟩)

/-- However a console speaks, its flag goes on telling how the stream ends. -/
theorem speaks (aligned : Aligned rule console) (speaks : console.Speaks next) :
    Aligned rule next := by
  induction speaks with
  | silent => exact aligned
  | working _ session ih => exact ih.withSession session
  | said _ present ih => exact ih.say wider present
  | complained _ text ih => exact ih.complain wider text
  | noted _ entry ih => exact ih.emit_silent rfl (wider _ _ trivial)
  | closed _ ih => exact ih.closeLine wider

theorem relays {bytes : List UInt8} (aligned : Aligned rule console)
    (relays : console.Relays bytes next) : Aligned rule next :=
  (aligned.writeBytes wider bytes).speaks wider relays

theorem act {action : Action} (aligned : Aligned rule console)
    (acted : console.act action = some next) : Aligned rule next := by
  by_cases ends : action = .dispose
  · subst ends
    cases acted
    exact ⟨aligned.flag, aligned.fresh, aligned.lawful⟩
  · exact aligned.relays wider (relays_of_act acted ends)

theorem actAll {actions : List Action} (aligned : Aligned rule console)
    (acted : console.actAll actions = some next) : Aligned rule next := by
  induction actions generalizing console with
  | nil =>
      cases acted
      exact aligned
  | cons action rest ih =>
      obtain ⟨middle, actedFirst, actedRest⟩ := actAll_cons_eq_some_iff.mp acted
      exact ih (aligned.act wider actedFirst) actedRest

end Aligned

end Wider

/-- The status is looked up behind a line that the console has ended if it had to. -/
theorem written_statusLine (console : Console) :
    console.statusLine.2.written.toList =
      console.written.toList ++ if console.lineOpen then [.message "\n"] else [] := by
  unfold statusLine
  split <;> exact console.written_closeLine

theorem lineOpen_statusLine (console : Console) : console.statusLine.2.lineOpen = false := by
  unfold statusLine
  split <;> exact console.lineOpen_closeLine

end Console

end TapeDebugger
