import TapeDebugger.Proofs.Command.Layout
import TapeDebugger.Proofs.Console.History
import TapeDebugger.Proofs.Session.Intake

/-!
# The input of a console

Input comes from lines and from whoever works with the session, and it outlives
loads, runs and halts.  Over a whole history the bytes that were taken and those
that are still pending are all the bytes that were queued, in their order.
-/

namespace TapeDebugger

open Command (Layout)
open Session (Operation)

namespace Console

variable {storage : Settings.Storage} {actions : List Action} {console : Console}

/-! ## Accounts -/

/-- The bytes that a row of operations takes. -/
def takenBy (done : List (Session × Operation)) : List UInt8 :=
  done.flatMap fun step => Machine.taken (step.1.executions step.2)

/-- The bytes that a row of operations queues. -/
def queuedBy (operations : List Operation) : List UInt8 :=
  operations.flatMap Operation.queued

/-- No byte is missing, and the operations were done on sessions that are sound. -/
structure Accounted (done : List (Session × Operation)) (session : Session) : Prop where
  bytes : takenBy done ++ session.channel.pending = queuedBy (done.map Prod.snd)
  sound : session.Sound
  earlier : ∀ step ∈ done, step.1.Sound

namespace Accounted

variable {done : List (Session × Operation)} {session : Session}

theorem start (storage : Settings.Storage) : Accounted [] (Session.start storage) :=
  ⟨rfl, .start storage, fun _ none => absurd none List.not_mem_nil⟩

theorem perform {operation : Operation} {reply : Session.Reply Unit}
    (accounted : Accounted done session) (performed : session.perform operation = some reply) :
    Accounted (done ++ [(session, operation)]) reply.session where
  bytes := by
    have taken_eq : takenBy (done ++ [(session, operation)]) =
        takenBy done ++ Machine.taken (session.executions operation) := by
      simp [takenBy]
    have queued_eq : queuedBy ((done ++ [(session, operation)]).map Prod.snd) =
        queuedBy (done.map Prod.snd) ++ operation.queued := by
      simp [queuedBy]
    rw [taken_eq, queued_eq, List.append_assoc, Session.taken_append_pending performed,
      ← List.append_assoc, accounted.bytes]
  sound := accounted.sound.performs (Session.performs_of_perform performed)
  earlier := by
    intro step found
    rcases List.mem_append.mp found with before | last
    · exact accounted.earlier step before
    · rw [List.eq_of_mem_singleton last]
      exact accounted.sound

theorem clearOutput (accounted : Accounted done session) : Accounted done session.clearOutput :=
  ⟨accounted.bytes, accounted.sound.performs .cleared, accounted.earlier⟩

end Accounted

theorem accounted_of_actAll (acted : (opened storage).actAll actions = some console) :
    Accounted ((opened storage).steps actions) console.session := by
  have start : Accounted [] (opened storage).session := .start storage
  apply actAll_induction _ _ start acted
  · intro done session operation reply accounted performed
    exact accounted.perform performed
  · intro done session accounted
    exact accounted.clearOutput

/-! ## Lines of input -/

theorem utf8_line (text : String) : Text.utf8 s!"{text}\n" = Text.utf8 text ++ [10] := by
  have ended : Text.utf8 "\n" = [10] := by decide +kernel
  rw [← ended, ← Text.utf8_append]
  rfl

/--
A line with the command for input and a text behind it queues the text and a line
feed.  If there is a line break inside the text, then the line is taken for empty.
-/
theorem execute_input (console : Console) (patience : Nat) (read : Reader) {layout : Layout}
    (asked : Command.ofWord? (String.ofList layout.word) = some .input)
    (present : layout.rest ≠ []) :
    ∃ next, console.execute patience read (String.ofList layout.line) = some (.ok true, next) ∧
      next.session =
        if layout.rest.any Text.isLineBreak then console.session
        else console.session.feed (Text.utf8 (String.ofList layout.rest) ++ [10]) := by
  have parsed : Command.Line.parse (String.ofList layout.line) =
      Command.Line.ofChars layout.line :=
    congrArg Command.Line.ofChars String.toList_ofList
  rw [Command.Line.ofChars_line, asked] at parsed
  by_cases broken : layout.rest.any Text.isLineBreak = true
  · rw [if_pos broken] at parsed ⊢
    exact ⟨console, by rw [execute, parsed], rfl⟩
  · rw [if_neg broken] at parsed ⊢
    have argument : Command.Line.argumentFor? .input layout.rest =
        some (String.ofList layout.rest) := by
      rw [Command.Line.argumentFor?, if_neg (by simpa using present)]
      rfl
    refine ⟨console.queueLine (some (String.ofList layout.rest)), ?_, ?_⟩
    · simp only [execute, parsed, argument]
      rfl
    · rw [queueLine, session_say, session_follow, heard_of_silent rfl,
        Session.session_queueInput, utf8_line]

/--
Over every history the bytes that instructions have taken, with those that are
pending behind them, are the bytes of all texts that were queued.  Each byte that
is taken is stored as it is.
-/
theorem input_is_kept (acted : (opened storage).actAll actions = some console) :
    takenBy ((opened storage).steps actions) ++ console.session.channel.pending =
        queuedBy (actions.filterMap Action.operation?) ∧
      (∀ step ∈ (opened storage).steps actions, ∀ execution ∈ step.1.executions step.2,
        ∀ byte, execution.taken? = some byte →
          byte.toNat ≤ 255 ∧ execution.Stores byte.toNat) ∧
      (∀ text, (console.session.queueInput text).session =
          console.session.feed (Text.utf8 text) ∧
        (console.session.queueInput text).session.channel.pending.length =
          console.session.channel.pending.length + (console.session.queueInput text).answer) ∧
      ∀ (layout : Layout) (patience : Nat) (read : Reader),
        Command.ofWord? (String.ofList layout.word) = some .input → layout.rest ≠ [] →
          layout.rest.any Text.isLineBreak = false →
            ∃ next, console.execute patience read (String.ofList layout.line) =
                some (.ok true, next) ∧
              next.session =
                console.session.feed (Text.utf8 (String.ofList layout.rest) ++ [10]) := by
  have accounted := accounted_of_actAll acted
  refine ⟨?_, ?_, ?_, ?_⟩
  · rw [← map_operation_steps acted]
    exact accounted.bytes
  · intro step found execution executed byte took
    refine ⟨Nat.le_of_lt_succ byte.toNat_lt, ?_⟩
    exact (accounted.earlier step found).stores step.2 execution executed byte took
  · intro text
    exact ⟨console.session.session_queueInput text,
      console.session.length_pending_queueInput text⟩
  · intro layout patience read asked present unbroken
    obtain ⟨next, executed, session_eq⟩ := console.execute_input patience read asked present
    rw [if_neg (Bool.not_eq_true _ ▸ unbroken)] at session_eq
    exact ⟨next, executed, session_eq⟩

/-- Lines of input around two runs, the first of which is given up inside a character. -/
def halfRead : List Action :=
  [.line " input \u00e4  b " noFile 0, .direct (.load ",>,." none), .line "r" noFile 0,
    .line "n" noFile 0, .line "run" noFile 0, .direct (.queueInput "\u20ac"),
    .line "i c" noFile 0, .line "c" noFile 9]

/-- A line with a text of two words. -/
def twoWords : Layout where
  before := []
  word := ['i']
  gap := [' ', '\t']
  rest := ['x', ' ', 'y']
  behind := [' ']
  before_blank := List.forall_mem_nil _
  word_solid := by decide
  gap_blank := by decide
  rest_trimmed := by decide
  behind_blank := by decide
  separated := fun _ => List.cons_ne_nil _ _

/-- Three bytes are taken in two runs, and what was queued behind them is pending. -/
theorem input_is_kept_half_read :
    ∃ console, (opened (.ofTexts [("interpreterTapeSize", "2")])).actAll halfRead = some console ∧
      takenBy ((opened (.ofTexts [("interpreterTapeSize", "2")])).steps halfRead) =
        [0xc3, 0xa4, 0x20] ∧
      console.session.channel.pending =
        [0x20, 0x62, 0x0a, 0xe2, 0x82, 0xac, 0x63, 0x0a] ∧
      queuedBy (halfRead.filterMap Action.operation?) =
        [0xc3, 0xa4, 0x20, 0x20, 0x62, 0x0a, 0xe2, 0x82, 0xac, 0x63, 0x0a] ∧
      ∃ next, console.execute 0 noFile "i \tx y " = some (.ok true, next) ∧
        next.session = console.session.feed [0x78, 0x20, 0x79, 0x0a] := by
  have facts : ((opened (.ofTexts [("interpreterTapeSize", "2")])).actAll halfRead).map
      (fun console => console.session.channel.pending) =
        some [0x20, 0x62, 0x0a, 0xe2, 0x82, 0xac, 0x63, 0x0a] := by decide +kernel
  obtain ⟨console, acted, pending_eq⟩ := Option.map_eq_some_iff.mp facts
  obtain ⟨account, -, -, lines⟩ := input_is_kept acted
  have queued_eq : queuedBy (halfRead.filterMap Action.operation?) =
      [0xc3, 0xa4, 0x20] ++ [0x20, 0x62, 0x0a, 0xe2, 0x82, 0xac, 0x63, 0x0a] := by
    decide +kernel
  rw [pending_eq, queued_eq] at account
  refine ⟨console, acted, List.append_cancel_right account, pending_eq, queued_eq, ?_⟩
  exact lines twoWords 0 noFile (by decide +kernel) (List.cons_ne_nil _ _) (by decide)

/-- A line with a text that a line separator divides. -/
def dividedLine : Layout where
  before := []
  word := ['i', 'n', 'p', 'u', 't']
  gap := [' ']
  rest := ['a', '\u2028', 'b']
  behind := []
  before_blank := List.forall_mem_nil _
  word_solid := by decide
  gap_blank := by decide
  rest_trimmed := by decide
  behind_blank := List.forall_mem_nil _
  separated := fun _ => List.cons_ne_nil _ _

/-- A text that a line separator divides is lost: the console goes on without a word of it. -/
theorem divided_input_is_lost :
    String.ofList dividedLine.line = "input a\u2028b" ∧
      Command.ofWord? (String.ofList dividedLine.word) = some .input ∧
      (opened (.ofTexts [])).execute 0 noFile "input a\u2028b" =
        some (.ok true, opened (.ofTexts [])) ∧
      (opened (.ofTexts [])).session.channel.pending ≠
        (opened (.ofTexts [])).session.channel.pending ++
          (Text.utf8 (String.ofList dividedLine.rest) ++ [10]) := by
  refine ⟨by decide +kernel, by decide +kernel, ?_, by decide +kernel⟩
  have parsed : Command.Line.parse "input a\u2028b" = .empty := by decide +kernel
  rw [execute, parsed]

end Console

end TapeDebugger
