import TapeDebugger.Proofs.Session.Intake

/-!
# Input in advance

A program cannot tell when its input was queued, as long as it never finds the
input at its end.  So all input of a row of turns can be queued before the first
of them: every reply is the same then, and so is the session at the end.
-/

namespace TapeDebugger

open Machine (Outcome Resumption)

namespace Session

variable {session : Session} {count : Number}

/-! ## One operation -/

/-- The reply with more bytes behind those that are pending. -/
def Reply.feed {α : Type} (reply : Reply α) (bytes : List UInt8) : Reply α :=
  { reply with session := reply.session.feed bytes }

/-- No instruction that an operation executes finds the input at its end. -/
def Provided (session : Session) (operation : Operation) : Prop :=
  ∀ execution ∈ session.executions operation, ¬ execution.Starves

instance (session : Session) (operation : Operation) : Decidable (session.Provided operation) :=
  inferInstanceAs (Decidable (∀ execution ∈ session.executions operation, ¬ execution.Starves))

theorem settle_feed (session : Session) (program : Program) (outcome : Outcome)
    (machine : Machine) (bytes : List UInt8) :
    (session.feed bytes).settle program (outcome, machine.feed bytes) =
      (session.settle program (outcome, machine)).feed bytes := by
  cases outcome <;> rfl

theorem settleResumption_feed (session : Session) (program : Program) (resumption : Resumption)
    (machine : Machine) (bytes : List UInt8) :
    (session.feed bytes).settleResumption program (resumption, machine.feed bytes) =
      (session.settleResumption program (resumption, machine)).feed bytes := by
  cases resumption <;> rfl

theorem execution_feed (session : Session) (bytes : List UInt8) :
    (session.feed bytes).execution = session.execution := rfl

/-- Stepping is the same before more input, also if it comes to nothing. -/
theorem next_feed (bytes : List UInt8) {patience : Nat}
    (provided : session.Provided (.next count patience)) :
    (session.feed bytes).next count patience =
      (session.next count patience).map (Reply.feed · bytes) := by
  cases executing : session.execution with
  | error error =>
      simp only [next, execution_feed, executing]
      rfl
  | ok running =>
      obtain ⟨program, runtime⟩ := running
      have executingFed := (session.execution_feed bytes).trans executing
      cases counted : count.toNat? with
      | none =>
          simp only [next, executingFed, executing, counted]
          rfl
      | some number =>
          rw [Provided, executions_of_running executing, bound,
            ← countBound_of_toNat? counted] at provided
          have fed : Machine.runNumber program (session.feed bytes).eofValue count patience
              ⟨runtime, (session.feed bytes).channel⟩ = _ :=
            Machine.runNumber_feed bytes provided
          rw [next_of_running executing counted, next_of_running executingFed counted, fed]
          cases Machine.runNumber program session.eofValue count patience
              ⟨runtime, session.channel⟩ with
          | error interrupt => rfl
          | ok result =>
              exact congrArg some (session.settle_feed program result.1 result.2 bytes)

/-- So is going on. -/
theorem resume_feed (bytes : List UInt8) {patience : Nat}
    (provided : session.Provided (.resume patience)) :
    (session.feed bytes).resume patience =
      (session.resume patience).map (Reply.feed · bytes) := by
  cases executing : session.execution with
  | error error =>
      simp only [resume, execution_feed, executing]
      rfl
  | ok running =>
      obtain ⟨program, runtime⟩ := running
      have executingFed := (session.execution_feed bytes).trans executing
      rw [Provided, executions_of_running executing, bound] at provided
      have fed : Machine.resume program (session.feed bytes).eofValue
          (session.feed bytes).settings.continueStepLimit patience
          ⟨runtime, (session.feed bytes).channel⟩ = _ := Machine.resume_feed bytes provided
      rw [resume_of_running executing, resume_of_running executingFed, fed]
      cases Machine.resume program session.eofValue session.settings.continueStepLimit patience
          ⟨runtime, session.channel⟩ with
      | error interrupt => rfl
      | ok answer =>
          exact congrArg some (session.settleResumption_feed program answer.1 answer.2 bytes)

/-! ## Rows of turns -/

/-- A request to step, or a text that is queued. -/
inductive Turn where
  | next (count : Number) (patience : Nat)
  | queue (text : String)

variable {row : List Turn}

def Turn.isQueue : Turn → Bool
  | .next _ _ => false
  | .queue _ => true

/-- The bytes that the texts of a row come to. -/
def Turn.bytes (row : List Turn) : List UInt8 :=
  row.flatMap fun
    | .next _ _ => []
    | .queue text => Text.utf8 text

/-- The row with all its texts before the first step, each in its place among them. -/
def Turn.inAdvance (row : List Turn) : List Turn :=
  row.filter Turn.isQueue ++ row.filter fun turn => !turn.isQueue

/-- What a row of turns comes to: the replies to its steps, in their order, and what is left. -/
structure Played where
  replies : List (Reply (Except UserError Outcome))
  final : Session

/-- Plays a row of turns.  It comes to nothing if a step of it does. -/
def play (session : Session) : List Turn → Option Played
  | [] => some ⟨[], session⟩
  | .next count patience :: rest =>
      match session.next count patience with
      | none => none
      | some reply =>
          (reply.session.play rest).map fun played => { played with replies := reply :: played.replies }
  | .queue text :: rest => (session.queueInput text).session.play rest

/-- No instruction that a row executes finds the input at its end. -/
def AllProvided (session : Session) : List Turn → Prop
  | [] => True
  | .next count patience :: rest =>
      session.Provided (.next count patience) ∧
        match session.next count patience with
        | none => True
        | some reply => reply.session.AllProvided rest
  | .queue text :: rest => (session.queueInput text).session.AllProvided rest

instance decidableAllProvided : (row : List Turn) → (session : Session) →
    Decidable (session.AllProvided row)
  | [], _ => .isTrue trivial
  | .next count patience :: rest, session =>
      have : Decidable (match session.next count patience with
          | none => True
          | some reply => reply.session.AllProvided rest) :=
        match session.next count patience with
        | none => .isTrue trivial
        | some reply => decidableAllProvided rest reply.session
      inferInstanceAs (Decidable (_ ∧ _))
  | .queue text :: rest, session => decidableAllProvided rest (session.queueInput text).session

theorem feed_feed (session : Session) (first second : List UInt8) :
    (session.feed first).feed second = session.feed (first ++ second) := by
  simp only [feed, Machine.Channel.feed, List.append_assoc]

theorem feed_nil (session : Session) : session.feed [] = session := by
  simp only [feed, Machine.Channel.feed, List.append_nil]

/-- Queueing the texts of a row brings all of its bytes, and what follows is played then. -/
theorem play_queues (session : Session) (row rest : List Turn) :
    session.play (row.filter Turn.isQueue ++ rest) = (session.feed (Turn.bytes row)).play rest := by
  induction row generalizing session with
  | nil => rw [show Turn.bytes [] = [] from rfl, feed_nil]; rfl
  | cons turn others ih =>
      cases turn with
      | next count patience => exact ih session
      | queue text =>
          have played := ih (session.queueInput text).session
          rw [session_queueInput, feed_feed] at played
          exact played

/-- The same has been played, apart from bytes that are pending after a step. -/
structure Played.Same (late early : Played) : Prop where
  replies : List.Forall₂ (fun late early => ∃ bytes, early = late.feed bytes)
    late.replies early.replies
  final : early.final = late.final

/--
The steps of a row do the same with all its bytes before them.  At each step the
sessions differ by the bytes that are still to be queued, and at the end by none.
-/
theorem steps_in_advance (provided : session.AllProvided row) :
    Option.Rel Played.Same (session.play row)
      ((session.feed (Turn.bytes row)).play (row.filter fun turn => !turn.isQueue)) := by
  induction row generalizing session with
  | nil => exact .some ⟨.nil, session.feed_nil⟩
  | cons turn rest ih =>
      cases turn with
      | next count patience =>
          obtain ⟨providedFirst, providedRest⟩ := provided
          have fed := next_feed (Turn.bytes rest) providedFirst
          show Option.Rel _ (session.play (.next count patience :: rest))
            ((session.feed (Turn.bytes rest)).play (.next count patience :: _))
          rw [play, play, fed]
          cases answered : session.next count patience with
          | none => exact .none
          | some reply =>
              rw [answered] at providedRest
              have same := ih providedRest
              show Option.Rel _ (Option.map _ (reply.session.play rest))
                (Option.map _ ((reply.session.feed (Turn.bytes rest)).play _))
              revert same
              generalize reply.session.play rest = late
              generalize Session.play _ _ = early
              rintro (⟨⟨replies, final⟩⟩ | _)
              · exact .some ⟨.cons ⟨Turn.bytes rest, rfl⟩ replies, final⟩
              · exact .none
      | queue text =>
          have same := ih provided
          rw [session_queueInput, feed_feed] at same
          exact same

/--
As long as no instruction finds the input at its end, all texts can be queued
before the first step.  Each reply is then the same but for bytes that are pending,
and the session at the end is the same; and if a step comes to no end it still does not.
So more input behind what a run takes does not change that run, whether it is stepped or
goes on.
-/
theorem same_replies_in_advance (provided : session.AllProvided row) :
    Option.Rel Played.Same (session.play row) (session.play (Turn.inAdvance row)) ∧
      (∀ count patience text, session.Provided (.next count patience) →
        (session.queueInput text).session.next count patience =
          (session.next count patience).map (Reply.feed · (Text.utf8 text))) ∧
      ∀ patience text, session.Provided (.resume patience) →
        (session.queueInput text).session.resume patience =
          (session.resume patience).map (Reply.feed · (Text.utf8 text)) := by
  refine ⟨?_, ?_, ?_⟩
  · rw [Turn.inAdvance, play_queues]
    exact steps_in_advance provided
  · intro count patience text providedNext
    exact next_feed (Text.utf8 text) providedNext
  · intro patience text providedResume
    exact resume_feed (Text.utf8 text) providedResume

/-- A session at the start of a program that reads and writes three bytes. -/
def echoing : Session :=
  ((start (.ofTexts [("interpreterTapeSize", "2")])).load ",.,.,." none).session.run.session

/-- A row whose second step reads the end of one text and the start of the next. -/
def betweenTexts : List Turn :=
  [.queue "\u00e9", .next (.finite 2) 0, .queue "x", .next (.finite 4) 0, .queue "rest"]

/-- The bytes are echoed in advance as between the steps, and the last text is pending. -/
theorem same_replies_between_texts :
    echoing.AllProvided betweenTexts ∧
      ∃ late early, echoing.play betweenTexts = some late ∧
        echoing.play [.queue "\u00e9", .queue "x", .queue "rest", .next (.finite 2) 0,
          .next (.finite 4) 0] = some early ∧
        late.Same early ∧ late.replies.length = 2 ∧
        late.final.channel = ⟨#[0xc3, 0xa9, 0x78], [0x72, 0x65, 0x73, 0x74]⟩ := by
  have provided : echoing.AllProvided betweenTexts := by decide +kernel
  have facts : (echoing.play betweenTexts).map
      (fun played => (played.replies.length, played.final.channel)) =
        some (2, ⟨#[0xc3, 0xa9, 0x78], [0x72, 0x65, 0x73, 0x74]⟩) := by decide +kernel
  obtain ⟨late, played, facts⟩ := Option.map_eq_some_iff.mp facts
  obtain ⟨length_eq, channel_eq⟩ := Prod.mk.inj facts
  obtain ⟨same, -, -⟩ := same_replies_in_advance provided
  rw [played] at same
  generalize early_eq : echoing.play (Turn.inAdvance betweenTexts) = early at same
  cases same with
  | some same => exact ⟨provided, late, _, played, early_eq, same, length_eq, channel_eq⟩

end Session

end TapeDebugger
