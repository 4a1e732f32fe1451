import Mathlib.Data.List.DropRight
import TapeDebugger.Proofs.Console.Speech

/-!
# The output of a program

What a program writes is handed out byte by byte as it is executed, over all runs of
a history and in their order.  The output that is kept beside it is that of the last
run alone: only a start that succeeds forgets what was written before.
-/

namespace TapeDebugger

open Session (Event Operation Reply)

/-! ## Starts -/

/-- Whether an operation starts a run of a session. -/
def Session.starts (session : Session) : Operation → Bool
  | .run => session.run.answer.toBool
  | .load _ _ | .next _ _ | .resume _ | .jump _ | .discard | .reload _ | .queueInput _
  | .clearOutput => false

/-- A start is told of exactly if there is one. -/
theorem Session.any_isStart_of_perform {session : Session} {operation : Operation}
    {reply : Reply Unit} (performed : session.perform operation = some reply) :
    reply.events.any Event.isStart = session.starts operation := by
  by_cases isRun : operation = .run
  · subst isRun
    cases performed
    simp only [starts, Reply.withoutAnswer, Reply.events, run]
    split
    · rfl
    · split <;> rfl
  · have starts_eq : session.starts operation = false := by
      cases operation with
      | run => exact absurd rfl isRun
      | load | next | resume | jump | discard | reload | queueInput | clearOutput => rfl
    have performs := performs_of_perform performed
    rw [starts_eq]
    generalize reply.session = next, reply.events = events at performs
    cases performs with
    | notStarted | started => exact absurd rfl isRun
    | refused | loadFailed | loaded | paused | halted | jumped | discarded | reloaded | queued
    | cleared => rfl

namespace Console

variable {console next : Console} {action : Action} {actions : List Action}
  {done : List (Session × Operation)}

/-! ## Bytes that are handed out -/

/-- The byte of the program that is handed out, if it is one. -/
def Effect.byte? : Effect → Option UInt8
  | .programByte byte => some byte
  | .message _ | .errorMessage _ | .noted _ => none

/-- The bytes of the program that a console has handed out. -/
def bytesOut (console : Console) : List UInt8 :=
  console.written.toList.filterMap Effect.byte?

/-- These effects are handed out behind all others, and none of them is a byte of the program. -/
def Adds (console : Console) (messages : List Effect) (next : Console) : Prop :=
  next.written.toList = console.written.toList ++ messages ∧
    ∀ effect ∈ messages, effect.byte? = none

theorem adds_nil (console : Console) : console.Adds [] console :=
  ⟨(List.append_nil _).symm, List.forall_mem_nil _⟩

theorem Adds.emit {messages : List Effect} {effect : Effect} (adds : console.Adds messages next)
    (silent : effect.byte? = none) : console.Adds (messages ++ [effect]) (next.emit effect) := by
  refine ⟨?_, ?_⟩
  · rw [Console.emit, Array.toList_push, adds.1, List.append_assoc]
  · intro other found
    rcases List.mem_append.mp found with before | last
    · exact adds.2 other before
    · rw [List.eq_of_mem_singleton last]
      exact silent

theorem Adds.closeLine {messages : List Effect} (adds : console.Adds messages next) :
    ∃ more, console.Adds more next.closeLine := by
  unfold Console.closeLine
  split
  · exact ⟨_, adds.emit rfl⟩
  · exact ⟨_, adds⟩

/-- Whatever a console says is handed out behind all that was. -/
theorem Speaks.adds (speaks : console.Speaks next) : ∃ messages, console.Adds messages next := by
  induction speaks with
  | silent => exact ⟨[], console.adds_nil⟩
  | working _ session ih => exact ih
  | said _ present ih =>
      obtain ⟨_, adds⟩ := ih
      obtain ⟨_, closed⟩ := adds.closeLine
      exact ⟨_, closed.emit rfl⟩
  | complained _ text ih =>
      obtain ⟨_, adds⟩ := ih
      obtain ⟨_, closed⟩ := adds.closeLine
      exact ⟨_, closed.emit rfl⟩
  | noted _ entry ih =>
      obtain ⟨_, adds⟩ := ih
      exact ⟨_, adds.emit rfl⟩
  | closed _ ih =>
      obtain ⟨_, adds⟩ := ih
      exact adds.closeLine

theorem written_writeBytes (console : Console) (bytes : List UInt8) :
    (console.writeBytes bytes).written.toList =
      console.written.toList ++ bytes.map Effect.programByte := by
  induction bytes generalizing console with
  | nil => exact (List.append_nil _).symm
  | cons byte rest ih =>
      refine (ih (console.writeByte byte)).trans ?_
      simp [writeByte, emit]

/-- The bytes that are passed on come right behind all that was handed out before. -/
theorem Relays.written {bytes : List UInt8} (relays : console.Relays bytes next) :
    ∃ messages, next.written.toList =
        console.written.toList ++ bytes.map Effect.programByte ++ messages ∧
      ∀ effect ∈ messages, effect.byte? = none := by
  obtain ⟨messages, written_eq, silent⟩ := Speaks.adds relays
  rw [written_writeBytes] at written_eq
  exact ⟨messages, written_eq, silent⟩

theorem Relays.bytesOut {bytes : List UInt8} (relays : console.Relays bytes next) :
    next.bytesOut = console.bytesOut ++ bytes := by
  obtain ⟨messages, written_eq, silent⟩ := relays.written
  have bytes_eq : (bytes.map Effect.programByte).filterMap Effect.byte? = bytes := by
    rw [List.filterMap_map]
    exact List.filterMap_some
  rw [Console.bytesOut, written_eq, List.filterMap_append, List.filterMap_append, bytes_eq,
    List.filterMap_eq_nil_iff.mpr silent, List.append_nil, Console.bytesOut]

/-! ## Reports of the output -/

/-- The console goes on listening, and nobody clears the output by hand. -/
def Action.keepsOutput : Action → Bool
  | .dispose | .direct .clearOutput => false
  | .direct _ | .line _ _ _ | .loadFile _ _ | .showStatus => true

/-- The bytes that the instructions of a row of operations write, in their order. -/
def emittedBy (done : List (Session × Operation)) : List UInt8 :=
  done.flatMap fun step => step.1.emittedBy step.2

/-- The operations behind the last one that started a run; all of them if none did. -/
def sinceStart (done : List (Session × Operation)) : List (Session × Operation) :=
  done.rtakeWhile fun step => !step.1.starts step.2

/-- All that was written was handed out, and the output is that of the last run. -/
structure Reported (done : List (Session × Operation)) (console : Console) : Prop where
  listening : console.listening = true
  bytesOut : console.bytesOut = emittedBy done
  output : console.session.channel.output.toList = emittedBy (sinceStart done)

theorem emittedBy_concat (done : List (Session × Operation)) (step : Session × Operation) :
    emittedBy (done ++ [step]) = emittedBy done ++ step.1.emittedBy step.2 := by
  simp [emittedBy]

/-- An action that keeps the output does not ask to clear it. -/
theorem Action.ne_clearOutput {operation : Operation} (keeps : action.keepsOutput = true)
    (asked : action.operation? = some operation) : operation ≠ .clearOutput := by
  rintro rfl
  cases action with
  | direct operation =>
      cases asked
      cases keeps
  | line text read patience => cases isCommanded_of_line asked
  | loadFile path read =>
      have commanded := isCommanded_fileOperation read path
      rw [Option.some.inj asked] at commanded
      cases commanded
  | showStatus | dispose => cases asked

namespace Reported

theorem opened (storage : Settings.Storage) : Reported [] (opened storage) :=
  ⟨rfl, rfl, rfl⟩

/-- One more action hands out what its operation writes, and only a start empties the output. -/
theorem act (reported : Reported done console) (acted : console.act action = some next)
    (keeps : action.keepsOutput = true) :
    Reported (done ++ action.operation?.toList.map fun operation => (console.session, operation))
      next := by
  have notDispose : action ≠ .dispose := by
    rintro rfl
    cases keeps
  have relays := relays_of_act acted notDispose
  rw [shown, if_pos reported.listening] at relays
  have listening : next.listening = true :=
    (Speaks.listening relays).trans ((listening_writeBytes _ _).trans reported.listening)
  have bytesOut := relays.bytesOut
  rw [reported.bytesOut] at bytesOut
  have affects := affects_of_act acted
  cases asked : action.operation? with
  | none =>
      rw [asked] at bytesOut affects
      have session_eq : next.session = console.session := by
        generalize next.session = after at affects
        cases affects
        rfl
      refine ⟨listening, ?_, ?_⟩
      · rw [bytesOut, Option.toList_none, List.map_nil, List.append_nil]
        exact List.append_nil _
      · rw [session_eq, reported.output, Option.toList_none, List.map_nil, List.append_nil]
  | some operation =>
      rw [asked] at bytesOut affects
      have emitted_eq := emittedBy_concat done (console.session, operation)
      refine ⟨listening, bytesOut.trans emitted_eq.symm, ?_⟩
      have kept := Action.ne_clearOutput keeps asked
      generalize next.session = after at affects
      cases affects with
      | @performed _ reply performed =>
          have starts_eq := Session.any_isStart_of_perform performed
          rw [heard, reported.listening, Bool.true_and, starts_eq]
          simp only [sinceStart, Option.toList_some, List.map_cons, List.map_nil]
          cases started : console.session.starts operation with
          | true =>
              rw [if_pos rfl, List.rtakeWhile_concat_neg _ _ _ (by simp [started])]
              rfl
          | false =>
              rw [if_neg (by simp), List.rtakeWhile_concat_pos _ _ _ (by simp [started]),
                emittedBy_concat, Session.output_of_perform performed kept, reported.output]
              rfl

theorem actAll (reported : Reported done console) (acted : console.actAll actions = some next)
    (keeps : ∀ action ∈ actions, action.keepsOutput = true) :
    Reported (done ++ console.steps actions) next := by
  induction actions generalizing console done with
  | nil =>
      cases acted
      exact (List.append_nil done).symm ▸ reported
  | cons action rest ih =>
      obtain ⟨middle, actedFirst, actedRest⟩ := actAll_cons_eq_some_iff.mp acted
      obtain ⟨keepsFirst, keepsRest⟩ := List.forall_mem_cons.mp keeps
      simp only [steps, actedFirst, ← List.append_assoc]
      exact ih (reported.act actedFirst keepsFirst) actedRest keepsRest

end Reported

/-- Starting a run leaves the input alone, whether there is a run then or not. -/
theorem pending_of_run (acted : console.act action = some next)
    (asked : action.operation? = some .run) :
    next.session.channel.pending = console.session.channel.pending := by
  have affects := affects_of_act acted
  rw [asked] at affects
  generalize next.session = after at affects
  cases affects with
  | @performed _ reply performed =>
      have pending_eq := (Session.performs_of_perform performed).pending rfl
      rw [Session.Operation.queued, List.append_nil] at pending_eq
      rw [heard]
      split <;> exact pending_eq

/--
Over every history at a console that listens, the bytes that it hands out are those
that the executed instructions write, one after the other, and the output is made up
of those since the last start.  Each action hands out its bytes right behind all that
was handed out before it and in front of all else that comes of it; and a start,
whether it succeeds or not, leaves the input alone.
-/
theorem output_is_reported {storage : Settings.Storage}
    (acted : (Console.opened storage).actAll actions = some console)
    (keeps : ∀ action ∈ actions, action.keepsOutput = true) :
    console.bytesOut = emittedBy ((Console.opened storage).steps actions) ∧
      console.session.channel.output.toList =
        emittedBy (sinceStart ((Console.opened storage).steps actions)) ∧
      ∀ (action : Action) (next : Console), action.keepsOutput = true →
        console.act action = some next →
          (∃ messages, next.written.toList = console.written.toList ++
              (console.emittedIn action.operation?).map Effect.programByte ++ messages ∧
            ∀ effect ∈ messages, effect.byte? = none) ∧
          (action.operation? = some .run →
            next.session.channel.pending = console.session.channel.pending) := by
  have reported := (Reported.opened storage).actAll acted keeps
  refine ⟨reported.bytesOut, reported.output, ?_⟩
  intro action next keepsNext actedNext
  have notDispose : action ≠ .dispose := by
    rintro rfl
    cases keepsNext
  have relays := relays_of_act actedNext notDispose
  rw [shown, if_pos reported.listening] at relays
  exact ⟨relays.written, pending_of_run actedNext⟩

/-- A reader that knows a file of a program that writes three bytes. -/
def countFile : Reader
  | "count.b" => .ok "+.+.>."
  | path => noFile path

/-- A program that is started anew after a start that found no tape, and after a halt. -/
def counting : List Action :=
  [.line "file count.b" countFile 0, .line "run" countFile 0, .line "next 3" countFile 0,
    .direct (.reload (.ofTexts [("interpreterTapeSize", "9007199254740992")])),
    .line "r" countFile 0, .direct (.resume 9),
    .direct (.reload (.ofTexts [("interpreterTapeSize", "2")])), .showStatus,
    .line "r" countFile 0, .line "n 2" countFile 0]

/-- Three bytes are handed out over two runs, and the output is that of the second one. -/
theorem output_is_reported_counting :
    ∃ console, (opened (.ofTexts [("interpreterTapeSize", "1")])).actAll counting = some console ∧
      (∀ action ∈ counting, action.keepsOutput = true) ∧
      console.bytesOut = [1, 2, 1] ∧
      emittedBy ((opened (.ofTexts [("interpreterTapeSize", "1")])).steps counting) = [1, 2, 1] ∧
      emittedBy (sinceStart ((opened (.ofTexts [("interpreterTapeSize", "1")])).steps counting)) =
        [1] ∧
      ∀ next, console.act (.direct .run) = some next →
        next.session.channel.pending = console.session.channel.pending := by
  have keeps : ∀ action ∈ counting, action.keepsOutput = true := by decide
  have facts : ((opened (.ofTexts [("interpreterTapeSize", "1")])).actAll counting).map
      (fun console => (console.bytesOut, console.session.channel.output.toList)) =
        some ([1, 2, 1], [1]) := by decide +kernel
  obtain ⟨console, acted, facts⟩ := Option.map_eq_some_iff.mp facts
  obtain ⟨bytesOut_eq, output_eq⟩ := Prod.mk.inj facts
  obtain ⟨bytesOut, output, further⟩ := output_is_reported acted keeps
  refine ⟨console, acted, keeps, bytesOut_eq, bytesOut.symm.trans bytesOut_eq,
    output.symm.trans output_eq, ?_⟩
  intro next actedNext
  exact (further (.direct .run) next rfl actedNext).2 rfl

end Console

end TapeDebugger
