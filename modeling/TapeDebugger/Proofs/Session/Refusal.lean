import TapeDebugger.Proofs.Session.Answers

/-!
# Refused requests

What is asked of a session is refused exactly if something is wrong with it: there
is no program to run, nothing is running, or a count or an index is none that can
be meant.  A refused request leaves everything as it was and gives no signal.
-/

namespace TapeDebugger

open Machine (Runtime)

namespace Session

/-! ## Requests -/

/-- What can be asked of a session and may be refused. -/
inductive Request where
  | run
  | next (count : Number) (patience : Nat)
  | resume (patience : Nat)
  | jump (index : Number)
  | dataPointer
  | cell (index? : Option Number)
  | tapeWindow (radius? : Option Number)
  | currentInstruction

/-- Whether a request is about a run that goes on. -/
def Request.needsRun : Request → Bool
  | run => false
  | next _ _ | resume _ | jump _ | dataPointer | cell _ | tapeWindow _ | currentInstruction => true

/-- The error of the user in an answer. -/
def refusal? {α : Type} : Except UserError α → Option UserError
  | .error error => some error
  | .ok _ => none

/-- The error of the user in the answer of a start; that there is no tape is none. -/
def runRefusal? : Except RunError Runtime → Option UserError
  | .error (.user error) => some error
  | .error (.tape _) | .ok _ => none

/-- The error of the user in a look at an instruction; that there is none to look at is none. -/
def instructionRefusal? : Except InstructionError InstructionReport → Option UserError
  | .error (.user error) => some error
  | .error .missing | .ok _ => none

/-- A reply of which only the error of the user is kept as its answer. -/
def Reply.refusal {α : Type} (reply : Reply (Except UserError α)) : Reply (Option UserError) :=
  ⟨refusal? reply.answer, reply.session, reply.signals⟩

/-- The reply to a look into the session. -/
def look {α : Type} (session : Session) (found : Except UserError α) :
    Reply (Option UserError) :=
  ⟨refusal? found, session, []⟩

/--
The reply to a request, with the error of the user as its answer if it is refused.
There is none for executing instructions that do not come to an end within the patience.
-/
def ask (session : Session) : Request → Option (Reply (Option UserError))
  | .run => some ⟨runRefusal? session.run.answer, session.run.session, session.run.signals⟩
  | .next count patience => (session.next count patience).map Reply.refusal
  | .resume patience => (session.resume patience).map Reply.refusal
  | .jump index => some (session.jump (some index)).refusal
  | .dataPointer => some (session.look session.dataPointer)
  | .cell index? => some (session.look (session.cell index?))
  | .tapeWindow radius? => some (session.look (session.tapeWindow radius?))
  | .currentInstruction =>
      some ⟨instructionRefusal? session.currentInstruction, session, []⟩

/-- A request is refused for an error of the kind. -/
def Refuses (session : Session) (request : Request) (kind : UserError.Kind) : Prop :=
  ∃ reply error, session.ask request = some reply ∧ reply.answer = some error ∧ error.kind = kind

/-- What is wrong with a request. -/
inductive Due (session : Session) : Request → UserError.Kind → Prop where
  | noProgram (absent : session.state.program? = none) : Due session .run .noProgramLoaded
  | notRunning {request : Request} (needsRun : request.needsRun = true)
      (idle : session.status ≠ .running) : Due session request .notRunning
  | count {count : Number} {patience : Nat} (running : session.status = .running)
      (outside : ¬ ∃ value : Nat, count = .finite value) :
      Due session (.next count patience) .invalidCount
  | instruction {index : Number} {program : Program} (running : session.status = .running)
      (present : session.state.program? = some program)
      (outside : ¬ ∃ value : Nat, 1 ≤ value ∧ value ≤ program.count ∧ index = .finite value) :
      Due session (.jump index) .invalidIndex
  | cell {index : Number} {runtime : Runtime} (running : session.status = .running)
      (current : session.state.runtime? = some runtime)
      (outside : ¬ ∃ value : Nat, value < runtime.tape.length ∧ index = .finite value) :
      Due session (.cell (some index)) .invalidIndex

/-! ## When there is no run -/

variable {session : Session} {request : Request} {kind : UserError.Kind}

theorem refuses_iff_of_ask {reply : Reply (Option UserError)}
    (asked : session.ask request = some reply) :
    session.Refuses request kind ↔ reply.answer.map UserError.kind = some kind := by
  rw [Refuses, asked, Option.map_eq_some_iff]
  constructor
  · rintro ⟨_, error, same, answered, kind_eq⟩
    cases same
    exact ⟨error, answered, kind_eq⟩
  · rintro ⟨error, answered, kind_eq⟩
    exact ⟨reply, error, rfl, answered, kind_eq⟩

theorem execution_of_idle (idle : session.status ≠ .running) :
    session.execution = .error .notRunning := by
  unfold execution
  split
  · rename_i phase_eq
    exact absurd (by rw [status, phase_eq]; rfl) idle
  · rfl

/-- Whatever is about a run is refused without one, and nothing else comes of it. -/
theorem ask_of_idle (needsRun : request.needsRun = true) (idle : session.status ≠ .running) :
    session.ask request = some ⟨some .notRunning, session, []⟩ := by
  have idle := execution_of_idle idle
  cases request with
  | run => cases needsRun
  | next count patience =>
      simp only [ask, next, idle, Option.map_some, Reply.refusal, refusal?]
  | resume patience => simp only [ask, resume, idle, Option.map_some, Reply.refusal, refusal?]
  | jump index => simp only [ask, jump, idle, Reply.refusal, refusal?]
  | dataPointer =>
      rw [ask, dataPointer, idle]
      rfl
  | cell index? =>
      rw [ask, cell, idle]
      rfl
  | tapeWindow radius? =>
      rw [ask, tapeWindow, idle]
      rfl
  | currentInstruction =>
      rw [ask, currentInstruction, idle]
      rfl

theorem refuses_of_idle_iff (needsRun : request.needsRun = true)
    (idle : session.status ≠ .running) :
    session.Refuses request kind ↔ kind = .notRunning := by
  rw [refuses_iff_of_ask (ask_of_idle needsRun idle)]
  simp [UserError.kind, eq_comm]

theorem refuses_run_iff :
    session.Refuses .run kind ↔ kind = .noProgramLoaded ∧ session.state.program? = none := by
  rw [refuses_iff_of_ask rfl]
  show (runRefusal? session.run.answer).map UserError.kind = some kind ↔
    kind = .noProgramLoaded ∧ session.phase.program? = none
  simp only [run]
  split
  · rename_i absent
    simp [runRefusal?, UserError.kind, eq_comm, absent]
  · rename_i present
    split
    · simp [runRefusal?, present]
    · simp [runRefusal?, present]

/-! ## While there is a run -/

variable {program : Program} {runtime : Runtime}

/-- What has an answer is refused for nothing, so also not for what is not due. -/
theorem kind_refusal_of_ok {α : Type} {value : α} {expected : UserError.Kind} {due : Prop}
    (notDue : ¬ due) :
    (refusal? (.ok value)).map UserError.kind = some kind ↔ kind = expected ∧ due := by
  simp [refusal?, notDue]

theorem kind_refusal_of_error {α : Type} {error : UserError} {due : Prop} (holds : due) :
    (refusal? (.error error : Except UserError α)).map UserError.kind = some kind ↔
      kind = error.kind ∧ due := by
  simp [refusal?, holds, eq_comm]

theorem next_of_not_natural (running : session.phase = .running program runtime)
    {count : Number} (outside : ¬ ∃ value : Nat, count = .finite value) (patience : Nat) :
    session.next count patience = some { answer := .error (.badCount count.text), session } := by
  cases found : count.toNat? with
  | none => simp only [next, execution_of_running running, found]
  | some value => exact absurd ⟨value, Number.toNat?_eq_some_iff.mp found⟩ outside

/-- A natural count is never refused while there is a run to go on with. -/
theorem not_refuses_next (running : session.phase = .running program runtime) (count : Nat)
    (patience : Nat) : ¬ session.Refuses (.next (.finite count) patience) kind := by
  rintro ⟨reply, error, asked, refused, -⟩
  obtain ⟨found, answered, rfl⟩ := Option.map_eq_some_iff.mp asked
  rw [next_of_running (execution_of_running running) (Number.toNat?_natCast count)] at answered
  obtain ⟨result, -, rfl⟩ := Option.map_eq_some_iff.mp answered
  rw [Reply.refusal, answer_settle] at refused
  cases refused

theorem refuses_next_iff (running : session.phase = .running program runtime) {count : Number}
    {patience : Nat} :
    session.Refuses (.next count patience) kind ↔
      kind = .invalidCount ∧ ¬ ∃ value : Nat, count = .finite value := by
  by_cases natural : ∃ value : Nat, count = .finite value
  · obtain ⟨value, rfl⟩ := natural
    exact iff_of_false (not_refuses_next running value patience)
      fun due => due.2 ⟨value, rfl⟩
  · have asked : session.ask (.next count patience) = _ :=
      congrArg (Option.map Reply.refusal) (next_of_not_natural running natural patience)
    rw [refuses_iff_of_ask asked]
    show (refusal? (.error _ : Except UserError Machine.Outcome)).map UserError.kind = some kind ↔ _
    exact kind_refusal_of_error natural

/-- Going on is never refused while there is a run to go on with. -/
theorem not_refuses_resume (running : session.phase = .running program runtime)
    (patience : Nat) : ¬ session.Refuses (.resume patience) kind := by
  rintro ⟨reply, error, asked, refused, -⟩
  obtain ⟨found, resumed, rfl⟩ := Option.map_eq_some_iff.mp asked
  rw [resume_of_running (execution_of_running running)] at resumed
  obtain ⟨answer, -, rfl⟩ := Option.map_eq_some_iff.mp resumed
  rw [Reply.refusal, answer_settleResumption] at refused
  cases refused

theorem answer_jump_of_outside (running : session.phase = .running program runtime)
    {index : Number}
    (outside : ¬ ∃ value : Nat, 1 ≤ value ∧ value ≤ program.count ∧ index = .finite value) :
    (session.jump (some index)).answer =
      .error (.instructionOutOfRange (some index) program.count) := by
  simp only [jump, execution_of_running running, Option.bind_some]
  split
  · rename_i pc found
    rw [if_neg]
    intro inside
    exact outside ⟨pc + 1, Nat.succ_pos pc, inside, Number.toNat?_eq_some_iff.mp found⟩
  · rfl

theorem refuses_jump_iff (running : session.phase = .running program runtime) {index : Number} :
    session.Refuses (.jump index) kind ↔
      kind = .invalidIndex ∧
        ¬ ∃ value : Nat, 1 ≤ value ∧ value ≤ program.count ∧ index = .finite value := by
  rw [refuses_iff_of_ask rfl]
  show (refusal? (session.jump (some index)).answer).map UserError.kind = some kind ↔ _
  by_cases within : ∃ value : Nat, 1 ≤ value ∧ value ≤ program.count ∧ index = .finite value
  · obtain ⟨value, positive, inside, rfl⟩ := within
    obtain ⟨pc, rfl⟩ := Nat.exists_eq_add_of_le' positive
    rw [jump_of_inside running inside]
    exact kind_refusal_of_ok (not_not_intro ⟨pc + 1, positive, inside, rfl⟩)
  · rw [answer_jump_of_outside running within]
    exact kind_refusal_of_error within

theorem cellAt_of_inside {index : Nat} (inside : index < runtime.tape.length) :
    cellAt runtime (.finite index) = .ok (reportAt runtime index) := by
  simp only [cellAt, Number.toNat?_natCast, inside, if_true]

theorem cellAt_of_outside {index : Number}
    (outside : ¬ ∃ value : Nat, value < runtime.tape.length ∧ index = .finite value) :
    cellAt runtime index = .error (.cellOutOfRange index runtime.tape.length) := by
  simp only [cellAt]
  split
  · rename_i cell found
    rw [if_neg]
    intro inside
    exact outside ⟨cell, inside, Number.toNat?_eq_some_iff.mp found⟩
  · rfl

theorem cell_of_running (running : session.phase = .running program runtime)
    (index? : Option Number) :
    session.cell index? = cellAt runtime (index?.getD (.finite runtime.pointer.value)) := by
  rw [cell, execution_of_running running]
  rfl

theorem dataPointer_of_running (running : session.phase = .running program runtime) :
    session.dataPointer = .ok runtime.pointer := by
  rw [dataPointer, execution_of_running running]
  rfl

theorem currentInstruction_of_running (running : session.phase = .running program runtime)
    (inRange : runtime.InRange program) :
    session.currentInstruction =
      .ok ⟨runtime.pc.next, (runtime.instruction program).operator⟩ := by
  simp only [currentInstruction, execution_of_running running, inRange.isInside, if_true]

theorem refuses_cell_iff (running : session.phase = .running program runtime) {index : Number} :
    session.Refuses (.cell (some index)) kind ↔
      kind = .invalidIndex ∧
        ¬ ∃ value : Nat, value < runtime.tape.length ∧ index = .finite value := by
  rw [refuses_iff_of_ask rfl]
  show (refusal? (session.cell (some index))).map UserError.kind = some kind ↔ _
  rw [cell_of_running running, Option.getD_some]
  by_cases within : ∃ value : Nat, value < runtime.tape.length ∧ index = .finite value
  · obtain ⟨value, inside, rfl⟩ := within
    rw [cellAt_of_inside inside]
    exact kind_refusal_of_ok (not_not_intro ⟨value, inside, rfl⟩)
  · rw [cellAt_of_outside within]
    exact kind_refusal_of_error within

/-- A look that finds something is not refused. -/
theorem not_refuses_of_look {reply : Reply (Option UserError)}
    (asked : session.ask request = some reply) (none_eq : reply.answer = none) :
    ¬ session.Refuses request kind := by
  rw [refuses_iff_of_ask asked, none_eq]
  exact nofun

/-- The pointer is on the tape, so a look at its cell is never refused. -/
theorem not_refuses_current_cell (running : session.phase = .running program runtime)
    (inRange : runtime.InRange program) : ¬ session.Refuses (.cell none) kind := by
  obtain ⟨pointer, pointer_eq, inside⟩ := inRange.pointer
  refine not_refuses_of_look rfl ?_
  have found : cellAt runtime (.finite pointer) = .ok (reportAt runtime pointer) :=
    cellAt_of_inside inside
  rw [look, cell_of_running running, Option.getD_none, pointer_eq, Machine.Position.value, found]
  rfl

/-! ## Refused exactly when due -/

theorem due_of_idle_iff (needsRun : request.needsRun = true) (idle : session.status ≠ .running) :
    session.Due request kind ↔ kind = .notRunning := by
  constructor
  · intro due
    cases due with
    | noProgram => cases needsRun
    | notRunning => rfl
    | count running => exact absurd running idle
    | instruction running => exact absurd running idle
    | cell running => exact absurd running idle
  · rintro rfl
    exact .notRunning needsRun idle

theorem state_of_running (running : session.phase = .running program runtime) :
    session.status = .running ∧ session.state.program? = some program ∧
      session.state.runtime? = some runtime := by
  simp only [status, state, running, Phase.status, Phase.program?, Phase.runtime?, and_self]

/-- While there is a run in range, what is refused is due. -/
theorem refuses_of_running_iff (running : session.phase = .running program runtime)
    (inRange : runtime.InRange program) (needsRun : request.needsRun = true) :
    session.Refuses request kind ↔ session.Due request kind := by
  obtain ⟨status_eq, program_eq, runtime_eq⟩ := state_of_running running
  cases request with
  | run => cases needsRun
  | next count patience =>
      rw [refuses_next_iff running]
      constructor
      · rintro ⟨rfl, outside⟩
        exact .count status_eq outside
      · intro due
        cases due with
        | notRunning _ idle => exact absurd status_eq idle
        | count _ outside => exact ⟨rfl, outside⟩
  | resume patience =>
      exact iff_of_false (not_refuses_resume running patience)
        fun (.notRunning _ idle) => idle status_eq
  | jump index =>
      rw [refuses_jump_iff running]
      constructor
      · rintro ⟨rfl, outside⟩
        exact .instruction status_eq program_eq outside
      · intro due
        cases due with
        | notRunning _ idle => exact absurd status_eq idle
        | instruction _ present outside =>
            cases program_eq.symm.trans present
            exact ⟨rfl, outside⟩
  | dataPointer =>
      refine iff_of_false (not_refuses_of_look rfl ?_) fun (.notRunning _ idle) => idle status_eq
      rw [look, dataPointer_of_running running]
      rfl
  | cell index? =>
      cases index? with
      | none =>
          exact iff_of_false (not_refuses_current_cell running inRange)
            fun (.notRunning _ idle) => idle status_eq
      | some index =>
          rw [refuses_cell_iff running]
          constructor
          · rintro ⟨rfl, outside⟩
            exact .cell status_eq runtime_eq outside
          · intro due
            cases due with
            | notRunning _ idle => exact absurd status_eq idle
            | cell _ current outside =>
                cases runtime_eq.symm.trans current
                exact ⟨rfl, outside⟩
  | tapeWindow radius? =>
      refine iff_of_false (not_refuses_of_look rfl ?_) fun (.notRunning _ idle) => idle status_eq
      rw [look, tapeWindow, execution_of_running running]
      rfl
  | currentInstruction =>
      refine iff_of_false (not_refuses_of_look rfl ?_) fun (.notRunning _ idle) => idle status_eq
      dsimp only
      rw [currentInstruction_of_running running inRange]
      rfl

/-- A request that is refused leaves the session as it was and gives no signal. -/
theorem unchanged_of_refused {reply : Reply (Option UserError)} {error : UserError}
    (asked : session.ask request = some reply) (refused : reply.answer = some error) :
    reply.session = session ∧ reply.signals = [] := by
  -- every check stands before the first change, so only branches without a change refuse
  cases request with
  | run =>
      cases asked
      simp only [run] at refused ⊢
      split at refused
      · exact ⟨rfl, rfl⟩
      · split at refused
        · cases refused
        · cases refused
  | next count patience =>
      obtain ⟨found, answered, rfl⟩ := Option.map_eq_some_iff.mp asked
      rcases next_cases answered with ⟨error, rfl⟩ | ⟨program, runtime, running, rfl⟩
      · exact ⟨rfl, rfl⟩
      · rw [Reply.refusal, answer_settle] at refused
        cases refused
  | resume patience =>
      obtain ⟨found, resumed, rfl⟩ := Option.map_eq_some_iff.mp asked
      rcases resume_cases resumed with ⟨error, rfl⟩ | ⟨program, runtime, found, running, -, rfl⟩
      · exact ⟨rfl, rfl⟩
      · rw [Reply.refusal, answer_settleResumption] at refused
        cases refused
  | jump index =>
      cases asked
      simp only [Reply.refusal, jump] at refused ⊢
      split at refused
      · exact ⟨rfl, rfl⟩
      · split at refused
        · split at refused
          · cases refused
          · rename_i behind
            rw [if_neg behind]
            exact ⟨rfl, rfl⟩
        · exact ⟨rfl, rfl⟩
  | dataPointer =>
      cases asked
      exact ⟨rfl, rfl⟩
  | cell index? =>
      cases asked
      exact ⟨rfl, rfl⟩
  | tapeWindow radius? =>
      cases asked
      exact ⟨rfl, rfl⟩
  | currentInstruction =>
      cases asked
      exact ⟨rfl, rfl⟩

/--
In every session that can be reached a request is refused exactly if something is
wrong with it, whatever number is asked for; and then the session with all its
runs, its input and its output is left as it was, and nothing is let known.
-/
theorem refused_iff_due (reachable : session.Reachable) (request : Request) :
    (∀ kind, session.Refuses request kind ↔ session.Due request kind) ∧
      ∀ reply error, session.ask request = some reply → reply.answer = some error →
        reply.session = session ∧ reply.signals = [] := by
  refine ⟨?_, fun reply error => unchanged_of_refused⟩
  intro kind
  by_cases needsRun : request.needsRun = true
  · by_cases running : session.status = .running
    · -- only the looks at the cell and the instruction need that the runtime is in range
      obtain ⟨program, runtime, running⟩ := exists_running running
      exact refuses_of_running_iff running (reachable.sound.phase.running running).2 needsRun
    · rw [refuses_of_idle_iff needsRun running, due_of_idle_iff needsRun running]
  · cases request with
    | run =>
        rw [refuses_run_iff]
        constructor
        · rintro ⟨rfl, absent⟩
          exact .noProgram absent
        · intro due
          cases due with
          | noProgram absent => exact ⟨rfl, absent⟩
          | notRunning needsRun => cases needsRun
    | next | resume | jump | dataPointer | cell | tapeWindow | currentInstruction =>
        exact absurd rfl needsRun

/-- A session at the start of a program of two instructions, on a tape of three cells. -/
def threeCells : Session where
  settings := { tapeSize := 3 }
  phase :=
    .running
      { instructions := #[⟨.increment, 0, ⟨1, 1⟩⟩, ⟨.finish, 0, ⟨1, 2⟩⟩], capacity := 4096 }
      { tape := ⟨.bits16, #[0, 0, 0]⟩ }

/-- The last instruction is the second and the last cell the third, and a half is no count. -/
theorem refused_threeCells :
    threeCells.Reachable ∧ threeCells.Refuses (.next (.finite (1 / 2)) 0) .invalidCount ∧
      threeCells.Refuses (.jump (.finite (3 : Nat))) .invalidIndex ∧
      ¬ threeCells.Refuses (.jump (.finite (2 : Nat))) .invalidIndex ∧
      threeCells.Refuses (.cell (some (.infinite false))) .invalidIndex ∧
      ¬ threeCells.Refuses .run .noProgramLoaded := by
  have reachable : threeCells.Reachable := by
    refine ⟨.ofTexts [("interpreterTapeSize", "3")], [.load "+" none, .run], ?_⟩
    decide +kernel
  refine ⟨reachable, ?_, ?_, ?_, ?_, ?_⟩
  · refine ((refused_iff_due reachable _).1 _).mpr (.count rfl ?_)
    rintro ⟨value, same⟩
    have natural := Number.toNat?_eq_some_iff.mpr same
    have none_eq : (Number.finite (1 / 2)).toNat? = none := by decide +kernel
    rw [none_eq] at natural
    cases natural
  · refine ((refused_iff_due reachable _).1 _).mpr (.instruction rfl rfl ?_)
    rintro ⟨value, -, inside, same⟩
    have same : 3 = value := by exact_mod_cast Number.finite.inj same
    exact absurd (same ▸ inside) (by decide)
  · intro refused
    cases ((refused_iff_due reachable _).1 _).mp refused with
    | instruction _ present outside =>
        cases present
        exact outside ⟨2, by decide, by decide, rfl⟩
  · refine ((refused_iff_due reachable _).1 _).mpr (.cell rfl rfl ?_)
    rintro ⟨value, -, same⟩
    cases same
  · intro refused
    cases ((refused_iff_due reachable _).1 _).mp refused with
    | noProgram absent => cases absent

end Session

end TapeDebugger
