import TapeDebugger.Proofs.Settings.Verbosity
import TapeDebugger.Session.Inspection

/-!
# Verbosity and sessions

Whether the whole log is to be shown is a setting like others, but no session looks at it.
Every operation comes to the same, up to that setting itself, and gives the same signals.
-/

namespace TapeDebugger

open Machine (Outcome Resumption)

namespace Session

def withVerbose (session : Session) (verbose : Bool) : Session :=
  session.withSettings (session.settings.withVerbose verbose)

def Reply.withVerbose {α : Type} (reply : Reply α) (verbose : Bool) : Reply α :=
  { reply with session := reply.session.withVerbose verbose }

variable (session : Session) (verbose : Bool)

/-! ## What is looked at -/

@[simp] theorem Reply.answer_withVerbose {α : Type} (reply : Reply α) :
    (reply.withVerbose verbose).answer = reply.answer :=
  rfl

@[simp] theorem phase_withVerbose : (session.withVerbose verbose).phase = session.phase :=
  rfl

@[simp] theorem channel_withVerbose : (session.withVerbose verbose).channel = session.channel :=
  rfl

@[simp] theorem limits_withVerbose :
    (session.withVerbose verbose).settings.limits = session.settings.limits :=
  rfl

@[simp] theorem newTape_withVerbose :
    newTape (session.withVerbose verbose).settings = newTape session.settings :=
  rfl

@[simp] theorem eofValue_withVerbose :
    (session.withVerbose verbose).eofValue = session.eofValue :=
  rfl

@[simp] theorem continueStepLimit_withVerbose :
    (session.withVerbose verbose).settings.continueStepLimit =
      session.settings.continueStepLimit :=
  rfl

@[simp] theorem execution_withVerbose :
    (session.withVerbose verbose).execution = session.execution :=
  rfl

theorem dataPointer_withVerbose :
    (session.withVerbose verbose).dataPointer = session.dataPointer :=
  rfl

theorem currentInstruction_withVerbose :
    (session.withVerbose verbose).currentInstruction = session.currentInstruction :=
  rfl

theorem cell_withVerbose (index? : Option Number) :
    (session.withVerbose verbose).cell index? = session.cell index? :=
  rfl

theorem tapeWindow_withVerbose (radius? : Option Number) :
    (session.withVerbose verbose).tapeWindow radius? = session.tapeWindow radius? :=
  rfl

/-! ## Operations -/

theorem retire_withVerbose :
    (session.withVerbose verbose).retire = session.retire.withVerbose verbose :=
  rfl

theorem discard_withVerbose :
    (session.withVerbose verbose).discard = session.discard.withVerbose verbose :=
  rfl

theorem load_withVerbose (source : String) (sourceName? : Option String) :
    (session.withVerbose verbose).load source sourceName? =
      (session.load source sourceName?).withVerbose verbose := by
  have limits_retire : session.retire.settings.limits = session.settings.limits := rfl
  simp only [load, retire_withVerbose, limits_withVerbose, limits_retire]
  cases Program.compile session.settings.limits source with
  | error error => rfl
  | ok program => rfl

theorem run_withVerbose :
    (session.withVerbose verbose).run = session.run.withVerbose verbose := by
  simp only [run, phase_withVerbose, newTape_withVerbose]
  cases session.phase.program? with
  | none => rfl
  | some program => cases newTape session.settings <;> rfl

theorem settle_withVerbose (program : Program) (result : Outcome × Machine) :
    (session.withVerbose verbose).settle program result =
      (session.settle program result).withVerbose verbose := by
  obtain ⟨outcome, machine⟩ := result
  cases outcome <;> rfl

theorem settleResumption_withVerbose (program : Program) (found : Resumption × Machine) :
    (session.withVerbose verbose).settleResumption program found =
      (session.settleResumption program found).withVerbose verbose := by
  obtain ⟨resumption, machine⟩ := found
  cases resumption <;> rfl

theorem next_withVerbose (count : Number) (patience : Nat) :
    (session.withVerbose verbose).next count patience =
      (session.next count patience).map (Reply.withVerbose · verbose) := by
  simp only [next, execution_withVerbose, channel_withVerbose, eofValue_withVerbose]
  cases session.execution with
  | error error => rfl
  | ok found =>
      cases count.toNat? with
      | none => rfl
      | some number =>
          rw [Option.map_map]
          exact congrArg (Option.map · _)
            (funext fun result => session.settle_withVerbose verbose found.1 result)

theorem resume_withVerbose (patience : Nat) :
    (session.withVerbose verbose).resume patience =
      (session.resume patience).map (Reply.withVerbose · verbose) := by
  simp only [resume, execution_withVerbose, channel_withVerbose, eofValue_withVerbose,
    continueStepLimit_withVerbose]
  cases session.execution with
  | error error => rfl
  | ok found =>
      rw [Option.map_map]
      exact congrArg (Option.map · _)
        (funext fun answer => session.settleResumption_withVerbose verbose found.1 answer)

theorem jump_withVerbose (index? : Option Number) :
    (session.withVerbose verbose).jump index? = (session.jump index?).withVerbose verbose := by
  simp only [jump, execution_withVerbose]
  cases session.execution with
  | error error => rfl
  | ok found =>
      dsimp only
      split
      · split <;> rfl
      · rfl

theorem queueInput_withVerbose (text : String) :
    (session.withVerbose verbose).queueInput text =
      (session.queueInput text).withVerbose verbose :=
  rfl

end Session

end TapeDebugger
