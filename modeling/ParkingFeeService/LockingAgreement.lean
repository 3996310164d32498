/-
**Agreement of the lock state and the lock signal.**

A command that changes the lock state writes the signal and then sets the state, whether or not the
write succeeded; its response is a success either way.  After a failed write the state and the
signal differ, and since a later command for the same target finds the state already there, the
signal is not written again.

State and signal agree after every command of a run exactly if every command that has to change the
state finds the broker taking its write.

Main definitions:

* `LockingService.LockingState`, `LockingService.handle` — the state and the last accepted value of
  the signal, over a sequence of payloads;
* `LockingService.Agrees` — what must hold after a command;
* `LockingService.Changes` — the payload is a command that has to change the state.

Main results:

* `LockingService.agrees_iff` — one command;
* `LockingService.agreesThroughout_iff` — every run;
* `LockingService.lock_with_failed_write` — a lock command that succeeds although its write failed.
-/

import ParkingFeeService.LockingSafety

set_option relaxedAutoImplicit false
set_option autoImplicit false

namespace LockingService

/-! ### Runs -/

/-- The value of the lock signal after a call. -/
def Call.accept (isLocked : Bool) : Call → Bool
  | .setBool signal value true => if signal = signalIsLocked then value else isLocked
  | _ => isLocked

/-- The value of the lock signal after a list of calls: that of the last write accepted. -/
def accepted (isLocked : Bool) (calls : List Call) : Bool := calls.foldl Call.accept isLocked

@[simp] theorem accepted_append (isLocked : Bool) (calls calls' : List Call) :
    accepted isLocked (calls ++ calls') = accepted (accepted isLocked calls) calls' :=
  List.foldl_append

/-- A payload with the broker as it is while the payload is handled. -/
structure Input where
  payload : String
  broker : Broker

/-- The lock state of the service, and the last value accepted for the lock signal. -/
structure LockingState where
  lockState : Bool
  isLocked : Bool
  deriving DecidableEq

/-- The service when it starts handling commands. -/
def LockingState.init : LockingState := ⟨false, false⟩

variable (serde : SerdeJson)

/-- The state after a payload. -/
def handle (s : LockingState) (i : Input) : LockingState :=
  let h := handleCommandPayload i.broker serde i.payload s.lockState
  ⟨h.lockState, accepted s.isLocked h.calls⟩

/-- After the payload the state is the last accepted value, and if a success response was produced
for a command, that value is the one the command asked for. -/
def Agrees (s : LockingState) (i : Input) : Prop :=
  (handle serde s i).lockState = (handle serde s i).isLocked ∧
    ∀ cmd response, parseCommand serde i.payload = .ok cmd →
      (handleCommandPayload i.broker serde i.payload s.lockState).response = some response →
      response.status = "success" → (handle serde s i).isLocked = cmd.action.target

/-- The state and the signal agree after every payload of the run. -/
def AgreesThroughout : LockingState → List Input → Prop
  | _, [] => True
  | s, i :: is => Agrees serde s i ∧ AgreesThroughout (handle serde s i) is

/-! ### The commands that change the state -/

/-- The payload is a valid command that is let through and asks for the other state. -/
def Changes (lockState : Bool) (i : Input) (cmd : LockCommand) : Prop :=
  parseCommand serde i.payload = .ok cmd ∧ validateCommand cmd = .ok () ∧
    (cmd.action = .lock → (checkSafety i.broker).1 = .safe) ∧ lockState ≠ cmd.action.target

/-- The broker takes the write of a command that changes the state. -/
def WriteSucceeds (lockState : Bool) (i : Input) : Prop :=
  ∀ cmd, Changes serde lockState i cmd → i.broker.setBool signalIsLocked cmd.action.target = true

/-- The broker takes the write of every command of the run that changes the state. -/
def WritesSucceed : LockingState → List Input → Prop
  | _, [] => True
  | s, i :: is => WriteSucceeds serde s.lockState i ∧ WritesSucceed (handle serde s i) is

/-! ### One command -/

theorem accepted_checkSafety (b : Broker) (isLocked : Bool) :
    accepted isLocked (checkSafety b).2 = isLocked := by
  rw [checkSafety]
  split
  · rfl
  · split <;> rfl

theorem accepted_moveLock (b : Broker) (target lockState isLocked : Bool) :
    accepted isLocked (moveLock b target lockState).2 =
      if lockState ≠ target ∧ b.setBool signalIsLocked target = true then target
      else isLocked := by
  rw [moveLock]
  by_cases h : lockState = target
  · simp [h, accepted]
  · cases hset : b.setBool signalIsLocked target <;> simp [h, accepted, Call.accept]

/-- What processing a command that is let through leaves. -/
theorem processCommand_of_allowed {b : Broker} {cmd : LockCommand} (lockState isLocked : Bool)
    (h : cmd.action = .lock → (checkSafety b).1 = .safe) :
    (processCommand b cmd lockState).lockState = cmd.action.target ∧
      (processCommand b cmd lockState).response.status = "success" ∧
      accepted isLocked (processCommand b cmd lockState).calls =
        if lockState ≠ cmd.action.target ∧ b.setBool signalIsLocked cmd.action.target = true then
          cmd.action.target
        else isLocked := by
  cases haction : cmd.action with
  | lock =>
      have ho := processLock_of_safe b cmd lockState (h haction)
      refine ⟨?_, ?_, ?_⟩
      · simp [processCommand, haction, ho, LockAction.target]
      · simp [processCommand, haction, ho]
      · simp only [processCommand, haction, ho, accepted_append, accepted_checkSafety,
          accepted_moveLock, LockAction.target]
        rfl
  | unlock =>
      refine ⟨?_, ?_, ?_⟩
      · simp [processCommand, haction, processUnlock, LockAction.target]
      · simp [processCommand, haction, processUnlock]
      · simp only [processCommand, haction, processUnlock, accepted_append, accepted_moveLock,
          LockAction.target]
        rfl

/-- What processing a command that is refused leaves. -/
theorem processCommand_of_refused {b : Broker} {cmd : LockCommand} (lockState isLocked : Bool)
    (haction : cmd.action = .lock) (h : (checkSafety b).1 ≠ .safe) :
    (processCommand b cmd lockState).lockState = lockState ∧
      (processCommand b cmd lockState).response.status = "failed" ∧
      accepted isLocked (processCommand b cmd lockState).calls = isLocked := by
  obtain ⟨reason, ho⟩ := processLock_of_not_safe b cmd lockState h
  refine ⟨?_, ?_, ?_⟩
  · simp [processCommand, haction, ho]
  · simp [processCommand, haction, ho]
  · simp only [processCommand, haction, ho, accepted_append, accepted_checkSafety]
    rfl

/-- A payload that is answered without being processed, or not at all, leaves state and signal. -/
theorem handle_of_unprocessed {s : LockingState} {i : Input}
    (h : ∀ cmd, parseCommand serde i.payload = .ok cmd → validateCommand cmd ≠ .ok ()) :
    handle serde s i = s ∧ ∀ response,
      (handleCommandPayload i.broker serde i.payload s.lockState).response = some response →
        response.status = "failed" := by
  rw [handle, handleCommandPayload]
  cases hparse : parseCommand serde i.payload with
  | error e =>
      cases e with
      | invalidJson msg => simp [accepted]
      | invalidCommand msg | unsupportedDoor msg =>
          cases extractCommandId serde i.payload with
          | none => simp [accepted]
          | some commandId => simp [answerOnly, accepted, Call.accept]
  | ok cmd =>
      cases hvalid : validateCommand cmd with
      | error e => simp [answerOnly, hvalid, accepted, Call.accept]
      | ok u => exact absurd hvalid (h cmd hparse)

/-- A payload that is processed. -/
theorem handle_of_processed {s : LockingState} {i : Input} {cmd : LockCommand}
    (hparse : parseCommand serde i.payload = .ok cmd) (hvalid : validateCommand cmd = .ok ()) :
    handle serde s i = ⟨(processCommand i.broker cmd s.lockState).lockState,
        accepted s.isLocked (processCommand i.broker cmd s.lockState).calls⟩ ∧
      (handleCommandPayload i.broker serde i.payload s.lockState).response =
        some (processCommand i.broker cmd s.lockState).response := by
  rw [handle, handleCommandPayload]
  simp [hparse, hvalid]

/-- Agreement after a payload that is processed. -/
theorem agrees_iff_of_processed {s : LockingState} {i : Input} {cmd : LockCommand}
    (hparse : parseCommand serde i.payload = .ok cmd) (hvalid : validateCommand cmd = .ok ()) :
    Agrees serde s i ↔
      (processCommand i.broker cmd s.lockState).lockState =
          accepted s.isLocked (processCommand i.broker cmd s.lockState).calls ∧
        ((processCommand i.broker cmd s.lockState).response.status = "success" →
          accepted s.isLocked (processCommand i.broker cmd s.lockState).calls =
            cmd.action.target) := by
  obtain ⟨hhandle, hresp⟩ := handle_of_processed serde (s := s) hparse hvalid
  rw [Agrees, hhandle]
  refine and_congr_right fun _ => ?_
  constructor
  · intro h
    exact h cmd _ hparse hresp
  · intro h cmd' response hparse' hresp' hstatus
    cases hparse.symm.trans hparse'
    cases hresp.symm.trans hresp'
    exact h hstatus

/-- From agreement, a payload leads to agreement exactly if its write, if it needs one, succeeds. -/
theorem agrees_iff {s : LockingState} (hs : s.lockState = s.isLocked) (i : Input) :
    Agrees serde s i ↔ WriteSucceeds serde s.lockState i := by
  by_cases hproc : ∃ cmd, parseCommand serde i.payload = .ok cmd ∧ validateCommand cmd = .ok ()
  · obtain ⟨cmd, hparse, hvalid⟩ := hproc
    rw [agrees_iff_of_processed serde hparse hvalid]
    by_cases hallowed : cmd.action = .lock → (checkSafety i.broker).1 = .safe
    · obtain ⟨hstate, hstatus, hacc⟩ :=
        processCommand_of_allowed s.lockState s.isLocked hallowed
      rw [hstate, hacc]
      by_cases hsame : s.lockState = cmd.action.target
      · -- nothing to write: the signal already has the value
        have hsig : s.isLocked = cmd.action.target := hs.symm.trans hsame
        refine iff_of_true (by simp [hsame, hsig]) ?_
        rintro cmd' ⟨hparse', -, -, hother⟩
        cases hparse.symm.trans hparse'
        exact absurd hsame hother
      · have hsig : s.isLocked ≠ cmd.action.target := hs ▸ hsame
        cases hset : i.broker.setBool signalIsLocked cmd.action.target with
        | true =>
            refine iff_of_true (by simp [hsame]) ?_
            rintro cmd' ⟨hparse', -, -, -⟩
            cases hparse.symm.trans hparse'
            exact hset
        | false =>
            -- the state moves and the signal does not
            refine iff_of_false (by simpa [hsame] using fun h => absurd h.symm hsig) ?_
            intro hwrite
            have htrue := hwrite cmd ⟨hparse, hvalid, hallowed, hsame⟩
            rw [hset] at htrue
            cases htrue
    · -- a refused command changes neither
      have hlock : cmd.action = .lock := (Classical.not_imp.1 hallowed).1
      obtain ⟨hstate, hstatus, hacc⟩ := processCommand_of_refused s.lockState s.isLocked hlock
        (Classical.not_imp.1 hallowed).2
      rw [hstate, hstatus, hacc]
      refine iff_of_true ⟨hs, fun h => absurd h (by decide)⟩ ?_
      rintro cmd' ⟨hparse', -, hsafe, -⟩
      cases hparse.symm.trans hparse'
      exact absurd hsafe hallowed
  · -- the payload is no valid command, so there is nothing to write
    have hunproc : ∀ cmd, parseCommand serde i.payload = .ok cmd → validateCommand cmd ≠ .ok () :=
      fun cmd hparse hvalid => hproc ⟨cmd, hparse, hvalid⟩
    obtain ⟨hhandle, hresp⟩ := handle_of_unprocessed serde (s := s) hunproc
    constructor
    · rintro - cmd ⟨hparse, hvalid, -⟩
      exact absurd hvalid (hunproc cmd hparse)
    · intro _
      refine ⟨by rw [hhandle, hs], ?_⟩
      intro cmd response _ hr hsucc
      rw [hresp response hr] at hsucc
      exact absurd hsucc (by decide)

/-! ### Every run -/

/-- From agreement, a run keeps it exactly if its writes succeed. -/
theorem agreesThroughout_of_agreement {is : List Input} :
    ∀ {s : LockingState}, s.lockState = s.isLocked →
      (AgreesThroughout serde s is ↔ WritesSucceed serde s is) := by
  induction is with
  | nil => intro s _; rfl
  | cons i is ih =>
      intro s hs
      rw [AgreesThroughout, WritesSucceed, agrees_iff serde hs i]
      refine and_congr_right fun hwrite => ?_
      exact ih ((agrees_iff serde hs i).2 hwrite).1

/-- **State and signal agree after every command of a run** exactly if the broker takes the write of
every command that changes the state. -/
theorem agreesThroughout_iff (is : List Input) :
    AgreesThroughout serde .init is ↔ WritesSucceed serde .init is :=
  agreesThroughout_of_agreement serde rfl

/-- A lock command as it is published. -/
def lockPayload : String :=
  "\x7b\"command_id\":\"cmd-1\",\"action\":\"lock\",\"doors\":[\"driver\"]\x7d"

/-- `serde_json` on that text; other texts do not occur. -/
def serdeLock : SerdeJson where
  command := fun text =>
    if text = lockPayload then .ok lockCommand else .error ⟨.eof, "EOF while parsing a value"⟩
  value := fun text =>
    if text = lockPayload then
      .ok (.obj [("command_id", .str "cmd-1"), ("action", .str "lock"),
        ("doors", .arr [.str "driver"])])
    else .error ⟨.eof, "EOF while parsing a value"⟩

/-- A broker in which the vehicle stands with the door closed, and which does not take writes of
boolean signals. -/
def refusesWrites : Broker where
  getValue := fun _ => .ok ⟨none⟩
  setBool := fun _ _ => false
  setString := fun _ => true
  unixSecs := 1700000000

/-- **A lock command succeeds although its write failed**, and the signal stays unlocked. -/
theorem lock_with_failed_write :
    ¬ ∀ (serde : SerdeJson) (is : List Input), AgreesThroughout serde .init is := by
  intro hall
  obtain ⟨⟨hagree, -⟩, -⟩ := hall serdeLock [⟨lockPayload, refusesWrites⟩]
  revert hagree
  decide +kernel

end LockingService
