/-
**Handling a command in the locking service.**

A payload is parsed, validated and processed; a lock command passes a safety gate first.  The two
JSON readings of a payload are `serde_json`'s and are parameters.  So is the broker, the function
from calls to outcomes that it is while one command is handled; a function that talks to it returns
the calls it made along with its result.

Main definitions:

* `LockingService.LockCommand`, `LockingService.parseCommand`, `LockingService.validateCommand`;
* `LockingService.Broker`, `LockingService.Call` — the outcomes of the calls and the calls made;
* `LockingService.checkSafety`, `LockingService.processLock`, `LockingService.processUnlock`,
  `LockingService.processCommand`;
* `LockingService.handleCommandPayload`.

Main results:

* `LockingService.processLock_of_not_safe`, `LockingService.processLock_of_safe` — the two outcomes
  of a lock command.
-/

import ParkingFeeService.Json
import ParkingFeeService.LockingBroker

set_option relaxedAutoImplicit false
set_option autoImplicit false

namespace LockingService

/-! ### Commands and responses -/

/-- Lock or unlock. -/
inductive LockAction
  | lock
  | unlock
  deriving DecidableEq, Repr

/-- The lock state that an action asks for. -/
def LockAction.target : LockAction → Bool
  | .lock => true
  | .unlock => false

/-- A lock or unlock command. -/
structure LockCommand where
  commandId : String
  action : LockAction
  doors : List String
  source : Option String
  vin : Option String
  timestamp : Option Int64
  deriving DecidableEq

/-- Errors in the parsing or the validation of a command. -/
inductive CommandError
  | invalidJson (msg : String)
  | invalidCommand (msg : String)
  | unsupportedDoor (msg : String)
  deriving DecidableEq, Repr

/-- The reason published for an error. -/
def CommandError.reason : CommandError → String
  | .invalidJson _ => "invalid_json"
  | .invalidCommand _ => "invalid_command"
  | .unsupportedDoor _ => "unsupported_door"

/-- The kinds of error that `serde_json` distinguishes. -/
inductive SerdeCategory
  | io
  | syntaxError
  | data
  | eof
  deriving DecidableEq, Repr

/-- An error of `serde_json`. -/
structure SerdeError where
  category : SerdeCategory
  msg : String
  deriving DecidableEq, Repr

/-- The two readings that `serde_json` gives of a text. -/
structure SerdeJson where
  command : String → Except SerdeError LockCommand
  value : String → Except SerdeError Json

/-- Parsing a payload. -/
def parseCommand (serde : SerdeJson) (json : String) : Except CommandError LockCommand :=
  match serde.command json with
  | .ok cmd => .ok cmd
  | .error e =>
      if e.category = .syntaxError ∨ e.category = .eof then .error (.invalidJson e.msg)
      else .error (.invalidCommand e.msg)

/-- Validating a parsed command: the first unsupported door is reported, then the missing one. -/
def validateCommand (cmd : LockCommand) : Except CommandError Unit :=
  if cmd.commandId = "" then .error (.invalidCommand "command_id is empty")
  else
    match cmd.doors.find? (· ≠ "driver") with
    | some door => .error (.unsupportedDoor door)
    | none =>
        if "driver" ∈ cmd.doors then .ok ()
        else .error (.invalidCommand "doors must contain \"driver\"")

/-- A response to a command. -/
structure CommandResponse where
  commandId : String
  status : String
  reason : Option String
  timestamp : ℤ
  deriving DecidableEq, Repr

/-- A success response. -/
def successResponse (unixSecs : ℤ) (commandId : String) : CommandResponse :=
  ⟨commandId, "success", none, unixSecs⟩

/-- A failure response. -/
def failureResponse (unixSecs : ℤ) (commandId reason : String) : CommandResponse :=
  ⟨commandId, "failed", some reason, unixSecs⟩

/-- The command id of a text that is JSON but not a command. -/
def extractCommandId (serde : SerdeJson) (json : String) : Option String :=
  match serde.value json with
  | .ok (.obj fields) => ((Json.get fields "command_id").bind Json.asStr).filter (· ≠ "")
  | _ => none

/-! ### The broker -/

/-- A call to the broker, with the success of a write. -/
inductive Call
  | getValue (signal : String)
  | setBool (signal : String) (value : Bool) (ok : Bool)
  | setString (signal : String) (value : CommandResponse) (ok : Bool)
  deriving DecidableEq, Repr

/-- The broker and the clock while one command is handled: what a read answers, and whether a write
succeeds. -/
structure Broker where
  getValue : String → Except String GetValueResponse
  setBool : String → Bool → Bool
  setString : String → Bool
  unixSecs : ℤ

/-- What handling a command does. -/
structure Outcome where
  response : CommandResponse
  lockState : Bool
  calls : List Call

variable (b : Broker)

/-! ### The safety gate -/

/-- The result of the safety check of a lock command. -/
inductive SafetyResult
  | safe
  | vehicleMoving
  | doorOpen
  deriving DecidableEq, Repr

/-- The speed that the gate uses: zero if it was never set or cannot be read. -/
def gateSpeed : F32 :=
  ((getFloat signalSpeed (b.getValue signalSpeed)).toOption.getD none).getD
    (.finite false 0 (-149) (by decide))

/-- The door state that the gate uses: closed if it was never set or cannot be read. -/
def gateDoorOpen : Bool :=
  ((getBool signalDoorOpen (b.getValue signalDoorOpen)).toOption.getD none).getD false

/-- The safety check; the door is read only if the vehicle stands. -/
def checkSafety : SafetyResult × List Call :=
  if (gateSpeed b).Ge 1 then (.vehicleMoving, [.getValue signalSpeed])
  else if gateDoorOpen b then (.doorOpen, [.getValue signalSpeed, .getValue signalDoorOpen])
  else (.safe, [.getValue signalSpeed, .getValue signalDoorOpen])

/-! ### Processing -/

/-- The rest of a command that may change the lock state: the signal is written if the state is
another one, and the state is set whether or not the write succeeds. -/
def moveLock (target lockState : Bool) : Bool × List Call :=
  if lockState = target then (lockState, [])
  else (target, [.setBool signalIsLocked target (b.setBool signalIsLocked target)])

/-- Processing a lock command. -/
def processLock (cmd : LockCommand) (lockState : Bool) : Outcome :=
  match checkSafety b with
  | (.vehicleMoving, calls) =>
      ⟨failureResponse b.unixSecs cmd.commandId "vehicle_moving", lockState, calls⟩
  | (.doorOpen, calls) =>
      ⟨failureResponse b.unixSecs cmd.commandId "door_open", lockState, calls⟩
  -- the response does not depend on whether the signal was written
  | (.safe, calls) =>
      ⟨successResponse b.unixSecs cmd.commandId, (moveLock b true lockState).1,
        calls ++ (moveLock b true lockState).2⟩

/-- Processing an unlock command. -/
def processUnlock (cmd : LockCommand) (lockState : Bool) : Outcome :=
  ⟨successResponse b.unixSecs cmd.commandId, (moveLock b false lockState).1,
    (moveLock b false lockState).2⟩

/-- Processing a validated command and publishing its response. -/
def processCommand (cmd : LockCommand) (lockState : Bool) : Outcome :=
  let o := match cmd.action with
    | .lock => processLock b cmd lockState
    | .unlock => processUnlock b cmd lockState
  { o with calls := o.calls ++ [.setString signalResponse o.response (b.setString signalResponse)] }

/-- What handling a payload does. -/
structure Handled where
  response : Option CommandResponse
  lockState : Bool
  calls : List Call

/-- A payload answered without being processed. -/
def answerOnly (lockState : Bool) (response : CommandResponse) : Handled :=
  ⟨some response, lockState, [.setString signalResponse response (b.setString signalResponse)]⟩

/-- Handling a payload of the subscription stream. -/
def handleCommandPayload (serde : SerdeJson) (payload : String) (lockState : Bool) : Handled :=
  match parseCommand serde payload with
  -- text that is no JSON is dropped, other bad payloads are answered if they carry an id
  | .error (.invalidJson _) => ⟨none, lockState, []⟩
  | .error e =>
      match extractCommandId serde payload with
      | some commandId => answerOnly b lockState (failureResponse b.unixSecs commandId e.reason)
      | none => ⟨none, lockState, []⟩
  | .ok cmd =>
      match validateCommand cmd with
      | .error e => answerOnly b lockState (failureResponse b.unixSecs cmd.commandId e.reason)
      | .ok () =>
          let o := processCommand b cmd lockState
          ⟨some o.response, o.lockState, o.calls⟩

/-! ### The outcomes of a command -/

@[simp] theorem moveLock_fst (target lockState : Bool) :
    (moveLock b target lockState).1 = target := by
  rw [moveLock]
  split
  · assumption
  · rfl

@[simp] theorem successResponse_status (unixSecs : ℤ) (commandId : String) :
    (successResponse unixSecs commandId).status = "success" := rfl

@[simp] theorem failureResponse_status (unixSecs : ℤ) (commandId reason : String) :
    (failureResponse unixSecs commandId reason).status = "failed" := rfl

/-- The safety check makes no write. -/
theorem checkSafety_calls : ∀ c ∈ (checkSafety b).2, ∃ signal, c = .getValue signal := by
  rw [checkSafety]
  split
  · simp
  · split <;> simp

/-- The gate lets a lock command through exactly if the speed it uses is not at least one and the
door it uses is closed. -/
theorem checkSafety_eq_safe_iff :
    (checkSafety b).1 = .safe ↔ ¬ (gateSpeed b).Ge 1 ∧ gateDoorOpen b = false := by
  rw [checkSafety]
  by_cases hspeed : (gateSpeed b).Ge 1
  · simp [hspeed]
  · cases hdoor : gateDoorOpen b <;> simp [hspeed]

/-- A lock command that is let through succeeds. -/
theorem processLock_of_safe (cmd : LockCommand) (lockState : Bool)
    (h : (checkSafety b).1 = .safe) :
    processLock b cmd lockState =
      ⟨successResponse b.unixSecs cmd.commandId, true,
        (checkSafety b).2 ++ (moveLock b true lockState).2⟩ := by
  rw [processLock]
  generalize checkSafety b = check at h ⊢
  obtain ⟨result, calls⟩ := check
  cases h
  simp

/-- A lock command that is not let through fails and changes nothing. -/
theorem processLock_of_not_safe (cmd : LockCommand) (lockState : Bool)
    (h : (checkSafety b).1 ≠ .safe) :
    ∃ reason, processLock b cmd lockState =
      ⟨failureResponse b.unixSecs cmd.commandId reason, lockState, (checkSafety b).2⟩ := by
  rw [processLock]
  generalize checkSafety b = check at h ⊢
  obtain ⟨result, calls⟩ := check
  cases result with
  | safe => exact absurd rfl h
  | vehicleMoving => exact ⟨_, rfl⟩
  | doorOpen => exact ⟨_, rfl⟩

end LockingService
