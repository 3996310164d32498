/-
**One response to every payload that can be answered.**

A payload can be answered if it is an object with a non-empty string under `command_id`, whatever
else is in it.  It should be answered once, with that id, and a reason exactly if the command
failed; any other payload is answered only if it is a command in every respect but that its id is
empty.

This is so unless the typed reading comes to an action at which the parser gives up: `serde_json`
calls that a syntax error, and the payload is dropped as if it were no JSON.

Main definitions:

* `LockingService.responses` — the responses that a list of calls publishes;
* `LockingService.Answerable`, `LockingService.WithoutId` — the payloads that are answered;
* `LockingService.CommandResponse.Answers` — a response to the command with an id;
* `LockingService.RespondsExactly` — exactly the payloads that can be answered are.

Main results:

* `LockingService.responses_processCommand` — a command that is processed is answered once;
* `LockingService.responds_exactly_iff` — every payload;
* `LockingService.action_of_another_type` — a payload with an id that is not answered.
-/

import ParkingFeeService.LockingPayload
import ParkingFeeService.LockingSafety

set_option relaxedAutoImplicit false
set_option autoImplicit false

namespace LockingService

open CloudGatewayClient (JsonError)

/-! ### Responses -/

/-- The response that a call publishes, if it is one. -/
def Call.response : Call → Option CommandResponse
  | .setString signal response _ => if signal = signalResponse then some response else none
  | _ => none

/-- The responses that a list of calls publishes, whether or not the broker takes them. -/
def responses (calls : List Call) : List CommandResponse := calls.filterMap Call.response

/-- The response is one to the command with the id: a success, or a failure for a reason. -/
def CommandResponse.Answers (r : CommandResponse) (commandId : String) : Prop :=
  r.commandId = commandId ∧
    (r.status = "success" ∧ r.reason = none ∨
      r.status = "failed" ∧ ∃ reason, r.reason = some reason)

/-- The payload is an object with a non-empty id. -/
def Answerable (serde : SerdeJson) (payload commandId : String) : Prop :=
  commandId ≠ "" ∧ ∃ fields, serde.value payload = .ok (.obj fields) ∧
    Json.get fields "command_id" = some (.str commandId)

/-- The payload is a command, but its id is empty. -/
def WithoutId (serde : SerdeJson) (payload : String) : Prop :=
  ∃ fields cmd, serde.value payload = .ok (.obj fields) ∧
    deserializeLockCommand fields = .ok cmd ∧ cmd.commandId = ""

@[simp] theorem responses_append (calls calls' : List Call) :
    responses (calls ++ calls') = responses calls ++ responses calls' := List.filterMap_append

@[simp] theorem responses_answerOnly (b : Broker) (lockState : Bool) (r : CommandResponse) :
    responses (answerOnly b lockState r).calls = [r] := rfl

theorem successResponse_answers (unixSecs : ℤ) (commandId : String) :
    (successResponse unixSecs commandId).Answers commandId := ⟨rfl, .inl ⟨rfl, rfl⟩⟩

theorem failureResponse_answers (unixSecs : ℤ) (commandId reason : String) :
    (failureResponse unixSecs commandId reason).Answers commandId := ⟨rfl, .inr ⟨rfl, _, rfl⟩⟩

/-! ### A command that is processed -/

theorem responses_checkSafety (b : Broker) : responses (checkSafety b).2 = [] := by
  refine List.filterMap_eq_nil_iff.2 fun c hc => ?_
  obtain ⟨signal, rfl⟩ := checkSafety_calls b c hc
  rfl

theorem responses_moveLock (b : Broker) (target lockState : Bool) :
    responses (moveLock b target lockState).2 = [] := by
  rw [moveLock]
  split <;> rfl

/-- A lock command publishes nothing before its response, and produces a response to it. -/
theorem processLock_answers (b : Broker) (cmd : LockCommand) (lockState : Bool) :
    responses (processLock b cmd lockState).calls = [] ∧
      (processLock b cmd lockState).response.Answers cmd.commandId := by
  by_cases hsafe : (checkSafety b).1 = .safe
  · rw [processLock_of_safe b cmd lockState hsafe, responses_append, responses_checkSafety,
      responses_moveLock]
    exact ⟨rfl, successResponse_answers _ _⟩
  · obtain ⟨reason, ho⟩ := processLock_of_not_safe b cmd lockState hsafe
    rw [ho]
    exact ⟨responses_checkSafety b, failureResponse_answers _ _ _⟩

/-- A command that is processed is answered once. -/
theorem responses_processCommand (b : Broker) (cmd : LockCommand) (lockState : Bool) :
    ∃ r, responses (processCommand b cmd lockState).calls = [r] ∧ r.Answers cmd.commandId := by
  refine ⟨(processCommand b cmd lockState).response, ?_⟩
  cases haction : cmd.action with
  | lock =>
      obtain ⟨hnone, hanswers⟩ := processLock_answers b cmd lockState
      simp only [processCommand, haction, responses_append, hnone]
      exact ⟨rfl, hanswers⟩
  | unlock =>
      simp only [processCommand, haction, processUnlock, responses_append, responses_moveLock]
      exact ⟨rfl, successResponse_answers _ _⟩

/-- A command that was read is answered once. -/
theorem responses_handleCommand (b : Broker) (lockState : Bool) (cmd : LockCommand) :
    ∃ r, responses (handleCommand b lockState cmd).calls = [r] ∧ r.Answers cmd.commandId := by
  rw [handleCommand]
  cases validateCommand cmd with
  | error e => exact ⟨_, responses_answerOnly _ _ _, failureResponse_answers _ _ _⟩
  | ok => exact responses_processCommand b cmd lockState

/-- The empty id is the first thing that validation reports. -/
theorem handleCommand_of_empty {cmd : LockCommand} (b : Broker) (lockState : Bool)
    (h : cmd.commandId = "") :
    handleCommand b lockState cmd =
      answerOnly b lockState (failureResponse b.unixSecs "" "invalid_command") := by
  simp only [handleCommand, validateCommand, h]
  rfl

/-! ### Every payload -/

/-- The id of a command that is read is the one that the generic reading finds. -/
theorem get_commandId_of_ok {fields : List (String × Json)} {cmd : LockCommand}
    (h : deserializeLockCommand fields = .ok cmd) :
    Json.get fields "command_id" = some (.str cmd.commandId) := by
  obtain ⟨⟨v, hocc, hv⟩, -⟩ := required_of_ok h
  rw [Json.get_eq_getLast?, hocc, List.getLast?_singleton, Json.asStr_eq_some_iff.1 hv]

/-- The object has a non-empty id. -/
def HasId (fields : List (String × Json)) : Prop :=
  ∃ commandId, commandId ≠ "" ∧ Json.get fields "command_id" = some (.str commandId)

theorem extractedId_eq_none_iff {fields : List (String × Json)} :
    extractedId fields = none ↔ ¬ HasId fields := by
  rw [← Option.not_isSome_iff_eq_none, Option.isSome_iff_exists]
  simp only [extractedId_eq_some_iff, HasId, and_comm]

/-- Exactly the payloads that can be answered are answered, each of them once; besides them only a
command with an empty id, as an invalid one. -/
structure RespondsExactly (serde : SerdeJson) (b : Broker) (payload : String) (lockState : Bool) :
    Prop where
  answered : ∀ commandId, Answerable serde payload commandId →
    ∃ r, responses (handleCommandPayload b serde payload lockState).calls = [r] ∧
      r.Answers commandId
  withoutId : (∀ commandId, ¬ Answerable serde payload commandId) → WithoutId serde payload →
    ∃ r, responses (handleCommandPayload b serde payload lockState).calls = [r] ∧
      r.commandId = "" ∧ r.status = "failed" ∧ r.reason = some "invalid_command"
  silent : (∀ commandId, ¬ Answerable serde payload commandId) → ¬ WithoutId serde payload →
    responses (handleCommandPayload b serde payload lockState).calls = []

section Object

variable {serde : SerdeJson} {payload : String} {fields : List (String × Json)}
  (hvalue : serde.value payload = .ok (.obj fields))

include hvalue

theorem answerable_iff {commandId : String} : Answerable serde payload commandId ↔
    commandId ≠ "" ∧ Json.get fields "command_id" = some (.str commandId) := by
  simp [Answerable, hvalue]

theorem forall_not_answerable_iff :
    (∀ commandId, ¬ Answerable serde payload commandId) ↔ ¬ HasId fields := by
  simp only [answerable_iff hvalue, HasId, not_exists]

theorem withoutId_iff : WithoutId serde payload ↔
    ∃ cmd, deserializeLockCommand fields = .ok cmd ∧ cmd.commandId = "" := by
  simp [WithoutId, hvalue]

variable (hserde : serde.Lawful) (b : Broker) (lockState : Bool)

include hserde

/-- A command is answered as it should be. -/
theorem respondsExactly_of_command {cmd : LockCommand}
    (hcmd : deserializeLockCommand fields = .ok cmd) :
    RespondsExactly serde b payload lockState := by
  have hget := get_commandId_of_ok hcmd
  have hhandle := handle_of_command hserde b lockState hvalue hcmd
  -- a command that cannot be answered is one without an id
  have hempty : (∀ commandId, ¬ Answerable serde payload commandId) → cmd.commandId = "" := by
    intro hno
    by_contra hne
    exact hno cmd.commandId ((answerable_iff hvalue).2 ⟨hne, hget⟩)
  refine ⟨fun commandId h => ?_, fun hno _ => ?_, fun hno hwith => ?_⟩
  · obtain ⟨-, hget'⟩ := (answerable_iff hvalue).1 h
    cases hget.symm.trans hget'
    rw [hhandle]
    exact responses_handleCommand b lockState cmd
  · rw [hhandle, handleCommand_of_empty b lockState (hempty hno)]
    exact ⟨_, responses_answerOnly _ _ _, rfl, rfl, rfl⟩
  · exact absurd ((withoutId_iff hvalue).2 ⟨cmd, hcmd, hempty hno⟩) hwith

/-- An object that is no command is answered as it should be, unless the parser gives up. -/
theorem respondsExactly_of_no_command {e : JsonError}
    (hcmd : deserializeLockCommand fields = .error e) (hstops : ¬ StopsAtAction fields) :
    RespondsExactly serde b payload lockState := by
  have hwithout : ¬ WithoutId serde payload := by
    rw [withoutId_iff hvalue, hcmd]
    rintro ⟨cmd, ⟨⟩, -⟩
  have hhandle := handle_of_no_command hserde b lockState hvalue hcmd hstops
  refine ⟨fun commandId h => ?_, fun _ hwith => absurd hwith hwithout, fun hno _ => ?_⟩
  · obtain ⟨hne, hget⟩ := (answerable_iff hvalue).1 h
    rw [hhandle, rejectObject, extractedId_eq_some_iff.2 ⟨hget, hne⟩]
    exact ⟨_, responses_answerOnly _ _ _, failureResponse_answers _ _ _⟩
  · rw [hhandle, rejectObject,
      extractedId_eq_none_iff.2 ((forall_not_answerable_iff hvalue).1 hno)]
    rfl

/-- An object at whose action the parser gives up is not answered, which is as it should be exactly
if it has no id. -/
theorem respondsExactly_iff_of_stopsAtAction (hstops : StopsAtAction fields) :
    RespondsExactly serde b payload lockState ↔ ¬ HasId fields := by
  have hhandle := handle_of_stopsAtAction hserde b lockState hvalue hstops
  constructor
  · rintro h ⟨commandId, hid⟩
    obtain ⟨r, hone, -⟩ := h.answered commandId ((answerable_iff hvalue).2 hid)
    rw [hhandle] at hone
    cases hone
  · intro hno
    refine ⟨fun commandId h => ?_, fun _ hwith => ?_, fun _ _ => ?_⟩
    · exact absurd ⟨commandId, (answerable_iff hvalue).1 h⟩ hno
    · obtain ⟨cmd, hcmd, -⟩ := (withoutId_iff hvalue).1 hwith
      exact absurd hstops
        (not_stopsAtAction_of_readable (deserializeLockCommand_ok_iff.1 ⟨cmd, hcmd⟩).1)
    · rw [hhandle]
      rfl

end Object

/-- **Exactly the payloads that can be answered are answered**, except the objects with an id at
whose action the parser gives up. -/
theorem responds_exactly_iff {serde : SerdeJson} (hserde : serde.Lawful) (b : Broker)
    {payload : String} (lockState : Bool)
    (harr : ∀ items, serde.value payload ≠ .ok (.arr items)) :
    RespondsExactly serde b payload lockState ↔
      ∀ fields, serde.value payload = .ok (.obj fields) → HasId fields →
        ¬ StopsAtAction fields := by
  by_cases hobj : ∃ fields, serde.value payload = .ok (.obj fields)
  · obtain ⟨fields, hvalue⟩ := hobj
    have hcond : (∀ fields, serde.value payload = .ok (.obj fields) → HasId fields →
        ¬ StopsAtAction fields) ↔ (HasId fields → ¬ StopsAtAction fields) := by
      simp [hvalue]
    rw [hcond]
    by_cases hstops : StopsAtAction fields
    · rw [respondsExactly_iff_of_stopsAtAction hvalue hserde b lockState hstops]
      exact ⟨fun hno hid => absurd hid hno, fun h hid => h hid hstops⟩
    · refine iff_of_true ?_ fun _ => hstops
      cases hcmd : deserializeLockCommand fields with
      | ok cmd => exact respondsExactly_of_command hvalue hserde b lockState hcmd
      | error e => exact respondsExactly_of_no_command hvalue hserde b lockState hcmd hstops
  · have hobj' : ∀ fields, serde.value payload ≠ .ok (.obj fields) :=
      fun fields h => hobj ⟨fields, h⟩
    refine iff_of_true ⟨?_, ?_, fun _ _ => ?_⟩ fun fields h => absurd h (hobj' fields)
    · rintro commandId ⟨-, fields, hvalue, -⟩
      exact absurd hvalue (hobj' fields)
    · rintro - ⟨fields, cmd, hvalue, -⟩
      exact absurd hvalue (hobj' fields)
    · rw [handle_of_no_object hserde b lockState hobj' harr]
      rfl

/-- The text of an unlock command. -/
def unlockPayload : String :=
  "\x7b\"command_id\":\"cmd-1\",\"action\":\"unlock\",\"doors\":[\"driver\"]\x7d"

/-- The fields of an unlock command. -/
def unlockFields : List (String × Json) :=
  [("command_id", .str "cmd-1"), ("action", .str "unlock"), ("doors", Json.ofStrings ["driver"])]

/-- The readings of the text of an unlock command. -/
def unlockSerde : SerdeJson := .ofTable [(unlockPayload, .obj unlockFields)]

theorem responds_exactly_iff_unlock :
    RespondsExactly unlockSerde driving unlockPayload true ↔
      ∀ fields, unlockSerde.value unlockPayload = .ok (.obj fields) → HasId fields →
        ¬ StopsAtAction fields := by
  have hvalue : unlockSerde.value unlockPayload = .ok (.obj unlockFields) :=
    SerdeJson.ofTable_value List.lookup_cons_self
  have hlawful : unlockSerde.Lawful := SerdeJson.ofTable_lawful _
  refine responds_exactly_iff hlawful driving true fun items => ?_
  rw [hvalue]
  simp

/-- The text of a command with a number for its action. -/
def numberedPayload : String :=
  "\x7b\"command_id\":\"cmd-1\",\"action\":7,\"doors\":[\"driver\"]\x7d"

/-- The fields of a command with a number for its action. -/
def numberedFields : List (String × Json) :=
  [("command_id", .str "cmd-1"), ("action", .num (.int 7)), ("doors", Json.ofStrings ["driver"])]

/-- **A payload with an id is not answered**: its action is a number, which is taken for text that
is no JSON. -/
theorem action_of_another_type :
    ¬ ∀ (serde : SerdeJson) (payload : String) (b : Broker) (lockState : Bool), serde.Lawful →
      (∀ items, serde.value payload ≠ .ok (.arr items)) →
        RespondsExactly serde b payload lockState := by
  intro hall
  have hvalue : (SerdeJson.ofTable [(numberedPayload, .obj numberedFields)]).value
      numberedPayload = .ok (.obj numberedFields) :=
    SerdeJson.ofTable_value List.lookup_cons_self
  have hlawful := SerdeJson.ofTable_lawful [(numberedPayload, .obj numberedFields)]
  have hstops : StopsAtAction numberedFields :=
    ⟨[("command_id", .str "cmd-1")], _, _, rfl, rfl, .inr ⟨_, rfl, rfl⟩, rfl, .inl rfl, .inl rfl,
      .inl rfl, .inl rfl⟩
  have hexact := hall _ numberedPayload driving true hlawful fun items => by
    rw [hvalue]
    simp
  exact (respondsExactly_iff_of_stopsAtAction hvalue hlawful driving true hstops).1 hexact
    ⟨"cmd-1", by decide, rfl⟩

end LockingService
