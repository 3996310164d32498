/-
**The metadata of a command.**

The fields `source`, `vin` and `timestamp` of a command are metadata and are not to affect how it is
processed.  The typed reading gives them types all the same: a payload in which one of them is
repeated or has a value of another type is no command at all, and a command is rejected that would
have been carried out without it.  And it ends where it fails: before an action at which the parser
gives up, such a field turns a payload that is dropped into one that is answered.

Two payloads that differ in their metadata alone are processed alike exactly if the metadata of both
of them can be read or of neither, or if they are rejected anyway; and the parser gives up at the
action of both or of neither, or there is no id to answer to.

Main definitions:

* `LockingService.SameButMetadata` — two payloads that differ in their metadata alone;
* `LockingService.Handled.summary` — what a payload does, apart from the id and the time of its
  response;
* `LockingService.RejectedAnyway` — the command is invalid whatever its metadata.

Main results:

* `LockingService.summary_handleCommand` — a command is handled by its required fields;
* `LockingService.summary_eq_iff_of_readable` — against one that is no command;
* `LockingService.metadata_irrelevant_iff` — when the metadata make no difference;
* `LockingService.timestamp_of_another_type` — a command that is rejected for its timestamp.
-/

import ParkingFeeService.LockingResponses
import ParkingFeeService.LockingWrites

set_option relaxedAutoImplicit false
set_option autoImplicit false

namespace LockingService

open CloudGatewayClient (JsonError)
open Json (Once occurrences)

/-! ### Two payloads -/

/-- The names of the metadata. -/
def metadataFields : List String := ["source", "vin", "timestamp"]

/-- The two objects differ in their metadata alone: all other names occur with the same values. -/
def SameButMetadata (fields fields' : List (String × Json)) : Prop :=
  ∀ name, name ∉ metadataFields → occurrences name fields = occurrences name fields'

/-- What a payload does, apart from the id and the time of its response: the status and the reason,
the writes of the lock signal and the lock state. -/
def Handled.summary (h : Handled) : Option (String × Option String) × List (Toggle Unit) × Bool :=
  (h.response.map fun r => (r.status, r.reason), lockMoves h.calls, h.lockState)

/-- The command is rejected as an invalid one whatever its metadata: it has an id but no doors. -/
def RejectedAnyway (fields : List (String × Json)) : Prop :=
  Json.get fields "command_id" ≠ some (.str "") ∧ Json.get fields "doors" = some (.arr [])

section Congr

variable {fields fields' : List (String × Json)} (h : SameButMetadata fields fields')

include h

theorem SameButMetadata.get_eq {name : String} (hname : name ∉ metadataFields) :
    Json.get fields name = Json.get fields' name := by
  rw [Json.get_eq_getLast?, Json.get_eq_getLast?, h name hname]

theorem SameButMetadata.symm : SameButMetadata fields' fields :=
  fun name hname => (h name hname).symm

theorem SameButMetadata.commandReadable_iff : CommandReadable fields ↔ CommandReadable fields' := by
  rw [CommandReadable, CommandReadable, Once, Once, Once, h _ (by decide), h _ (by decide),
    h _ (by decide), Once, Once, Once]

theorem SameButMetadata.extractedId_eq : extractedId fields = extractedId fields' := by
  rw [extractedId, extractedId, h.get_eq (by decide)]

theorem SameButMetadata.rejectedAnyway_iff : RejectedAnyway fields ↔ RejectedAnyway fields' := by
  rw [RejectedAnyway, RejectedAnyway, h.get_eq (by decide), h.get_eq (by decide)]

/-- Two commands that differ in their metadata alone have the same required fields. -/
theorem SameButMetadata.required_eq {cmd cmd' : LockCommand}
    (hcmd : deserializeLockCommand fields = .ok cmd)
    (hcmd' : deserializeLockCommand fields' = .ok cmd') :
    cmd.commandId = cmd'.commandId ∧ cmd.action = cmd'.action ∧ cmd.doors = cmd'.doors := by
  obtain ⟨⟨v, hv, hid⟩, ⟨w, hw, haction⟩, u, hu, hdoors⟩ := required_of_ok hcmd
  obtain ⟨⟨v', hv', hid'⟩, ⟨w', hw', haction'⟩, u', hu', hdoors'⟩ := required_of_ok hcmd'
  rw [← h _ (by decide)] at hv' hw' hu'
  cases hv.symm.trans hv'
  cases hw.symm.trans hw'
  cases hu.symm.trans hu'
  exact ⟨Option.some.inj (hid.symm.trans hid'), Option.some.inj (haction.symm.trans haction'),
    Option.some.inj (hdoors.symm.trans hdoors')⟩

end Congr

/-! ### Two commands -/

section Commands

variable {b b' : Broker} (hread : b.getValue = b'.getValue)

include hread

theorem checkSafety_congr : checkSafety b = checkSafety b' := by
  have hspeed : gateSpeed b = gateSpeed b' := by rw [gateSpeed, hread, gateSpeed]
  have hdoor : gateDoorOpen b = gateDoorOpen b' := by rw [gateDoorOpen, hread, gateDoorOpen]
  rw [checkSafety, hspeed, hdoor, checkSafety]

/-- A command that is processed is processed by its action. -/
theorem summary_processCommand {cmd cmd' : LockCommand} (haction : cmd.action = cmd'.action)
    (lockState : Bool) :
    Handled.summary ⟨some (processCommand b cmd lockState).response,
        (processCommand b cmd lockState).lockState, (processCommand b cmd lockState).calls⟩ =
      Handled.summary ⟨some (processCommand b' cmd' lockState).response,
        (processCommand b' cmd' lockState).lockState,
        (processCommand b' cmd' lockState).calls⟩ := by
  have hmoves : ∀ (b : Broker) (r : CommandResponse),
      lockMoves [.setString signalResponse r (b.setString signalResponse)] = [] := fun _ _ => rfl
  simp only [processCommand, haction]
  cases cmd'.action with
  | lock =>
      simp only [processLock, checkSafety_congr hread]
      rcases checkSafety b' with ⟨result, calls⟩
      cases result with
      | safe =>
          simp [Handled.summary, lockMoves_moveLock, hmoves, successResponse]
      | vehicleMoving => simp [Handled.summary, hmoves, failureResponse]
      | doorOpen => simp [Handled.summary, hmoves, failureResponse]
  | unlock =>
      simp [processUnlock, Handled.summary, lockMoves_moveLock, hmoves, successResponse]

/-- **A command is handled by its required fields.** -/
theorem summary_handleCommand {cmd cmd' : LockCommand} (hid : cmd.commandId = cmd'.commandId)
    (haction : cmd.action = cmd'.action) (hdoors : cmd.doors = cmd'.doors) (lockState : Bool) :
    (handleCommand b lockState cmd).summary = (handleCommand b' lockState cmd').summary := by
  have hvalid : validateCommand cmd = validateCommand cmd' := by
    rw [validateCommand, hid, hdoors, validateCommand]
  rw [handleCommand, handleCommand, hvalid]
  cases validateCommand cmd' with
  | error e => rfl
  | ok => exact summary_processCommand hread haction lockState

end Commands

/-- Two objects that are no commands are rejected alike if their ids are the same. -/
theorem summary_rejectObject {fields fields' : List (String × Json)} (b b' : Broker)
    (lockState : Bool) (h : extractedId fields = extractedId fields') :
    (rejectObject b lockState fields).summary = (rejectObject b' lockState fields').summary := by
  rw [rejectObject, rejectObject, h]
  cases extractedId fields' <;> rfl

/-! ### A command against an object that is none -/

/-- The three outcomes of validation of a command with an id. -/
theorem validateCommand_cases {cmd : LockCommand} (hid : cmd.commandId ≠ "") :
    (cmd.doors ≠ [] ∧ ∃ door, validateCommand cmd = .error (.unsupportedDoor door)) ∨
      (cmd.doors = [] ∧ ∃ msg, validateCommand cmd = .error (.invalidCommand msg)) ∨
        (cmd.doors ≠ [] ∧ validateCommand cmd = .ok ()) := by
  rw [validateCommand, if_neg hid]
  cases hfind : cmd.doors.find? (· ≠ "driver") with
  | some door =>
      refine .inl ⟨fun hnil => ?_, door, rfl⟩
      rw [hnil] at hfind
      cases hfind
  | none =>
      simp only
      by_cases hnil : cmd.doors = []
      · exact .inr (.inl ⟨hnil, _, if_neg (by simp [hnil])⟩)
      · refine .inr (.inr ⟨hnil, if_pos ?_⟩)
        -- the first door is the driver's, as every door is
        obtain ⟨door, doors, hdoors⟩ := List.exists_cons_of_ne_nil hnil
        have hall := List.find?_eq_none.1 hfind
        rw [hdoors] at hall ⊢
        have hdoor : door = "driver" := by simpa using hall door List.mem_cons_self
        simp [hdoor]

/-- A command that is processed is not answered as an invalid one. -/
theorem reason_processCommand (b : Broker) (cmd : LockCommand) (lockState : Bool) :
    (processCommand b cmd lockState).response.reason ≠ some "invalid_command" := by
  simp only [processCommand]
  cases cmd.action with
  | lock =>
      simp only [processLock]
      rcases checkSafety b with ⟨result, calls⟩
      cases result <;> simp [successResponse, failureResponse]
  | unlock => simp [processUnlock, successResponse]

/-- A command with an id and a rejection of it do the same exactly if the command has no doors. -/
theorem summary_eq_iff_of_id {cmd : LockCommand} {fields : List (String × Json)} (b b' : Broker)
    (lockState : Bool) (hne : cmd.commandId ≠ "") (hid : extractedId fields = some cmd.commandId) :
    (handleCommand b lockState cmd).summary = (rejectObject b' lockState fields).summary ↔
      cmd.doors = [] := by
  rw [rejectObject, hid, handleCommand]
  rcases validateCommand_cases hne with
    ⟨hdoors, door, hvalid⟩ | ⟨hdoors, msg, hvalid⟩ | ⟨hdoors, hvalid⟩
  · rw [hvalid]
    simp [Handled.summary, answerOnly, failureResponse, CommandError.reason, hdoors]
  · rw [hvalid]
    exact iff_of_true rfl hdoors
  · rw [hvalid]
    refine iff_of_false (fun heq => ?_) hdoors
    have hreason := congrArg (fun s => s.1.map Prod.snd) heq
    exact reason_processCommand b cmd lockState (Option.some.inj hreason)

theorem strings_eq_some_nil_iff {v : Json} : v.strings = some [] ↔ v = .arr [] := by
  cases v with
  | arr items =>
      cases items with
      | nil => simp [Json.strings]
      | cons item items =>
          cases hitem : item.asStr with
          | none => simp [Json.strings, hitem]
          | some s => cases hrest : items.mapM Json.asStr <;> simp [Json.strings, hitem, hrest]
  | null | bool | num | str | obj => simp [Json.strings]

/-- **A command, and an object that differs from it in its metadata alone but is none**, do the same
exactly if the command is rejected anyway. -/
theorem summary_eq_iff_of_readable {fields fields' : List (String × Json)} {cmd : LockCommand}
    (b b' : Broker) (lockState : Bool) (hsame : SameButMetadata fields fields')
    (hcmd : deserializeLockCommand fields = .ok cmd) :
    (handleCommand b lockState cmd).summary = (rejectObject b' lockState fields').summary ↔
      RejectedAnyway fields := by
  obtain ⟨⟨v, hocc, hv⟩, -, w, hocc', hw⟩ := required_of_ok hcmd
  have hget : Json.get fields "command_id" = some (.str cmd.commandId) := get_commandId_of_ok hcmd
  have hdoors : Json.get fields "doors" = some w := by
    rw [Json.get_eq_getLast?, hocc', List.getLast?_singleton]
  have hnil : cmd.doors = [] ↔ w = .arr [] := by
    rw [← strings_eq_some_nil_iff, hw, Option.some.injEq]
  have hanyway : RejectedAnyway fields ↔ cmd.commandId ≠ "" ∧ cmd.doors = [] := by
    rw [RejectedAnyway, hget, hdoors, hnil]
    simp
  rw [hanyway]
  by_cases hne : cmd.commandId = ""
  · -- the command is answered, its rejection is not
    have hid : extractedId fields' = none := by
      rw [← hsame.extractedId_eq, extractedId, hget, hne]
      rfl
    rw [handleCommand_of_empty b lockState hne, rejectObject, hid]
    simp [hne, Handled.summary, answerOnly]
  · have hid : extractedId fields' = some cmd.commandId := by
      rw [← hsame.extractedId_eq, extractedId_eq_some_iff]
      exact ⟨hget, hne⟩
    rw [summary_eq_iff_of_id b b' lockState hne hid]
    simp [hne]

/-! ### Any two payloads -/

/-- An object is no command exactly if a required field or the metadata cannot be read. -/
theorem exists_error_of_not_readable {fields : List (String × Json)}
    (h : ¬ (CommandReadable fields ∧ MetadataReadable fields)) :
    ∃ e, deserializeLockCommand fields = .error e := by
  cases hcmd : deserializeLockCommand fields with
  | error e => exact ⟨e, rfl⟩
  | ok cmd => exact absurd (deserializeLockCommand_ok_iff.1 ⟨cmd, hcmd⟩) h

/-- An object at whose action the parser gives up, against one that is no command. -/
theorem summary_dropped_eq_iff {fields : List (String × Json)} (b : Broker) (lockState : Bool) :
    Handled.summary ⟨none, lockState, []⟩ = (rejectObject b lockState fields).summary ↔
      ¬ HasId fields := by
  rw [← extractedId_eq_none_iff, rejectObject]
  cases extractedId fields with
  | none => exact iff_of_true rfl rfl
  | some commandId => simp [Handled.summary, answerOnly]

section Payloads

variable {serde : SerdeJson} (hserde : serde.Lawful) {payload payload' : String}
  {fields fields' : List (String × Json)} (hvalue : serde.value payload = .ok (.obj fields))
  (hvalue' : serde.value payload' = .ok (.obj fields')) (hsame : SameButMetadata fields fields')
  {b b' : Broker} (hread : b.getValue = b'.getValue) (lockState : Bool)

include hserde hvalue hvalue' hsame

/-- Two payloads whose required fields are no command: they are treated alike unless the parser
gives up in one of them and the other is answered. -/
theorem summary_eq_iff_of_not_readable (hno : ¬ CommandReadable fields) :
    (handleCommandPayload b serde payload lockState).summary =
        (handleCommandPayload b' serde payload' lockState).summary ↔
      (StopsAtAction fields ↔ StopsAtAction fields') ∨ ¬ HasId fields := by
  have hno' : ¬ CommandReadable fields' := fun h => hno (hsame.commandReadable_iff.2 h)
  obtain ⟨e, he⟩ := exists_error_of_not_readable fun h => hno h.1
  obtain ⟨e', he'⟩ := exists_error_of_not_readable fun h => hno' h.1
  have hids : HasId fields ↔ HasId fields' := not_iff_not.1 <| by
    rw [← extractedId_eq_none_iff, ← extractedId_eq_none_iff, hsame.extractedId_eq]
  by_cases hstops : StopsAtAction fields
  · rw [handle_of_stopsAtAction hserde b lockState hvalue hstops]
    by_cases hstops' : StopsAtAction fields'
    · rw [handle_of_stopsAtAction hserde b' lockState hvalue' hstops']
      exact iff_of_true rfl (.inl (iff_of_true hstops hstops'))
    · rw [handle_of_no_command hserde b' lockState hvalue' he' hstops', summary_dropped_eq_iff,
        ← hids]
      simp [hstops, hstops']
  · rw [handle_of_no_command hserde b lockState hvalue he hstops]
    by_cases hstops' : StopsAtAction fields'
    · rw [handle_of_stopsAtAction hserde b' lockState hvalue' hstops', eq_comm,
        summary_dropped_eq_iff]
      simp [hstops, hstops']
    · rw [handle_of_no_command hserde b' lockState hvalue' he' hstops']
      exact iff_of_true (summary_rejectObject b b' lockState hsame.extractedId_eq)
        (.inl (iff_of_false hstops hstops'))

include hread

/-- Two payloads whose required fields are a command: they are treated alike unless the metadata of
one of them cannot be read, and the other is not rejected anyway. -/
theorem summary_eq_iff_of_commandReadable (hok : CommandReadable fields) :
    (handleCommandPayload b serde payload lockState).summary =
        (handleCommandPayload b' serde payload' lockState).summary ↔
      (MetadataReadable fields ↔ MetadataReadable fields') ∨ RejectedAnyway fields := by
  have hok' : CommandReadable fields' := hsame.commandReadable_iff.1 hok
  have hstops := not_stopsAtAction_of_readable hok
  have hstops' := not_stopsAtAction_of_readable hok'
  by_cases hmeta : MetadataReadable fields
  · obtain ⟨cmd, hcmd⟩ := deserializeLockCommand_ok_iff.2 ⟨hok, hmeta⟩
    rw [handle_of_command hserde b lockState hvalue hcmd]
    by_cases hmeta' : MetadataReadable fields'
    · obtain ⟨cmd', hcmd'⟩ := deserializeLockCommand_ok_iff.2 ⟨hok', hmeta'⟩
      obtain ⟨hid, haction, hdoors⟩ := hsame.required_eq hcmd hcmd'
      rw [handle_of_command hserde b' lockState hvalue' hcmd']
      exact iff_of_true (summary_handleCommand hread hid haction hdoors lockState)
        (.inl (iff_of_true hmeta hmeta'))
    · obtain ⟨e, he⟩ := exists_error_of_not_readable fun h => hmeta' h.2
      rw [handle_of_no_command hserde b' lockState hvalue' he hstops',
        summary_eq_iff_of_readable b b' lockState hsame hcmd]
      simp [hmeta, hmeta']
  · obtain ⟨e, he⟩ := exists_error_of_not_readable fun h => hmeta h.2
    rw [handle_of_no_command hserde b lockState hvalue he hstops]
    by_cases hmeta' : MetadataReadable fields'
    · obtain ⟨cmd', hcmd'⟩ := deserializeLockCommand_ok_iff.2 ⟨hok', hmeta'⟩
      rw [handle_of_command hserde b' lockState hvalue' hcmd', eq_comm,
        summary_eq_iff_of_readable b' b lockState hsame.symm hcmd', hsame.rejectedAnyway_iff]
      simp [hmeta, hmeta']
    · obtain ⟨e', he'⟩ := exists_error_of_not_readable fun h => hmeta' h.2
      rw [handle_of_no_command hserde b' lockState hvalue' he' hstops']
      exact iff_of_true (summary_rejectObject b b' lockState hsame.extractedId_eq)
        (.inl (iff_of_false hmeta hmeta'))

end Payloads

/-- **When the metadata make no difference**: the metadata of both payloads can be read or of
neither, or the rest is no command, or one that is rejected anyway; and the parser gives up at the
action of both payloads or of neither, or they have no id. -/
theorem metadata_irrelevant_iff {serde : SerdeJson} (hserde : serde.Lawful)
    {payload payload' : String} {fields fields' : List (String × Json)}
    (hvalue : serde.value payload = .ok (.obj fields))
    (hvalue' : serde.value payload' = .ok (.obj fields'))
    (hsame : SameButMetadata fields fields') {b b' : Broker} (hread : b.getValue = b'.getValue)
    (lockState : Bool) :
    (handleCommandPayload b serde payload lockState).summary =
        (handleCommandPayload b' serde payload' lockState).summary ↔
      ((MetadataReadable fields ↔ MetadataReadable fields') ∨ ¬ CommandReadable fields ∨
        RejectedAnyway fields) ∧
      ((StopsAtAction fields ↔ StopsAtAction fields') ∨ ¬ HasId fields) := by
  by_cases hok : CommandReadable fields
  · have hstops : StopsAtAction fields ↔ StopsAtAction fields' :=
      iff_of_false (not_stopsAtAction_of_readable hok)
        (not_stopsAtAction_of_readable (hsame.commandReadable_iff.1 hok))
    rw [summary_eq_iff_of_commandReadable hserde hvalue hvalue' hsame hread lockState hok]
    simp [hok, hstops]
  · rw [summary_eq_iff_of_not_readable hserde hvalue hvalue' hsame lockState hok]
    simp [hok]

/-- The fields of an unlock command with a timestamp. -/
def stampedFields (timestamp : Json) : List (String × Json) :=
  unlockFields ++ [("timestamp", timestamp)]

/-- The text of an unlock command with a number for its timestamp. -/
def stampedPayload : String :=
  "\x7b\"command_id\":\"cmd-1\",\"action\":\"unlock\",\"doors\":[\"driver\"]," ++
    "\"timestamp\":1700000000\x7d"

/-- The text of an unlock command with a string for its timestamp. -/
def datedPayload : String :=
  "\x7b\"command_id\":\"cmd-1\",\"action\":\"unlock\",\"doors\":[\"driver\"]," ++
    "\"timestamp\":\"2023-11-14T22:13:20Z\"\x7d"

/-- The two readings of these texts. -/
def stampedSerde : SerdeJson :=
  .ofTable [(stampedPayload, .obj (stampedFields (.num (.int 1700000000)))),
    (datedPayload, .obj (stampedFields (.str "2023-11-14T22:13:20Z")))]

theorem stampedSerde_value_dated : stampedSerde.value datedPayload =
    .ok (.obj (stampedFields (.str "2023-11-14T22:13:20Z"))) := by
  refine SerdeJson.ofTable_value ?_
  rw [List.lookup_cons, beq_false_of_ne (by decide), List.lookup_cons_self]

/-- Stamped commands differ in their metadata alone. -/
theorem sameButMetadata_stamped (timestamp timestamp' : Json) :
    SameButMetadata (stampedFields timestamp) (stampedFields timestamp') := by
  intro name hname
  have hother : ∀ v : Json, occurrences name [("timestamp", v)] = [] := fun v =>
    Json.occurrences_cons_of_ne (fun heq => hname (by simp [metadataFields, ← heq])) v []
  rw [stampedFields, stampedFields, Json.occurrences_append, Json.occurrences_append, hother,
    hother]

theorem metadata_irrelevant_iff_stamped :
    (handleCommandPayload driving stampedSerde stampedPayload true).summary =
        (handleCommandPayload driving stampedSerde datedPayload true).summary ↔
      ((MetadataReadable (stampedFields (.num (.int 1700000000))) ↔
          MetadataReadable (stampedFields (.str "2023-11-14T22:13:20Z"))) ∨
        ¬ CommandReadable (stampedFields (.num (.int 1700000000))) ∨
          RejectedAnyway (stampedFields (.num (.int 1700000000)))) ∧
      ((StopsAtAction (stampedFields (.num (.int 1700000000))) ↔
          StopsAtAction (stampedFields (.str "2023-11-14T22:13:20Z"))) ∨
        ¬ HasId (stampedFields (.num (.int 1700000000)))) :=
  metadata_irrelevant_iff (SerdeJson.ofTable_lawful _)
    (SerdeJson.ofTable_value List.lookup_cons_self) stampedSerde_value_dated
    (sameButMetadata_stamped _ _) rfl true

/-- **An unlock command is rejected for a timestamp of another type.** -/
theorem timestamp_of_another_type :
    ¬ ∀ (serde : SerdeJson) (payload payload' : String) (fields fields' : List (String × Json))
      (b : Broker) (lockState : Bool), serde.Lawful → serde.value payload = .ok (.obj fields) →
      serde.value payload' = .ok (.obj fields') → SameButMetadata fields fields' →
        (handleCommandPayload b serde payload lockState).summary =
          (handleCommandPayload b serde payload' lockState).summary := by
  intro hall
  have hlawful : stampedSerde.Lawful := SerdeJson.ofTable_lawful _
  have hvalue : stampedSerde.value stampedPayload = .ok (.obj (stampedFields _)) :=
    SerdeJson.ofTable_value List.lookup_cons_self
  have heq := hall stampedSerde stampedPayload datedPayload _ _ driving true hlawful hvalue
    stampedSerde_value_dated (sameButMetadata_stamped _ _)
  have hcmd : deserializeLockCommand (stampedFields (.num (.int 1700000000))) =
      .ok ⟨"cmd-1", .unlock, ["driver"], none, none, some 1700000000⟩ := rfl
  have herror : deserializeLockCommand (stampedFields (.str "2023-11-14T22:13:20Z")) =
      .error (.invalidType "timestamp") := rfl
  have hstops : ¬ StopsAtAction (stampedFields (.str "2023-11-14T22:13:20Z")) :=
    not_stopsAtAction_of_readable
      ((sameButMetadata_stamped (.num (.int 1700000000)) _).commandReadable_iff.1
        (deserializeLockCommand_ok_iff.1 ⟨_, hcmd⟩).1)
  rw [handle_of_command hlawful driving true hvalue hcmd,
    handle_of_no_command hlawful driving true stampedSerde_value_dated herror hstops,
    summary_eq_iff_of_readable driving driving true (sameButMetadata_stamped _ _) hcmd] at heq
  cases heq.2

end LockingService
