/-
**The command format between the gateway client and the locking service.**

The client forwards the bytes of a payload that it has read as a command, and the locking service
reads them again, with a type of its own.  The two readings agree on the id, the action and the
doors. The locking service also reads the source, the identifier of the vehicle and the timestamp,
which the client keeps as they are, and it takes no doors but the driver's.

Main definitions:

* `LockingService.LockAction.name` — an action as it is written.

Main results:

* `CloudGatewayClient.required_of_ok` — the fields that the client has read;
* `CloudGatewayClient.forwarded_commands_agree` — **what becomes of a payload that is forwarded.**
-/

import ParkingFeeService.LockingHistory
import ParkingFeeService.LockingLanguage
import ParkingFeeService.VehicleCommandLanguage

set_option relaxedAutoImplicit false
set_option autoImplicit false

/-- An action as it is written. -/
def LockingService.LockAction.name : LockingService.LockAction → String
  | .lock => "lock"
  | .unlock => "unlock"

namespace CloudGatewayClient

open Json (occurrences)
open LockingService (SerdeJson LockAction LockCommand Executes MetadataReadable CommandReadable
  deserializeLockCommand parseCommand handleCommandPayload responses)

/-! ### What the client has read -/

/-- The fields of a command that the client has read. -/
theorem required_of_ok {fields : List (String × Json)} {cmd : CommandPayload}
    (h : deserializeCommand fields = .ok cmd) :
    occurrences "command_id" fields = [.str cmd.commandId] ∧
      occurrences "action" fields = [.str cmd.action] ∧
      occurrences "doors" fields = [Json.ofStrings cmd.doors] := by
  obtain ⟨d, hd, h⟩ := Except.bind_eq_ok_iff.1 h
  obtain ⟨hid, haction, hdoors, -⟩ := (Except.foldlM_eq_ok_iff reads_nil reads_cons).1 hd
  obtain ⟨commandId, action, doors, extra⟩ := d
  cases commandId with
  | none => cases h
  | some commandId =>
      cases action with
      | none => cases h
      | some action =>
          cases doors with
          | none => cases h
          | some doors =>
              cases h
              obtain ⟨v, hv, hstr⟩ := Json.visits_some_iff.1 hid
              obtain ⟨w, hw, hstr'⟩ := Json.visits_some_iff.1 haction
              obtain ⟨u, hu, hstrings⟩ := Json.visits_some_iff.1 hdoors
              refine ⟨?_, ?_, ?_⟩
              · rw [hv, Json.asStr_eq_some_iff.1 hstr]
              · rw [hw, Json.asStr_eq_some_iff.1 hstr']
              · rw [hu, LockingService.strings_eq_some_iff.1 hstrings]

/-- A payload that the client accepts is an object that it has read, with an id and a known
action. -/
theorem of_validateCommandPayload {v : Json} {cmd : CommandPayload}
    (h : validateCommandPayload (some v) = .ok cmd) :
    ∃ fields, v = .obj fields ∧ deserializeCommand fields = .ok cmd ∧ cmd.commandId ≠ "" ∧
      (cmd.action = "lock" ∨ cmd.action = "unlock") := by
  cases v with
  | obj fields =>
      obtain ⟨⟨⟩, hid, h⟩ := Except.bind_eq_ok_iff.1 h
      obtain ⟨⟨⟩, haction, h⟩ := Except.bind_eq_ok_iff.1 h
      obtain ⟨⟨⟩, hdoors, h⟩ := Except.bind_eq_ok_iff.1 h
      split at h
      · next cmd' hcmd' =>
          cases h
          obtain ⟨hocc, hocc', -⟩ := required_of_ok hcmd'
          refine ⟨fields, rfl, hcmd', ?_, ?_⟩
          · obtain ⟨s, hne, hs⟩ := checkCommandId_eq_ok_iff.1 hid
            rw [Json.get_of_occurrences hocc] at hs
            cases hs
            exact hne
          · have hknown := checkAction_eq_ok_iff.1 haction
            rw [Json.get_of_occurrences hocc'] at hknown
            simpa using hknown
      · cases h
  | null | bool | num | str | arr => cases h

/-! ### What the locking service reads -/

section

variable {fields : List (String × Json)} {cmd : CommandPayload}

/-- The action that the client has read is one of the locking service. -/
theorem exists_asAction {action : String} (h : action = "lock" ∨ action = "unlock") :
    ∃ a : LockAction, LockingService.asAction (.str action) = some a ∧ a.name = action := by
  rcases h with rfl | rfl
  · exact ⟨.lock, rfl, rfl⟩
  · exact ⟨.unlock, rfl, rfl⟩

/-- The required fields of a command that the client has read can be read again. -/
theorem commandReadable_of_ok (h : deserializeCommand fields = .ok cmd)
    (haction : cmd.action = "lock" ∨ cmd.action = "unlock") : CommandReadable fields := by
  obtain ⟨hid, hact, hdoors⟩ := required_of_ok h
  obtain ⟨a, ha, -⟩ := exists_asAction haction
  refine ⟨⟨_, hid, rfl⟩, ⟨_, hact, by rw [ha]; rfl⟩, ⟨_, hdoors, ?_⟩⟩
  rw [LockingService.strings_eq_some_iff.2 rfl]
  rfl

/-- The two readings agree on the required fields. -/
theorem required_agree {cmd' : LockCommand} (h : deserializeCommand fields = .ok cmd)
    (haction : cmd.action = "lock" ∨ cmd.action = "unlock")
    (h' : deserializeLockCommand fields = .ok cmd') :
    cmd'.commandId = cmd.commandId ∧ cmd'.action.name = cmd.action ∧ cmd'.doors = cmd.doors := by
  obtain ⟨hid, hact, hdoors⟩ := required_of_ok h
  obtain ⟨⟨v, hv, hstr⟩, ⟨w, hw, ha⟩, ⟨u, hu, hstrings⟩⟩ := LockingService.required_of_ok h'
  cases hid.symm.trans hv
  cases hact.symm.trans hw
  cases hdoors.symm.trans hu
  obtain ⟨a, ha', hname⟩ := exists_asAction haction
  refine ⟨(Option.some.inj hstr).symm, ?_, ?_⟩
  · cases ha.symm.trans ha'
    exact hname
  · rw [LockingService.strings_eq_some_iff.2 rfl] at hstrings
    exact (Option.some.inj hstrings).symm

end

/-- **What becomes of a payload that is forwarded.**  The locking service reads it as a command
exactly if it can read the optional fields, and then as the command that the client has read; it
executes it exactly if, besides, there are doors and all of them are the driver's; and it answers it
once, with the id that the client has read. -/
theorem forwarded_commands_agree {serde : SerdeJson} (hserde : serde.Lawful) {payload : String}
    {v : Json} (hvalue : serde.value payload = .ok v) {cmd : CommandPayload}
    (h : validateCommandPayload (some v) = .ok cmd) :
    ∃ fields, v = .obj fields ∧
      ((∃ cmd', parseCommand serde payload = .ok cmd') ↔ MetadataReadable fields) ∧
      (∀ cmd', parseCommand serde payload = .ok cmd' →
        cmd'.commandId = cmd.commandId ∧ cmd'.action.name = cmd.action ∧
          cmd'.doors = cmd.doors) ∧
      (Executes serde payload ↔
        MetadataReadable fields ∧ cmd.doors ≠ [] ∧ ∀ door ∈ cmd.doors, door = "driver") ∧
      ∀ b lockState, ∃ r, responses (handleCommandPayload b serde payload lockState).calls = [r] ∧
        r.Answers cmd.commandId := by
  obtain ⟨fields, rfl, hcmd, hne, haction⟩ := of_validateCommandPayload h
  have hreadable := commandReadable_of_ok hcmd haction
  -- a text is parsed as a command exactly if its object is read as one
  have hparse : ∀ cmd', parseCommand serde payload = .ok cmd' ↔
      deserializeLockCommand fields = .ok cmd' := by
    intro cmd'
    cases hread : deserializeLockCommand fields with
    | ok c => simp only [parseCommand, hserde.command hvalue hread, Except.ok.injEq]
    | error e =>
        obtain ⟨msg, hmsg⟩ := hserde.no_command hvalue hread
        rw [parseCommand, hmsg]
        dsimp only
        split <;> simp
  have hagree : ∀ cmd', parseCommand serde payload = .ok cmd' →
      cmd'.commandId = cmd.commandId ∧ cmd'.action.name = cmd.action ∧ cmd'.doors = cmd.doors :=
    fun cmd' hcmd' => required_agree hcmd haction ((hparse cmd').1 hcmd')
  have hmetadata : (∃ cmd', parseCommand serde payload = .ok cmd') ↔ MetadataReadable fields := by
    simp only [hparse]
    rw [LockingService.deserializeLockCommand_ok_iff]
    exact and_iff_right hreadable
  refine ⟨fields, rfl, hmetadata, hagree, ?_, fun b lockState => ?_⟩
  · constructor
    · rintro ⟨cmd', hcmd', hvalid⟩
      obtain ⟨-, -, hdoors⟩ := hagree cmd' hcmd'
      rw [← hdoors]
      exact ⟨hmetadata.1 ⟨cmd', hcmd'⟩, (LockingService.validateCommand_eq_ok_iff.1 hvalid).2⟩
    · rintro ⟨hmeta, hdoors⟩
      obtain ⟨cmd', hcmd'⟩ := hmetadata.2 hmeta
      obtain ⟨hid, -, hsame⟩ := hagree cmd' hcmd'
      refine ⟨cmd', hcmd', LockingService.validateCommand_eq_ok_iff.2 ⟨?_, ?_⟩⟩
      · rw [hid]
        exact hne
      · rw [hsame]
        exact hdoors
  · exact LockingService.answered_of_commandId hserde b lockState hvalue
      (LockingService.not_stopsAtAction_of_readable hreadable)
      (Json.get_of_occurrences (required_of_ok hcmd).1) hne

/-- A command to lock two doors, one of which is not the driver's. -/
def twoDoorsFields : List (String × Json) :=
  [("command_id", .str "cmd-1"), ("action", .str "lock"),
    ("doors", Json.ofStrings ["driver", "trunk"])]

/-- Its text. -/
def twoDoorsText : String :=
  "\x7b\"command_id\":\"cmd-1\",\"action\":\"lock\",\"doors\":[\"driver\",\"trunk\"]\x7d"

theorem forwarded_commands_agree_twoDoors :
    ∃ cmd fields, validateCommandPayload (some (.obj twoDoorsFields)) = .ok cmd ∧
      Json.obj twoDoorsFields = .obj fields ∧
      ((∃ cmd', parseCommand (.ofTable [(twoDoorsText, .obj twoDoorsFields)]) twoDoorsText =
        .ok cmd') ↔ MetadataReadable fields) ∧
      (∀ cmd', parseCommand (.ofTable [(twoDoorsText, .obj twoDoorsFields)]) twoDoorsText =
        .ok cmd' → cmd'.commandId = cmd.commandId ∧ cmd'.action.name = cmd.action ∧
          cmd'.doors = cmd.doors) ∧
      (Executes (.ofTable [(twoDoorsText, .obj twoDoorsFields)]) twoDoorsText ↔
        MetadataReadable fields ∧ cmd.doors ≠ [] ∧ ∀ door ∈ cmd.doors, door = "driver") ∧
      ∀ b lockState, ∃ r, responses (handleCommandPayload b
        (.ofTable [(twoDoorsText, .obj twoDoorsFields)]) twoDoorsText lockState).calls = [r] ∧
          r.Answers cmd.commandId := by
  have hcmd : validateCommandPayload (some (.obj twoDoorsFields)) =
      .ok ⟨"cmd-1", "lock", ["driver", "trunk"], []⟩ := rfl
  obtain ⟨fields, hall⟩ := forwarded_commands_agree (SerdeJson.ofTable_lawful _)
    (SerdeJson.ofTable_value (List.lookup_cons_self (k := twoDoorsText))) hcmd
  exact ⟨_, fields, hcmd, hall⟩

end CloudGatewayClient
