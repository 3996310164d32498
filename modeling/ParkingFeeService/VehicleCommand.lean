/-
**Commands received by the vehicle's gateway client.**

The client checks a payload in two readings of the same bytes.  The first one, as a generic value in
which the last occurrence of a repeated field counts, gives the error messages.  The second one
deserializes into the typed command, rejects a repeated field, and keeps all other fields.

Main definitions:

* `CloudGatewayClient.CommandPayload`, `CloudGatewayClient.ValidationError`;
* `CloudGatewayClient.deserializeCommand` — the typed reading;
* `CloudGatewayClient.validateCommandPayload`.

Main results:

* `CloudGatewayClient.validateCommandPayload_of_no_action` — a payload without `action` is rejected.
-/

import ParkingFeeService.JsonRecord

set_option relaxedAutoImplicit false
set_option autoImplicit false

namespace CloudGatewayClient

/-- Why a payload is not the JSON that is expected.  The text is that of the JSON library. -/
inductive JsonError
  | syntaxError
  | notAnObject
  | duplicateField (field : String)
  | missingField (field : String)
  | invalidType (field : String)
  /-- the value cannot begin, or does not end, where it does -/
  | expectedValue (field : String)
  deriving DecidableEq, Repr

/-- Error returned when the validation of a command payload fails. -/
inductive ValidationError
  | invalidJson (e : JsonError)
  | missingField (field : String)
  | invalidAction (action : String)
  deriving DecidableEq, Repr

/-- A validated lock or unlock command, with the other fields of its payload. -/
structure CommandPayload where
  commandId : String
  action : String
  doors : List String
  extra : List (String × Json)

/-- The typed command while its fields are being visited. -/
structure PayloadDraft where
  commandId : Option String := none
  action : Option String := none
  doors : Option (List String) := none
  extra : List (String × Json) := []

/-- A field of the typed command is visited: it may occur once, with a value of its type. -/
def visit {α : Type} (name : String) (old value : Option α) : Except JsonError (Option α) :=
  match old, value with
  | some _, _ => .error (.duplicateField name)
  | none, some a => .ok (some a)
  | none, none => .error (.invalidType name)

theorem visit_eq_ok_iff {α : Type} {name : String} {old value new : Option α} :
    visit name old value = .ok new ↔ old = none ∧ ∃ a, value = some a ∧ new = some a := by
  cases old with
  | some a => simp [visit]
  | none =>
      cases value with
      | none => simp [visit]
      | some a => simp [visit, eq_comm]

/-- A field of the record takes the value visited. -/
theorem visit_bind_eq_ok_iff {α D : Type} {name : String} {old value : Option α}
    {set : Option α → D} {d : D} :
    (visit name old value >>= fun x => pure (set x)) = Except.ok d ↔
      old = none ∧ ∃ a, value = some a ∧ d = set (some a) := by
  rw [Except.bind_eq_ok_iff]
  constructor
  · rintro ⟨x, hx, hd⟩
    obtain ⟨hold, a, ha, rfl⟩ := visit_eq_ok_iff.1 hx
    exact ⟨hold, a, ha, (Except.ok.inj hd).symm⟩
  · rintro ⟨hold, a, ha, rfl⟩
    exact ⟨some a, visit_eq_ok_iff.2 ⟨hold, a, ha, rfl⟩, rfl⟩

/-- Visiting one field of a payload. -/
def visitField (d : PayloadDraft) (field : String × Json) : Except JsonError PayloadDraft :=
  match field.1 with
  | "command_id" => do
      return { d with commandId := ← visit "command_id" d.commandId field.2.asStr }
  | "action" => do return { d with action := ← visit "action" d.action field.2.asStr }
  | "doors" => do return { d with doors := ← visit "doors" d.doors field.2.strings }
  | _ => .ok { d with extra := d.extra ++ [field] }

/-- The typed reading of a payload. -/
def deserializeCommand (fields : List (String × Json)) : Except JsonError CommandPayload := do
  match ← fields.foldlM visitField {} with
  | ⟨none, _, _, _⟩ => .error (.missingField "command_id")
  | ⟨_, none, _, _⟩ => .error (.missingField "action")
  | ⟨_, _, none, _⟩ => .error (.missingField "doors")
  | ⟨some commandId, some action, some doors, extra⟩ => .ok ⟨commandId, action, doors, extra⟩

/-- `command_id` is present and a non-empty string. -/
def checkCommandId (fields : List (String × Json)) : Except ValidationError Unit :=
  match (Json.get fields "command_id").bind Json.asStr with
  | some "" => .error (.missingField "command_id")
  | some _ => .ok ()
  | none => .error (.missingField "command_id")

/-- `action` is present and one of the two known ones. -/
def checkAction (fields : List (String × Json)) : Except ValidationError Unit :=
  match (Json.get fields "action").bind Json.asStr with
  | some "lock" => .ok ()
  | some "unlock" => .ok ()
  | some other => .error (.invalidAction other)
  | none => .error (.missingField "action")

/-- `doors` is present and an array.  The doors themselves are left to the locking service. -/
def checkDoors (fields : List (String × Json)) : Except ValidationError Unit :=
  match (Json.get fields "doors").bind Json.asArr with
  | some _ => .ok ()
  | none => .error (.missingField "doors")

/-- Validating a payload, `none` if it is not JSON. -/
def validateCommandPayload : Option Json → Except ValidationError CommandPayload
  | none => .error (.invalidJson .syntaxError)
  | some (.obj fields) => do
      checkCommandId fields
      checkAction fields
      checkDoors fields
      match deserializeCommand fields with
      | .ok cmd => .ok cmd
      | .error e => .error (.invalidJson e)
  | some _ => .error (.invalidJson .notAnObject)

theorem checkCommandId_eq_ok_iff {fields : List (String × Json)} :
    checkCommandId fields = .ok () ↔
      ∃ s, s ≠ "" ∧ (Json.get fields "command_id").bind Json.asStr = some s := by
  rw [checkCommandId]
  split
  · next h => simp [h]
  · next s hs h => exact ⟨fun _ => ⟨s, hs, h⟩, fun _ => rfl⟩
  · next h => simp [h]

/-- A payload without an `action` is rejected, for that reason if its `command_id` is in order. -/
theorem validateCommandPayload_of_no_action {fields : List (String × Json)}
    (hid : checkCommandId fields = .ok ()) (haction : Json.get fields "action" = none) :
    validateCommandPayload (some (.obj fields)) = .error (.missingField "action") := by
  have hact : checkAction fields = .error (.missingField "action") := by
    simp [checkAction, haction]
  simp only [validateCommandPayload, hid, hact]
  rfl

end CloudGatewayClient
