/-
**The typed reading of a lock command.**

`serde_json` reads a payload twice, as a typed command and as a generic value.  What is assumed of
it here: a text that is not JSON is no command, and the typed reading of an object is the derived
one, which visits the fields in order.  A field of the command may occur once; `source`, `vin` and
`timestamp` may be missing or `null`; fields of other names are ignored.  A repeated field, a
missing one and a value of the wrong type are data errors, with one exception: an action is an enum,
for which the parser expects a string or an object with one entry, and reports anything else as if
the text were no JSON.

Main definitions:

* `LockingService.deserializeLockCommand` — the typed reading of an object;
* `LockingService.errorCategory` — the category of an error of the typed reading;
* `LockingService.StopsAtAction` — the reading comes to an action at which the parser gives up;
* `LockingService.SerdeJson.Lawful` — what is assumed of the two readings;
* `LockingService.SerdeJson.ofValue`, `LockingService.SerdeJson.ofTable` — lawful readings.

Main results:

* `LockingService.deserializeLockCommand_eq_ok_iff` — the fields of a command that is read;
* `LockingService.deserializeLockCommand_ok_iff` — when the typed reading succeeds;
* `LockingService.category_eq_syntaxError_iff` — which objects are taken for text that is no JSON;
* `LockingService.handle_of_no_object`, `LockingService.handle_of_stopsAtAction`,
  `LockingService.handle_of_no_command`, `LockingService.handle_of_command` — how a payload is
  handled.
-/

import ParkingFeeService.LockingProcess
import ParkingFeeService.VehicleCommand

set_option relaxedAutoImplicit false
set_option autoImplicit false

namespace LockingService

open CloudGatewayClient (JsonError visit visit_bind_eq_ok_iff)
open Json (Visits Once AtMostOnce occurrences)

/-! ### The derived reading -/

/-- An action: one of the two strings, or an object with one of them for its only field and `null`
under it. -/
def asAction : Json → Option LockAction
  | .str "lock" => some .lock
  | .str "unlock" => some .unlock
  | .obj [("lock", .null)] => some .lock
  | .obj [("unlock", .null)] => some .unlock
  | _ => none

/-- The parser gives up at a value that is to be an action: it is neither a string nor an object, or
an object without an entry, or one with another entry after an action that has been read. -/
def breaksParser : Json → Bool
  | .str _ => false
  | .obj (("lock", .null) :: _ :: _) => true
  | .obj (("unlock", .null) :: _ :: _) => true
  | .obj (_ :: _) => false
  | _ => true

/-- An integer of 64 bits. -/
def asI64 : Json → Option Int64
  | .num (.int n) => if -2 ^ 63 ≤ n ∧ n < 2 ^ 63 then some (Int64.ofInt n) else none
  | _ => none

/-- A value of an optional field: `null` is no value. -/
def optional {α : Type} (read : Json → Option α) : Json → Option (Option α)
  | .null => some none
  | v => (read v).map some

/-- The command while its fields are being visited. -/
structure CommandDraft where
  commandId : Option String := none
  action : Option LockAction := none
  doors : Option (List String) := none
  source : Option (Option String) := none
  vin : Option (Option String) := none
  timestamp : Option (Option Int64) := none

/-- Visiting the action. -/
def visitAction (old : Option LockAction) (v : Json) : Except JsonError (Option LockAction) :=
  match old, asAction v with
  | some _, _ => .error (.duplicateField "action")
  | none, some a => .ok (some a)
  | none, none =>
      .error (if breaksParser v then .expectedValue "action" else .invalidType "action")

/-- Visiting one field of a payload. -/
def visitField (d : CommandDraft) (field : String × Json) : Except JsonError CommandDraft :=
  match field.1 with
  | "command_id" => do
      return { d with commandId := ← visit "command_id" d.commandId field.2.asStr }
  | "action" => do return { d with action := ← visitAction d.action field.2 }
  | "doors" => do return { d with doors := ← visit "doors" d.doors field.2.strings }
  | "source" => do
      return { d with source := ← visit "source" d.source (optional Json.asStr field.2) }
  | "vin" => do return { d with vin := ← visit "vin" d.vin (optional Json.asStr field.2) }
  | "timestamp" => do
      return { d with timestamp := ← visit "timestamp" d.timestamp (optional asI64 field.2) }
  | _ => .ok d

/-- The typed reading of an object. -/
def deserializeLockCommand (fields : List (String × Json)) : Except JsonError LockCommand := do
  match ← fields.foldlM visitField {} with
  | ⟨none, _, _, _, _, _⟩ => .error (.missingField "command_id")
  | ⟨_, none, _, _, _, _⟩ => .error (.missingField "action")
  | ⟨_, _, none, _, _, _⟩ => .error (.missingField "doors")
  | ⟨some commandId, some action, some doors, source, vin, timestamp⟩ =>
      .ok ⟨commandId, action, doors, source.join, vin.join, timestamp.join⟩

/-- The category under which `serde_json` reports an error of the typed reading. -/
def errorCategory : JsonError → SerdeCategory
  | .syntaxError | .expectedValue _ => .syntaxError
  | .notAnObject | .duplicateField _ | .missingField _ | .invalidType _ => .data

/-- What is assumed of the two readings.  An array is left out: the derived reading also takes the
fields of a command from an array.  So are texts beyond the limits of the generic reading alone,
such as a number out of range in a field that the typed one ignores. -/
structure SerdeJson.Lawful (serde : SerdeJson) : Prop where
  /-- A text that is not JSON is no command. -/
  not_json : ∀ {text : String} {e : SerdeError}, serde.value text = .error e →
    ∃ e', serde.command text = .error e'
  /-- An object is read as a command by the derived reading. -/
  command : ∀ {text : String} {fields : List (String × Json)} {cmd : LockCommand},
    serde.value text = .ok (.obj fields) → deserializeLockCommand fields = .ok cmd →
      serde.command text = .ok cmd
  /-- An object that is no command has the error of the derived reading. -/
  no_command : ∀ {text : String} {fields : List (String × Json)} {e : JsonError},
    serde.value text = .ok (.obj fields) → deserializeLockCommand fields = .error e →
      ∃ msg, serde.command text = .error ⟨errorCategory e, msg⟩
  /-- A value that is neither an object nor an array has a data error. -/
  no_object : ∀ {text : String} {v : Json}, serde.value text = .ok v →
    (∀ fields, v ≠ .obj fields) → (∀ items, v ≠ .arr items) →
      ∃ msg, serde.command text = .error ⟨.data, msg⟩

/-- The readings with a given generic one. -/
def SerdeJson.ofValue (value : String → Except SerdeError Json) : SerdeJson where
  value := value
  command := fun text =>
    match value text with
    | .error e => .error e
    | .ok (.obj fields) =>
        match deserializeLockCommand fields with
        | .ok cmd => .ok cmd
        | .error e => .error ⟨errorCategory e, "invalid LockCommand"⟩
    | .ok _ => .error ⟨.data, "invalid type, expected struct LockCommand"⟩

theorem SerdeJson.ofValue_lawful (value : String → Except SerdeError Json) :
    (SerdeJson.ofValue value).Lawful where
  not_json := fun {text e} (h : value text = .error e) => ⟨e, by simp only [ofValue, h]⟩
  command := fun {text fields cmd} (h : value text = .ok (.obj fields)) hcmd => by
    simp only [ofValue, h, hcmd]
  no_command := fun {text fields e} (h : value text = .ok (.obj fields)) he =>
    ⟨"invalid LockCommand", by simp only [ofValue, h, he]⟩
  no_object := fun {text v} (h : value text = .ok v) hobj _ => by
    cases v with
    | obj fields => exact absurd rfl (hobj fields)
    | null | bool | num | str | arr =>
        exact ⟨"invalid type, expected struct LockCommand", by simp only [ofValue, h]⟩

/-- The readings of the texts in a table. -/
def SerdeJson.ofTable (table : List (String × Json)) : SerdeJson :=
  .ofValue fun text =>
    match table.lookup text with
    | some v => .ok v
    | none => .error ⟨.eof, "EOF while parsing a value"⟩

theorem SerdeJson.ofTable_lawful (table : List (String × Json)) :
    (SerdeJson.ofTable table).Lawful := ofValue_lawful _

theorem SerdeJson.ofTable_value {table : List (String × Json)} {text : String} {v : Json}
    (h : table.lookup text = some v) : (SerdeJson.ofTable table).value text = .ok v := by
  simp only [ofTable, ofValue, h]

/-! ### What is read -/

/-- What the typed reading does to each field of the command. -/
def Reads (d : CommandDraft) (fields : List (String × Json)) (d' : CommandDraft) : Prop :=
  Visits "command_id" Json.asStr d.commandId fields d'.commandId ∧
    Visits "action" asAction d.action fields d'.action ∧
    Visits "doors" Json.strings d.doors fields d'.doors ∧
    Visits "source" (optional Json.asStr) d.source fields d'.source ∧
    Visits "vin" (optional Json.asStr) d.vin fields d'.vin ∧
    Visits "timestamp" (optional asI64) d.timestamp fields d'.timestamp

/-- The names of the command's fields. -/
def commandFields : List String := ["command_id", "action", "doors", "source", "vin", "timestamp"]

theorem reads_nil (d d' : CommandDraft) : Reads d [] d' ↔ d' = d := by
  simp only [Reads, Json.visits_nil]
  cases d
  cases d'
  simp

/-- The action is visited as any other field, but for the error. -/
theorem visitAction_eq_ok_iff {old new : Option LockAction} {v : Json} :
    visitAction old v = .ok new ↔ visit "action" old (asAction v) = .ok new := by
  cases old with
  | some a => simp [visitAction, visit]
  | none => cases ha : asAction v <;> simp [visitAction, visit, ha]

theorem visitAction_bind_eq_ok_iff {old : Option LockAction} {v : Json}
    {set : Option LockAction → CommandDraft} {d : CommandDraft} :
    (visitAction old v >>= fun x => pure (set x)) = Except.ok d ↔
      (visit "action" old (asAction v) >>= fun x => pure (set x)) = Except.ok d := by
  simp only [Except.bind_eq_ok_iff, visitAction_eq_ok_iff]

/-- A field of the command is visited, and then the others. -/
theorem exists_visit_iff {α : Type} {name : String} {old value : Option α}
    {set : Option α → CommandDraft} {R : CommandDraft → Prop} :
    (∃ d, (visit name old value >>= fun x => pure (set x)) = Except.ok d ∧ R d) ↔
      old = none ∧ ∃ a, value = some a ∧ R (set (some a)) := by
  simp only [visit_bind_eq_ok_iff]
  constructor
  · rintro ⟨_, ⟨hold, a, ha, rfl⟩, hR⟩
    exact ⟨hold, a, ha, hR⟩
  · rintro ⟨hold, a, ha, hR⟩
    exact ⟨_, ⟨hold, a, ha, rfl⟩, hR⟩

theorem reads_cons (d : CommandDraft) (field : String × Json) (fields : List (String × Json))
    (d' : CommandDraft) :
    Reads d (field :: fields) d' ↔ ∃ d₁, visitField d field = .ok d₁ ∧ Reads d₁ fields d' := by
  obtain ⟨name, v⟩ := field
  by_cases hname : name ∈ commandFields
  · -- one field of the command is visited, the others stay as they are
    simp only [commandFields, List.mem_cons, List.not_mem_nil, or_false] at hname
    rcases hname with rfl | rfl | rfl | rfl | rfl | rfl
    all_goals
      simp only [visitField, visitAction_bind_eq_ok_iff, exists_visit_iff]
      simp (disch := decide) only [Reads, Json.visits_cons_self, Json.visits_cons_of_ne]
      grind
  · -- a field that is not the command's is ignored
    simp only [commandFields, List.mem_cons, List.not_mem_nil, or_false, not_or] at hname
    obtain ⟨hid, haction, hdoors, hsource, hvin, htimestamp⟩ := hname
    have hother : visitField d (name, v) = .ok d := by
      rw [visitField]
      split <;> first | contradiction | rfl
    rw [hother]
    simp only [Reads, Json.visits_cons_of_ne hid, Json.visits_cons_of_ne haction,
      Json.visits_cons_of_ne hdoors, Json.visits_cons_of_ne hsource, Json.visits_cons_of_ne hvin,
      Json.visits_cons_of_ne htimestamp, Except.ok.injEq, exists_eq_left']

/-- The fields without which there is no command can be read. -/
def CommandReadable (fields : List (String × Json)) : Prop :=
  Once "command_id" Json.asStr fields ∧ Once "action" asAction fields ∧
    Once "doors" Json.strings fields

/-- The optional fields can be read, where they are given. -/
def MetadataReadable (fields : List (String × Json)) : Prop :=
  AtMostOnce "source" (optional Json.asStr) fields ∧ AtMostOnce "vin" (optional Json.asStr) fields ∧
    AtMostOnce "timestamp" (optional asI64) fields

/-- **What is read**: a command has its required fields from their only occurrences. -/
theorem deserializeLockCommand_eq_ok_iff {fields : List (String × Json)} {cmd : LockCommand} :
    deserializeLockCommand fields = .ok cmd ↔
      ∃ source vin timestamp,
        Reads {} fields ⟨some cmd.commandId, some cmd.action, some cmd.doors, source, vin,
          timestamp⟩ ∧
        cmd.source = source.join ∧ cmd.vin = vin.join ∧ cmd.timestamp = timestamp.join := by
  constructor
  · intro h
    obtain ⟨d, hd, h⟩ := Except.bind_eq_ok_iff.1 h
    have hreads := (Except.foldlM_eq_ok_iff reads_nil reads_cons).1 hd
    obtain ⟨commandId, action, doors, source, vin, timestamp⟩ := d
    cases commandId with
    | none => cases h
    | some commandId =>
        cases action with
        | none => cases h
        | some action =>
            cases doors with
            | none => cases h
            | some doors =>
                cases h
                exact ⟨source, vin, timestamp, hreads, rfl, rfl, rfl⟩
  · rintro ⟨source, vin, timestamp, hreads, hsource, hvin, htimestamp⟩
    obtain ⟨commandId, action, doors, _, _, _⟩ := cmd
    cases hsource
    cases hvin
    cases htimestamp
    exact Except.bind_eq_ok_iff.2
      ⟨_, (Except.foldlM_eq_ok_iff reads_nil reads_cons).2 hreads, rfl⟩

/-- The required fields of a command that is read. -/
theorem required_of_ok {fields : List (String × Json)} {cmd : LockCommand}
    (h : deserializeLockCommand fields = .ok cmd) :
    (∃ v, occurrences "command_id" fields = [v] ∧ v.asStr = some cmd.commandId) ∧
      (∃ v, occurrences "action" fields = [v] ∧ asAction v = some cmd.action) ∧
      ∃ v, occurrences "doors" fields = [v] ∧ v.strings = some cmd.doors := by
  obtain ⟨source, vin, timestamp, ⟨hid, haction, hdoors, -⟩, -⟩ :=
    deserializeLockCommand_eq_ok_iff.1 h
  exact ⟨Json.visits_some_iff.1 hid, Json.visits_some_iff.1 haction, Json.visits_some_iff.1 hdoors⟩

/-- **When the typed reading succeeds.** -/
theorem deserializeLockCommand_ok_iff {fields : List (String × Json)} :
    (∃ cmd, deserializeLockCommand fields = .ok cmd) ↔
      CommandReadable fields ∧ MetadataReadable fields := by
  simp only [CommandReadable, MetadataReadable, ← Json.exists_visits_some_iff,
    ← Json.exists_visits_iff]
  constructor
  · rintro ⟨cmd, h⟩
    obtain ⟨source, vin, timestamp, ⟨hid, haction, hdoors, hsource, hvin, htimestamp⟩, -⟩ :=
      deserializeLockCommand_eq_ok_iff.1 h
    exact ⟨⟨⟨_, hid⟩, ⟨_, haction⟩, ⟨_, hdoors⟩⟩, ⟨_, hsource⟩, ⟨_, hvin⟩, ⟨_, htimestamp⟩⟩
  · rintro ⟨⟨⟨commandId, hid⟩, ⟨action, haction⟩, ⟨doors, hdoors⟩⟩, ⟨source, hsource⟩, ⟨vin, hvin⟩,
      ⟨timestamp, htimestamp⟩⟩
    exact ⟨⟨commandId, action, doors, source.join, vin.join, timestamp.join⟩,
      deserializeLockCommand_eq_ok_iff.2 ⟨source, vin, timestamp,
        ⟨hid, haction, hdoors, hsource, hvin, htimestamp⟩, rfl, rfl, rfl⟩⟩

/-! ### Where the parser gives up -/

/-- Everything so far could be read, and no action was among it. -/
def ReadableSoFar (fields : List (String × Json)) : Prop :=
  AtMostOnce "command_id" Json.asStr fields ∧ occurrences "action" fields = [] ∧
    AtMostOnce "doors" Json.strings fields ∧ MetadataReadable fields

/-- The reading comes to an action at which the parser gives up. -/
def StopsAtAction (fields : List (String × Json)) : Prop :=
  ∃ before v after, fields = before ++ ("action", v) :: after ∧ breaksParser v = true ∧
    ReadableSoFar before

theorem asAction_of_breaksParser {v : Json} (h : breaksParser v = true) : asAction v = none := by
  rw [asAction.eq_def]
  split
  · cases h
  · cases h
  · cases h
  · cases h
  · rfl

/-- A command that can be read has an action that can be. -/
theorem not_stopsAtAction_of_readable {fields : List (String × Json)} (h : CommandReadable fields) :
    ¬ StopsAtAction fields := by
  rintro ⟨before, v, after, rfl, hbreaks, -⟩
  obtain ⟨-, ⟨w, hocc, hread⟩, -⟩ := h
  rw [Json.occurrences_append, Json.occurrences_cons_self] at hocc
  have hmem : v ∈ [w] := hocc ▸ List.mem_append_right _ List.mem_cons_self
  rw [← List.mem_singleton.1 hmem, asAction_of_breaksParser hbreaks] at hread
  cases hread

theorem exists_reads_iff {fields : List (String × Json)} :
    (∃ d, Reads {} fields d ∧ d.action = none) ↔ ReadableSoFar fields := by
  have hnone : Visits "action" asAction none fields none ↔ occurrences "action" fields = [] := by
    simp [Json.visits_none_iff]
  simp only [ReadableSoFar, MetadataReadable, ← Json.exists_visits_iff, ← hnone]
  constructor
  · rintro ⟨⟨_, _, _, _, _, _⟩, ⟨hid, haction, hdoors, hsource, hvin, htimestamp⟩, rfl⟩
    exact ⟨⟨_, hid⟩, haction, ⟨_, hdoors⟩, ⟨_, hsource⟩, ⟨_, hvin⟩, ⟨_, htimestamp⟩⟩
  · rintro ⟨⟨commandId, hid⟩, haction, ⟨doors, hdoors⟩, ⟨source, hsource⟩, ⟨vin, hvin⟩,
      ⟨timestamp, htimestamp⟩⟩
    exact ⟨⟨commandId, none, doors, source, vin, timestamp⟩,
      ⟨hid, haction, hdoors, hsource, hvin, htimestamp⟩, rfl⟩

/-- The error of a field that is not the action. -/
theorem category_visit {α : Type} {name : String} {old value : Option α}
    {set : Option α → CommandDraft} {e : JsonError}
    (h : (visit name old value >>= fun x => pure (set x)) = Except.error e) :
    errorCategory e = .data := by
  rcases Except.bind_eq_error_iff.1 h with h | ⟨x, -, ⟨⟩⟩
  cases old with
  | some a =>
      cases h
      rfl
  | none =>
      cases value with
      | some a => cases h
      | none =>
          cases h
          rfl

/-- The error of the action. -/
theorem category_visitAction {old : Option LockAction} {v : Json}
    {set : Option LockAction → CommandDraft} {e : JsonError}
    (h : (visitAction old v >>= fun x => pure (set x)) = Except.error e) :
    errorCategory e = .syntaxError ↔ old = none ∧ breaksParser v = true := by
  rcases Except.bind_eq_error_iff.1 h with h | ⟨x, -, ⟨⟩⟩
  cases old with
  | some a =>
      cases h
      simp [errorCategory]
  | none =>
      cases ha : asAction v with
      | some a =>
          have hok : visitAction none v = .ok (some a) := by simp only [visitAction, ha]
          cases hok.symm.trans h
      | none =>
          have herror : visitAction none v = .error
              (if breaksParser v then .expectedValue "action" else .invalidType "action") := by
            simp only [visitAction, ha]
          cases herror.symm.trans h
          by_cases hbreaks : breaksParser v = true <;> simp [hbreaks, errorCategory]

theorem category_visitField_iff {d : CommandDraft} {field : String × Json} {e : JsonError}
    (h : visitField d field = .error e) : errorCategory e = .syntaxError ↔
      field.1 = "action" ∧ d.action = none ∧ breaksParser field.2 = true := by
  obtain ⟨name, v⟩ := field
  rw [visitField] at h
  split at h
  all_goals try exact iff_of_false (by rw [category_visit h]; decide) (by simp_all)
  · next heq =>
      cases heq
      rw [category_visitAction h]
      simp
  · cases h

/-- **Which objects are taken for text that is no JSON.** -/
theorem category_eq_syntaxError_iff {fields : List (String × Json)} {e : JsonError}
    (he : deserializeLockCommand fields = .error e) :
    errorCategory e = .syntaxError ↔ StopsAtAction fields := by
  constructor
  · intro hcat
    rcases Except.bind_eq_error_iff.1 he with he | ⟨d, -, he⟩
    · obtain ⟨before, ⟨name, v⟩, after, d, rfl, hbefore, he⟩ := Except.foldlM_eq_error_iff.1 he
      obtain ⟨rfl, haction, hbreaks⟩ := (category_visitField_iff he).1 hcat
      exact ⟨before, v, after, rfl, hbreaks,
        exists_reads_iff.1 ⟨d, (Except.foldlM_eq_ok_iff reads_nil reads_cons).1 hbefore, haction⟩⟩
    · -- a field is missing
      split at he <;> cases he <;> cases hcat
  · rintro ⟨before, v, after, rfl, hbreaks, hread⟩
    obtain ⟨d, hd, haction⟩ := exists_reads_iff.2 hread
    have hvisit : visitField d ("action", v) = .error (.expectedValue "action") := by
      simp only [visitField, visitAction, haction, asAction_of_breaksParser hbreaks, hbreaks]
      rfl
    have hfold : (before ++ ("action", v) :: after).foldlM visitField {} =
        .error (.expectedValue "action") := Except.foldlM_eq_error_iff.2
      ⟨before, _, after, d, rfl, (Except.foldlM_eq_ok_iff reads_nil reads_cons).2 hd, hvisit⟩
    rw [deserializeLockCommand, hfold] at he
    cases he
    rfl

/-- The errors of the typed reading are of two categories. -/
theorem errorCategory_eq_data {e : JsonError} (h : errorCategory e ≠ .syntaxError) :
    errorCategory e = .data := by
  cases e with
  | syntaxError | expectedValue => exact absurd rfl h
  | notAnObject | duplicateField | missingField | invalidType => rfl

/-! ### How a payload is handled -/

section Handle

variable {serde : SerdeJson} (hserde : serde.Lawful) (b : Broker) {payload : String}
  (lockState : Bool)

/-- Handling a command that was read. -/
def handleCommand (cmd : LockCommand) : Handled :=
  match validateCommand cmd with
  | .error e => answerOnly b lockState (failureResponse b.unixSecs cmd.commandId e.reason)
  | .ok () =>
      let o := processCommand b cmd lockState
      ⟨some o.response, o.lockState, o.calls⟩

/-- The non-empty id of an object. -/
def extractedId (fields : List (String × Json)) : Option String :=
  ((Json.get fields "command_id").bind Json.asStr).filter (· ≠ "")

/-- Handling an object that is no command. -/
def rejectObject (fields : List (String × Json)) : Handled :=
  match extractedId fields with
  | some commandId =>
      answerOnly b lockState (failureResponse b.unixSecs commandId "invalid_command")
  | none => ⟨none, lockState, []⟩

@[simp] theorem extractedId_eq_some_iff {fields : List (String × Json)} {commandId : String} :
    extractedId fields = some commandId ↔
      Json.get fields "command_id" = some (.str commandId) ∧ commandId ≠ "" := by
  rw [extractedId, Option.filter_eq_some_iff]
  simp [Option.bind_eq_some_iff]

include hserde

/-- A text that is not an object is dropped, whatever the error. -/
theorem handle_of_no_object (hobj : ∀ fields, serde.value payload ≠ .ok (.obj fields))
    (harr : ∀ items, serde.value payload ≠ .ok (.arr items)) :
    handleCommandPayload b serde payload lockState = ⟨none, lockState, []⟩ := by
  have herror : ∃ e, serde.command payload = .error e := by
    cases hvalue : serde.value payload with
    | error e => exact hserde.not_json hvalue
    | ok v =>
        obtain ⟨msg, h⟩ := hserde.no_object hvalue (fun fields hv => hobj fields (hv ▸ hvalue))
          (fun items hv => harr items (hv ▸ hvalue))
        exact ⟨_, h⟩
  obtain ⟨e, he⟩ := herror
  have hid : extractCommandId serde payload = none := by
    rw [extractCommandId]
    split
    · next fields hfields => exact absurd hfields (hobj fields)
    · rfl
  by_cases hcat : e.category = .syntaxError ∨ e.category = .eof
  · simp [handleCommandPayload, parseCommand, he, hcat]
  · simp [handleCommandPayload, parseCommand, he, hcat, hid]

/-- An object with an action at which the parser gives up is dropped. -/
theorem handle_of_stopsAtAction {fields : List (String × Json)}
    (hvalue : serde.value payload = .ok (.obj fields)) (hstops : StopsAtAction fields) :
    handleCommandPayload b serde payload lockState = ⟨none, lockState, []⟩ := by
  cases he : deserializeLockCommand fields with
  | ok cmd =>
      exact absurd hstops
        (not_stopsAtAction_of_readable (deserializeLockCommand_ok_iff.1 ⟨cmd, he⟩).1)
  | error e =>
      obtain ⟨msg, hmsg⟩ := hserde.no_command hvalue he
      rw [(category_eq_syntaxError_iff he).2 hstops] at hmsg
      have hparse : parseCommand serde payload = .error (.invalidJson msg) := by
        rw [parseCommand, hmsg]
        rfl
      simp only [handleCommandPayload, hparse]

/-- Any other object that is no command is answered if it has an id. -/
theorem handle_of_no_command {fields : List (String × Json)} {e : JsonError}
    (hvalue : serde.value payload = .ok (.obj fields))
    (he : deserializeLockCommand fields = .error e) (hstops : ¬ StopsAtAction fields) :
    handleCommandPayload b serde payload lockState = rejectObject b lockState fields := by
  obtain ⟨msg, hmsg⟩ := hserde.no_command hvalue he
  rw [errorCategory_eq_data fun h => hstops ((category_eq_syntaxError_iff he).1 h)] at hmsg
  have hparse : parseCommand serde payload = .error (.invalidCommand msg) := by
    rw [parseCommand, hmsg]
    rfl
  have hid : extractCommandId serde payload = extractedId fields := by
    rw [extractCommandId, hvalue, extractedId]
  simp only [handleCommandPayload, hparse, hid]
  rfl

/-- An object that is a command is validated and processed. -/
theorem handle_of_command {fields : List (String × Json)} {cmd : LockCommand}
    (hvalue : serde.value payload = .ok (.obj fields))
    (hcmd : deserializeLockCommand fields = .ok cmd) :
    handleCommandPayload b serde payload lockState = handleCommand b lockState cmd := by
  have hparse : parseCommand serde payload = .ok cmd := by
    rw [parseCommand, hserde.command hvalue hcmd]
  simp only [handleCommandPayload, hparse]
  rfl

end Handle

end LockingService
