/-
**Submitting a command to the cloud gateway.**

The gateway decodes the body of a request with Go's `encoding/json`, checks the command and
publishes it on the NATS subject of the vehicle.  Go reads the first value of the body into a
struct: a field is found by its exact name or, failing that, by a case-insensitive match; unknown
fields are skipped; a `null` leaves a string as it is and makes a slice `nil`; of a repeated field
every occurrence is read, one after the other, into the same place.

Main definitions:

* `CloudGateway.Command`, `CloudGateway.decodeCommand`, `CloudGateway.encodeCommand`;
* `CloudGateway.publishCommand` — the NATS message of a command;
* `CloudGateway.submitCommand` — the handler of `POST /vehicles/{vin}/commands`.

Main results:

* `CloudGateway.submitCommand_accepted_iff` — when a command is accepted, and what is published.
-/

import ParkingFeeService.Json

set_option relaxedAutoImplicit false
set_option autoImplicit false

namespace CloudGateway

/-! ### Decoding a command -/

/-- A lock or unlock command submitted by a companion app; `doors` is `none` for a `nil` slice. -/
structure Command where
  commandId : String
  type : String
  doors : Option (List String)
  deriving DecidableEq, Repr

/-- A Go `[]string` while it is being decoded: what has been written to its backing array, and its
length, `none` for a `nil` slice. -/
structure StringSlice where
  backing : List String
  len : Option ℕ
  deriving DecidableEq, Repr

/-- The elements of a slice. -/
def StringSlice.elems (s : StringSlice) : Option (List String) := s.len.map s.backing.take

/-- Decoding array items over the backing array: a `null` keeps what is there. -/
def decodeItems : List String → List Json → Option (List String)
  | backing, [] => some backing
  | backing, item :: items => do
      let s ← match item with
        | .str s => some s
        | .null => some (backing.headD "")
        | _ => none
      let rest ← decodeItems backing.tail items
      return s :: rest

/-- Decoding a value into a slice of strings. -/
def decodeSlice (s : StringSlice) : Json → Option StringSlice
  | .null => some ⟨[], none⟩
  | .arr [] => some ⟨[], some 0⟩
  | .arr items => do
      let backing ← decodeItems s.backing items
      return ⟨backing, some items.length⟩
  | _ => none

/-- Decoding a value into a string. -/
def decodeString (old : String) : Json → Option String
  | .str s => some s
  | .null => some old
  | _ => none

/-- Case folding as Go matches field names: besides the ASCII letters, the long s and the Kelvin
sign fold to letters that occur in ASCII names. -/
def foldRune (c : Char) : Char :=
  if c = Char.ofNat 0x17F then 's' else if c = Char.ofNat 0x212A then 'k' else c.toLower

/-- The struct field a JSON field name is decoded into. -/
def fieldFor (names : List String) (key : String) : Option String :=
  if key ∈ names then some key
  else names.find? fun name => name.toList.map foldRune = key.toList.map foldRune

example : fieldFor ["command_id", "type", "doors"] "DOORS" = some "doors" := by decide

/-- A command while it is being decoded. -/
structure CommandDraft where
  commandId : String := ""
  type : String := ""
  doors : StringSlice := ⟨[], none⟩

/-- Decoding one field of the body. -/
def decodeField (d : CommandDraft) (field : String × Json) : Option CommandDraft :=
  match fieldFor ["command_id", "type", "doors"] field.1 with
  | some "command_id" => (decodeString d.commandId field.2).map fun s => { d with commandId := s }
  | some "type" => (decodeString d.type field.2).map fun s => { d with type := s }
  | some "doors" => (decodeSlice d.doors field.2).map fun s => { d with doors := s }
  | _ => some d

/-- Decoding the body of a request, `none` if it does not begin with a JSON value. -/
def decodeCommand : Option Json → Option Command
  | some (.obj fields) =>
      (fields.foldlM decodeField {}).map fun d => ⟨d.commandId, d.type, d.doors.elems⟩
  -- `null` leaves the struct as it was made
  | some .null => some ⟨"", "", none⟩
  | _ => none

/-- The JSON of a command. -/
def encodeCommand (cmd : Command) : Json :=
  .obj [("command_id", .str cmd.commandId), ("type", .str cmd.type),
    ("doors", (cmd.doors.map Json.ofStrings).getD .null)]

/-! ### Publishing -/

/-- A NATS message. -/
structure NatsMsg where
  subject : String
  authorization : String
  data : Json

/-- The message of a command. -/
def publishCommand (vin : String) (cmd : Command) (token : String) : NatsMsg where
  subject := "vehicles." ++ vin ++ ".commands"
  authorization := "Bearer " ++ token
  data := encodeCommand cmd

/-! ### The handler -/

/-- A request that the mux has routed to the handler. -/
structure SubmitRequest where
  vin : String
  authorization : String
  body : Option Json

/-- A response with a JSON body. -/
structure HttpResponse where
  status : ℕ
  body : Json

/-- The response `{"error": msg}`. -/
def errorResponse (status : ℕ) (msg : String) : HttpResponse := ⟨status, .obj [("error", .str msg)]⟩

/-- The bearer token of an `Authorization` header. -/
def extractToken (authHeader : String) : String :=
  if "Bearer ".toList <+: authHeader.toList then String.ofList (authHeader.toList.drop 7) else ""

/-- What a submission does: its response, the message published, and the command whose timeout is
started. -/
structure Submission where
  response : HttpResponse
  published : Option NatsMsg := none
  timeoutFor : Option String := none

/-- The handler of `POST /vehicles/{vin}/commands`.  `conn` says whether the NATS connection takes a
message. -/
def submitCommand (conn : NatsMsg → Bool) (r : SubmitRequest) : Submission :=
  match decodeCommand r.body with
  | none => { response := errorResponse 400 "invalid command payload" }
  | some cmd =>
      if cmd.commandId = "" ∨ cmd.type = "" ∨ cmd.doors = none ∨ cmd.doors = some [] then
        { response := errorResponse 400 "invalid command payload" }
      else if cmd.type ≠ "lock" ∧ cmd.type ≠ "unlock" then
        { response := errorResponse 400 "invalid command type" }
      else
        -- the vehicle is that of the route, and the struct of the body is published as it is
        let msg := publishCommand r.vin cmd (extractToken r.authorization)
        if conn msg then
          { response := ⟨202, encodeCommand cmd⟩
            published := some msg
            timeoutFor := some cmd.commandId }
        else { response := errorResponse 500 "failed to publish command" }

/-- A command that passes the checks of the handler. -/
structure Command.Accepted (cmd : Command) : Prop where
  commandId : cmd.commandId ≠ ""
  type : cmd.type = "lock" ∨ cmd.type = "unlock"
  doors : ∃ door doors, cmd.doors = some (door :: doors)

/-- A request is accepted exactly if its body decodes to a command that passes the checks and the
connection takes its message, which is then what is published. -/
theorem submitCommand_accepted_iff {conn : NatsMsg → Bool} {r : SubmitRequest} :
    (submitCommand conn r).response.status = 202 ↔
      ∃ cmd, decodeCommand r.body = some cmd ∧ cmd.Accepted ∧
        conn (publishCommand r.vin cmd (extractToken r.authorization)) = true ∧
        (submitCommand conn r).published =
          some (publishCommand r.vin cmd (extractToken r.authorization)) := by
  rw [submitCommand]
  cases hcmd : decodeCommand r.body with
  | none => simp [errorResponse]
  | some cmd =>
      simp only [Option.some.injEq, exists_eq_left']
      constructor
      · intro h
        split at h
        · cases h
        · next hfields =>
            split at h
            · cases h
            · next htype =>
                split at h
                · next hconn =>
                    rw [if_neg hfields, if_neg htype, if_pos hconn]
                    refine ⟨⟨fun h => hfields (.inl h), ?_, ?_⟩, hconn, rfl⟩
                    · by_contra hno
                      exact htype (not_or.1 hno)
                    · match hd : cmd.doors with
                      | none => exact absurd (.inr (.inr (.inl hd))) hfields
                      | some [] => exact absurd (.inr (.inr (.inr hd))) hfields
                      | some (door :: doors) => exact ⟨door, doors, rfl⟩
                · cases h
      · rintro ⟨hacc, hconn, -⟩
        obtain ⟨door, doors, hdoors⟩ := hacc.doors
        have htype : cmd.type ≠ "" := by
          rcases hacc.type with h | h
          · rw [h]; decide
          · rw [h]; decide
        have hlock : ¬ (cmd.type ≠ "lock" ∧ cmd.type ≠ "unlock") := by
          rintro ⟨hl, hu⟩
          exact hacc.type.elim hl hu
        rw [if_neg (by simp [hacc.commandId, htype, hdoors]), if_neg hlock, if_pos hconn]

end CloudGateway
