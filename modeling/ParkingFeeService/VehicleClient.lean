/-
**The vehicle's gateway client.**

The client takes commands from NATS to the data broker and responses from the data broker to NATS.
A command is forwarded as it came, if its message bears the bearer token of the configuration and
its payload is in order; everything else is dropped.  A response is relayed as it came, if it is
JSON.

Main definitions:

* `CloudGatewayClient.Message` and the subjects of a vehicle;
* `CloudGatewayClient.validateBearerToken`, `CloudGatewayClient.acceptCommand` — what is forwarded;
* `CloudGatewayClient.relayResponse` — what is relayed.

Main results:

* `CloudGatewayClient.acceptCommand_eq_ok_iff` — exactly which messages are forwarded, and as what;
* `CloudGatewayClient.matches_vehicleSubject_iff` — whom a subscription for one vehicle hears;
* `CloudGatewayClient.matches_allVehicles_iff` — whom a subscription for all vehicles hears.
-/

import ParkingFeeService.LockingBroker
import ParkingFeeService.Subjects
import ParkingFeeService.VehicleCommand

set_option relaxedAutoImplicit false
set_option autoImplicit false

namespace CloudGatewayClient

open LockingService (TypedValue)

/-- What the client uses of its configuration: the identifier of the vehicle, and the token that
commands have to bear. -/
structure Config where
  vin : String
  bearerToken : String
  deriving DecidableEq, Repr

/-! ### Messages and subjects -/

/-- A NATS message; a header may have several values. -/
structure Message where
  subject : String
  headers : String → List String
  payload : ByteArray

/-- A message without headers. -/
def Message.plain (subject : String) (payload : ByteArray) : Message :=
  ⟨subject, fun _ => [], payload⟩

/-- A subject of a vehicle. -/
def vehicleSubject (vin kind : String) : String := "vehicles." ++ vin ++ "." ++ kind

/-- The subject of the commands for a vehicle. -/
def commandSubject (vin : String) : String := vehicleSubject vin "commands"

/-- The subject of a vehicle's responses. -/
def responseSubject (vin : String) : String := vehicleSubject vin "command_responses"

/-! ### Commands -/

/-- Error returned when bearer token authentication fails. -/
inductive AuthError
  | missingHeader
  | invalidToken
  deriving DecidableEq, Repr

/-- The headers of a message, with the first value of each. -/
def extractHeaders (msg : Message) : String → Option String := fun key => (msg.headers key).head?

/-- Validating the bearer token. -/
def validateBearerToken (headers : String → Option String) (expectedToken : String) :
    Except AuthError Unit :=
  match headers "Authorization" with
  | none => .error .missingHeader
  | some authValue =>
      if authValue = "Bearer " ++ expectedToken then .ok () else .error .invalidToken

/-- Why a message is dropped. -/
inductive Rejection
  | auth (e : AuthError)
  | payload (e : ValidationError)
  | notUtf8
  deriving DecidableEq, Repr

/-- The payload that is written for a message of the command subscription.  `fromSlice` is the
reading of the bytes as a generic JSON value. -/
def acceptCommand (fromSlice : ByteArray → Option Json) (bearerToken : String) (msg : Message) :
    Except Rejection String :=
  match validateBearerToken (extractHeaders msg) bearerToken with
  | .error e => .error (.auth e)
  | .ok () =>
      match validateCommandPayload (fromSlice msg.payload) with
      | .error e => .error (.payload e)
      | .ok _ =>
          match String.fromUTF8? msg.payload with
          | none => .error .notUtf8
          | some payload => .ok payload

/-! ### Responses -/

/-- The string of a value; values of other types are dropped from the subscription of responses. -/
def readString : TypedValue → Option String
  | .string v => some v
  | _ => none

/-- The message that relays a response, which has to be JSON. -/
def relayResponse (fromStr : String → Option Json) (vin responseJson : String) : Option Message :=
  match fromStr responseJson with
  | none => none
  | some _ => some (.plain (responseSubject vin) responseJson.toUTF8)

/-! ### What is forwarded -/

theorem validateBearerToken_eq_ok_iff {headers : String → Option String} {token : String} :
    validateBearerToken headers token = .ok () ↔
      headers "Authorization" = some ("Bearer " ++ token) := by
  rw [validateBearerToken]
  split
  · next h => simp [h]
  · next v h =>
      split
      · next hv => simp [h, hv]
      · next hv => simp [h, hv]

theorem fromUTF8?_eq_some_iff {bytes : ByteArray} {s : String} :
    String.fromUTF8? bytes = some s ↔ bytes = s.toUTF8 := by
  constructor
  · intro h
    unfold String.fromUTF8? at h
    split at h
    · cases h
      rfl
    · cases h
  · rintro rfl
    unfold String.fromUTF8?
    exact dif_pos s.isValidUTF8

/-- **Exactly which messages are forwarded:** those whose authorization is the configured token and
whose payload is in order, and it is forwarded byte by byte. -/
theorem acceptCommand_eq_ok_iff {fromSlice : ByteArray → Option Json} {token payload : String}
    {msg : Message} :
    acceptCommand fromSlice token msg = .ok payload ↔
      (msg.headers "Authorization").head? = some ("Bearer " ++ token) ∧
        (∃ cmd, validateCommandPayload (fromSlice msg.payload) = .ok cmd) ∧
        msg.payload = payload.toUTF8 := by
  constructor
  · intro h
    unfold acceptCommand at h
    split at h
    · cases h
    · next hauth =>
        split at h
        · cases h
        · next cmd hcmd =>
            split at h
            · cases h
            · next s hs =>
                cases h
                exact ⟨validateBearerToken_eq_ok_iff.1 hauth, ⟨cmd, hcmd⟩,
                  fromUTF8?_eq_some_iff.1 hs⟩
  · rintro ⟨hauth, ⟨cmd, hcmd⟩, hpayload⟩
    have htoken : validateBearerToken (extractHeaders msg) token = .ok () :=
      validateBearerToken_eq_ok_iff.2 hauth
    have hutf8 := fromUTF8?_eq_some_iff.2 hpayload
    simp only [acceptCommand, htoken, hcmd, hutf8]

theorem relayResponse_eq_some_iff {fromStr : String → Option Json} {vin text : String}
    {msg : Message} :
    relayResponse fromStr vin text = some msg ↔
      (fromStr text).isSome = true ∧ msg = .plain (responseSubject vin) text.toUTF8 := by
  rw [relayResponse]
  cases fromStr text with
  | none => simp
  | some v => simp [eq_comm]

/-! ### Who hears whom -/

open Subject

theorem tokens_vehicleSubject (vin : String) {kind : String} (hkind : '.' ∉ kind.toList) :
    tokens (vehicleSubject vin kind) = "vehicles" :: (tokens vin ++ [kind]) := by
  have hdots : vehicleSubject vin kind = "vehicles" ++ "." ++ (vin ++ "." ++ kind) := by
    have hroot : "vehicles." = "vehicles" ++ "." := by decide
    simp only [vehicleSubject, hroot, String.append_assoc]
  rw [hdots, tokens_dot, tokens_dot, tokens_of_no_dot (s := "vehicles") (by decide),
    tokens_of_no_dot hkind]
  rfl

theorem vehicleSubject_injective {vin vin' kind kind' : String} (hkind : '.' ∉ kind.toList)
    (hkind' : '.' ∉ kind'.toList) (h : vehicleSubject vin kind = vehicleSubject vin' kind') :
    vin = vin' ∧ kind = kind' := by
  have htokens := congrArg tokens h
  rw [tokens_vehicleSubject vin hkind, tokens_vehicleSubject vin' hkind', List.cons.injEq,
    ← List.concat_eq_append, ← List.concat_eq_append, List.concat_inj] at htokens
  exact ⟨tokens_injective htokens.2.1, htokens.2.2⟩

/-- **A subscription to a subject of a vehicle** hears that vehicle only, if the identifier has no
wildcards. -/
theorem matches_vehicleSubject_iff {vin vin' kind kind' : String} (hvin : Literal vin)
    (hkind : '.' ∉ kind.toList ∧ kind ≠ "*" ∧ kind ≠ ">") (hkind' : '.' ∉ kind'.toList) :
    Matches (vehicleSubject vin kind) (vehicleSubject vin' kind') ↔ vin' = vin ∧ kind' = kind := by
  have hliteral : Literal (vehicleSubject vin kind) := by
    intro t ht
    rw [tokens_vehicleSubject vin hkind.1, List.mem_cons, List.mem_append,
      List.mem_singleton] at ht
    rcases ht with rfl | ht | rfl
    · decide
    · exact hvin t ht
    · exact hkind.2
  rw [matches_iff_eq hliteral]
  constructor
  · exact vehicleSubject_injective hkind' hkind.1
  · rintro ⟨rfl, rfl⟩
    rfl

/-- A subscription for one kind of message hears no other kind. -/
theorem kind_eq_of_matches {vin vin' kind kind' : String}
    (hkind : '.' ∉ kind.toList ∧ kind ≠ "*" ∧ kind ≠ ">") (hkind' : '.' ∉ kind'.toList)
    (h : Matches (vehicleSubject vin kind) (vehicleSubject vin' kind')) : kind' = kind := by
  rw [Matches, tokens_vehicleSubject vin hkind.1, tokens_vehicleSubject vin' hkind',
    ← List.cons_append, List.map_append, List.map_singleton, patternToken_of_literal hkind.2] at h
  have hlast := getLast?_of_matchesTokens h
  rw [← List.cons_append, List.getLast?_concat] at hlast
  exact Option.some.inj hlast

/-- **A subscription to a subject of all vehicles** hears those whose identifier has no dot. -/
theorem matches_allVehicles_iff {vin kind kind' : String}
    (hkind : '.' ∉ kind.toList ∧ kind ≠ "*" ∧ kind ≠ ">") (hkind' : '.' ∉ kind'.toList) :
    Matches (vehicleSubject "*" kind) (vehicleSubject vin kind') ↔
      '.' ∉ vin.toList ∧ kind' = kind := by
  have hpattern : (tokens (vehicleSubject "*" kind)).map patternToken =
      ["vehicles"].map .exact ++ .any :: [kind].map .exact := by
    rw [tokens_vehicleSubject "*" hkind.1, tokens_of_no_dot (s := "*") (by decide)]
    simp [patternToken, hkind.2]
  rw [Matches, hpattern, matchesTokens_exact_append_iff, tokens_vehicleSubject vin hkind']
  constructor
  · rintro ⟨ts, hts, hmatch⟩
    obtain ⟨u, vs, rfl, hlast⟩ := matchesTokens_any_cons_iff.1 hmatch
    rw [matchesTokens_exact_iff] at hlast
    subst hlast
    -- the tokens of the identifier are the single one that the wildcard stands for
    have hsplit : tokens vin ++ [kind'] = [u] ++ [kind] := (List.cons.inj hts).2
    obtain ⟨hone, hlast⟩ := List.append_inj' hsplit rfl
    refine ⟨length_tokens_eq_one_iff.1 (by rw [hone]; rfl), (List.cons.inj hlast).1⟩
  · rintro ⟨hdot, rfl⟩
    refine ⟨tokens vin ++ [kind'], rfl, ?_⟩
    rw [tokens_of_no_dot hdot]
    exact matchesTokens_any_cons_iff.2 ⟨vin, [kind'], rfl, matchesTokens_exact_iff.2 rfl⟩

end CloudGatewayClient
