/-
**The REST protocol between the adaptor and the parking operator.**

Requests and answers are structs declared once in Rust and once in Go, and travel as JSON.  Go finds
a field by its name or a case-insensitive match, skips what it does not know, and leaves a field as
it was on `null`; serde takes exact names, skips what it does not know, and rejects a repeated or a
missing field.  Requests agree field by field.  In the answer to a start, Go writes the kind of the
rate as `rate_type` and Rust reads it as `type`, so that no such answer is read.

JSON is taken as value trees, with strings of Unicode text.  How the two libraries write and read
floating-point numbers is a parameter; at the level of trees a number is its value.  Go has no JSON
for NaN and the infinities, and then sends an empty body.

Main definitions:

* `ParkingOperator.decodeStartRequest`, `ParkingOperator.decodeStopRequest` — the requests in Go;
* `ParkingOperator.Wire`, `ParkingOperator.encodeStartResponse`,
  `ParkingOperator.encodeStopResponse` — the answers in Go;
* `ParkingOperatorAdaptor.deserializeStartResponse`,
  `ParkingOperatorAdaptor.deserializeStopResponse` — the answers in Rust;
* `ParkingProtocol.Message`, `ParkingProtocol.RoundTrips`.

Main results:

* `ParkingProtocol.startResponse_rejected` — no answer to a start is read, though
  `ParkingProtocol.active_of_unread_answer` the session is active at the operator;
* `ParkingProtocol.roundTrips_iff_readable` — which messages are read as they were written,
  whatever numbers are written as, and `ParkingProtocol.roundTrips_iff` for numbers taken as values.
-/

import ParkingFeeService.AdaptorSession
import ParkingFeeService.DecimalFloat
import ParkingFeeService.GatewayHandler
import ParkingFeeService.OperatorServer
import ParkingFeeService.VehicleCommand

set_option relaxedAutoImplicit false
set_option autoImplicit false

/-! ### Requests -/

namespace ParkingOperatorAdaptor

/-- Operator REST start request body. -/
structure StartRequest where
  vehicleId : String
  zoneId : String
  timestamp : Int64

/-- Operator REST stop request body. -/
structure StopRequest where
  sessionId : String
  timestamp : Int64

/-- The JSON of a start request. -/
def StartRequest.serialize (r : StartRequest) : Json :=
  .obj [("vehicle_id", .str r.vehicleId), ("zone_id", .str r.zoneId),
    ("timestamp", .num (.int r.timestamp.toInt))]

/-- The JSON of a stop request. -/
def StopRequest.serialize (r : StopRequest) : Json :=
  .obj [("session_id", .str r.sessionId), ("timestamp", .num (.int r.timestamp.toInt))]

end ParkingOperatorAdaptor

namespace ParkingOperator

open CloudGateway (decodeString fieldFor)

/-- Decoding a value into an `int64`. -/
def decodeInt64 (old : Int64) : Json → Option Int64
  | .num (.int n) => if -2 ^ 63 ≤ n ∧ n < 2 ^ 63 then some (Int64.ofInt n) else none
  | .null => some old
  | _ => none

theorem decodeInt64_toInt (old t : Int64) : decodeInt64 old (.num (.int t.toInt)) = some t := by
  rw [decodeInt64, if_pos ⟨t.le_toInt, t.toInt_lt⟩, Int64.ofInt_toInt]

/-- Decoding a body into a struct, field by field, from the struct as it was made. -/
def decodeStruct {α : Type} (decodeField : α → String × Json → Option α) (zero : α) :
    Option Json → Option α
  | some (.obj fields) => fields.foldlM decodeField zero
  | some .null => some zero
  | _ => none

/-- Decoding one field of a start request. -/
def decodeStartField (r : StartRequest) (field : String × Json) : Option StartRequest :=
  match fieldFor ["vehicle_id", "zone_id", "timestamp"] field.1 with
  | some "vehicle_id" => (decodeString r.vehicleId field.2).map fun s => { r with vehicleId := s }
  | some "zone_id" => (decodeString r.zoneId field.2).map fun s => { r with zoneId := s }
  | some "timestamp" => (decodeInt64 r.timestamp field.2).map fun t => { r with timestamp := t }
  | _ => some r

/-- Decoding one field of a stop request. -/
def decodeStopField (r : StopRequest) (field : String × Json) : Option StopRequest :=
  match fieldFor ["session_id", "timestamp"] field.1 with
  | some "session_id" => (decodeString r.sessionId field.2).map fun s => { r with sessionId := s }
  | some "timestamp" => (decodeInt64 r.timestamp field.2).map fun t => { r with timestamp := t }
  | _ => some r

/-- Decoding the body of a start request. -/
def decodeStartRequest : Option Json → Option StartRequest :=
  decodeStruct decodeStartField ⟨"", "", 0⟩

/-- Decoding the body of a stop request. -/
def decodeStopRequest : Option Json → Option StopRequest := decodeStruct decodeStopField ⟨"", 0⟩

theorem decodeStartRequest_serialize (r : ParkingOperatorAdaptor.StartRequest) :
    decodeStartRequest (some r.serialize) = some ⟨r.vehicleId, r.zoneId, r.timestamp⟩ := by
  simp [decodeStartRequest, decodeStruct, ParkingOperatorAdaptor.StartRequest.serialize,
    decodeStartField, fieldFor, decodeString, decodeInt64_toInt]

theorem decodeStopRequest_serialize (r : ParkingOperatorAdaptor.StopRequest) :
    decodeStopRequest (some r.serialize) = some ⟨r.sessionId, r.timestamp⟩ := by
  simp [decodeStopRequest, decodeStruct, ParkingOperatorAdaptor.StopRequest.serialize,
    decodeStopField, fieldFor, decodeString, decodeInt64_toInt]

/-! ### Answers in Go -/

namespace Wire

/-- The pricing rate, with its amount as the number that is sent. -/
structure Rate where
  rateType : String
  amount : BinaryFloat .binary64
  currency : String

/-- The JSON response for a start. -/
structure StartResponse where
  sessionId : String
  status : String
  rate : Rate

/-- The JSON response for a stop, with its amount as the number that is sent. -/
structure StopResponse where
  sessionId : String
  status : String
  duration : UInt64
  totalAmt : BinaryFloat .binary64
  currency : String

end Wire

/-- The answer to a start as it is sent, with the amount rounded to a `float64`. -/
def StartResponse.toWire (r : StartResponse) : Wire.StartResponse :=
  ⟨r.sessionId, r.status, ⟨r.rate.rateType, .ofRat .binary64 r.rate.amount, r.rate.currency⟩⟩

/-- The JSON of a rate. -/
def encodeRate (c : FloatText) (r : Wire.Rate) : Option Json := do
  let amount ← c.encodeFloat64 r.amount
  return .obj [("rate_type", .str r.rateType), ("amount", amount), ("currency", .str r.currency)]

/-- The body of the answer to a start, `none` if it is empty. -/
def encodeStartResponse (c : FloatText) (r : Wire.StartResponse) : Option Json := do
  let rate ← encodeRate c r.rate
  return .obj [("session_id", .str r.sessionId), ("status", .str r.status), ("rate", rate)]

/-- The body of the answer to a stop, `none` if it is empty. -/
def encodeStopResponse (c : FloatText) (r : Wire.StopResponse) : Option Json := do
  let totalAmount ← c.encodeFloat64 r.totalAmt
  return .obj [("session_id", .str r.sessionId), ("status", .str r.status),
    ("duration_seconds", .num (.int r.duration.toNat)), ("total_amount", totalAmount),
    ("currency", .str r.currency)]

end ParkingOperator

/-! ### Answers in Rust -/

namespace ParkingOperatorAdaptor

open CloudGatewayClient (JsonError visit)

/-- A value that has to be of the type of its field. -/
def typed {α : Type} (name : String) : Option α → Except JsonError α
  | some a => .ok a
  | none => .error (.invalidType name)

/-- A field that has to have been visited. -/
def require {α : Type} (name : String) : Option α → Except JsonError α
  | some a => .ok a
  | none => .error (.missingField name)

/-- The reading of a `u64`. -/
def asU64 : Json → Option UInt64
  | .num (.int n) => if 0 ≤ n ∧ n < 2 ^ 64 then some (UInt64.ofNat n.toNat) else none
  | _ => none

theorem asU64_toNat (n : UInt64) : asU64 (.num (.int n.toNat)) = some n := by
  have hlt : (n.toNat : ℤ) < 2 ^ 64 := by exact_mod_cast n.toNat_lt
  rw [asU64, if_pos ⟨Int.natCast_nonneg _, hlt⟩, Int.toNat_natCast, UInt64.ofNat_toNat]

/-- A rate while its fields are being visited. -/
structure RateDraft where
  rateType : Option String := none
  amount : Option F64 := none
  currency : Option String := none

/-- Visiting one field of a rate; the kind of the rate is renamed to `type`. -/
def visitRateField (c : FloatText) (d : RateDraft) (field : String × Json) :
    Except JsonError RateDraft :=
  match field.1 with
  | "type" => do return { d with rateType := ← visit "type" d.rateType field.2.asStr }
  | "amount" => do return { d with amount := ← visit "amount" d.amount (c.asF64 field.2) }
  | "currency" => do return { d with currency := ← visit "currency" d.currency field.2.asStr }
  | _ => .ok d

/-- Reading a rate: an object, or the array of its fields in order. -/
def deserializeRate (c : FloatText) : Json → Except JsonError RateResponse
  | .obj fields => do
      let d ← fields.foldlM (visitRateField c) {}
      return ⟨← require "type" d.rateType, ← require "amount" d.amount,
        ← require "currency" d.currency⟩
  | .arr [rateType, amount, currency] => do
      return ⟨← typed "type" rateType.asStr, ← typed "amount" (c.asF64 amount),
        ← typed "currency" currency.asStr⟩
  | _ => .error .notAnObject

/-- The answer to a start while its fields are being visited. -/
structure StartDraft where
  sessionId : Option String := none
  status : Option String := none
  rate : Option RateResponse := none

/-- Visiting one field of the answer to a start. -/
def visitStartField (c : FloatText) (d : StartDraft) (field : String × Json) :
    Except JsonError StartDraft :=
  match field.1 with
  | "session_id" => do return { d with sessionId := ← visit "session_id" d.sessionId field.2.asStr }
  | "status" => do return { d with status := ← visit "status" d.status field.2.asStr }
  | "rate" =>
      match d.rate with
      | some _ => .error (.duplicateField "rate")
      | none => do return { d with rate := some (← deserializeRate c field.2) }
  | _ => .ok d

/-- Reading the answer to a start. -/
def deserializeStartResponse (c : FloatText) : Json → Except JsonError StartResponse
  | .obj fields => do
      let d ← fields.foldlM (visitStartField c) {}
      return ⟨← require "session_id" d.sessionId, ← require "status" d.status,
        ← require "rate" d.rate⟩
  | .arr [sessionId, status, rate] => do
      return ⟨← typed "session_id" sessionId.asStr, ← typed "status" status.asStr,
        ← deserializeRate c rate⟩
  | _ => .error .notAnObject

/-- The answer to a stop while its fields are being visited. -/
structure StopDraft where
  sessionId : Option String := none
  status : Option String := none
  durationSeconds : Option UInt64 := none
  totalAmount : Option F64 := none
  currency : Option String := none

/-- Visiting one field of the answer to a stop. -/
def visitStopField (c : FloatText) (d : StopDraft) (field : String × Json) :
    Except JsonError StopDraft :=
  match field.1 with
  | "session_id" => do return { d with sessionId := ← visit "session_id" d.sessionId field.2.asStr }
  | "status" => do return { d with status := ← visit "status" d.status field.2.asStr }
  | "duration_seconds" => do
      return { d with
        durationSeconds := ← visit "duration_seconds" d.durationSeconds (asU64 field.2) }
  | "total_amount" => do
      return { d with totalAmount := ← visit "total_amount" d.totalAmount (c.asF64 field.2) }
  | "currency" => do return { d with currency := ← visit "currency" d.currency field.2.asStr }
  | _ => .ok d

/-- Reading the answer to a stop. -/
def deserializeStopResponse (c : FloatText) : Json → Except JsonError StopResponse
  | .obj fields => do
      let d ← fields.foldlM (visitStopField c) {}
      return ⟨← require "session_id" d.sessionId, ← require "status" d.status,
        ← require "duration_seconds" d.durationSeconds, ← require "total_amount" d.totalAmount,
        ← require "currency" d.currency⟩
  | .arr [sessionId, status, durationSeconds, totalAmount, currency] => do
      return ⟨← typed "session_id" sessionId.asStr, ← typed "status" status.asStr,
        ← typed "duration_seconds" (asU64 durationSeconds),
        ← typed "total_amount" (c.asF64 totalAmount), ← typed "currency" currency.asStr⟩
  | _ => .error .notAnObject

/-- Reading the body of a reply of the operator; an empty one is no JSON. -/
def parseReply {α : Type} (deserialize : Json → Except JsonError α) :
    Option Json → Except JsonError α
  | some v => deserialize v
  | none => .error .syntaxError

end ParkingOperatorAdaptor

/-! ### Round trips -/

namespace ParkingProtocol

open ParkingOperator
open ParkingOperatorAdaptor (F64 RateResponse asU64 asU64_toNat deserializeRate
  deserializeStartResponse deserializeStopResponse parseReply require visitRateField
  visitStartField visitStopField)
open CloudGatewayClient (JsonError visit)

/-- A message of the protocol, as its sender has it. -/
inductive Message
  | startRequest (r : ParkingOperatorAdaptor.StartRequest)
  | stopRequest (r : ParkingOperatorAdaptor.StopRequest)
  | startResponse (r : Wire.StartResponse)
  | stopResponse (r : Wire.StopResponse)

/-- The rates are equal, field by field. -/
structure SameRate (r : Wire.Rate) (r' : RateResponse) : Prop where
  rateType : r'.rateType = r.rateType
  amount : r'.amount.Eqv r.amount
  currency : r'.currency = r.currency

/-- The answers to a start are equal, field by field. -/
structure SameStart (r : Wire.StartResponse) (r' : ParkingOperatorAdaptor.StartResponse) :
    Prop where
  sessionId : r'.sessionId = r.sessionId
  status : r'.status = r.status
  rate : SameRate r.rate r'.rate

/-- The answers to a stop are equal, field by field. -/
structure SameStop (r : Wire.StopResponse) (r' : ParkingOperatorAdaptor.StopResponse) : Prop where
  sessionId : r'.sessionId = r.sessionId
  status : r'.status = r.status
  durationSeconds : r'.durationSeconds = r.duration
  totalAmount : r'.totalAmount.Eqv r.totalAmt
  currency : r'.currency = r.currency

/-- The receiver reads the message with the fields its sender gave it. -/
def RoundTrips (c : FloatText) : Message → Prop
  | .startRequest r =>
      decodeStartRequest (some r.serialize) = some ⟨r.vehicleId, r.zoneId, r.timestamp⟩
  | .stopRequest r => decodeStopRequest (some r.serialize) = some ⟨r.sessionId, r.timestamp⟩
  | .startResponse r => ∃ r',
      parseReply (deserializeStartResponse c) (encodeStartResponse c r) = .ok r' ∧ SameStart r r'
  | .stopResponse r => ∃ r',
      parseReply (deserializeStopResponse c) (encodeStopResponse c r) = .ok r' ∧ SameStop r r'

/-- A rate that Go has written is not read: its kind is missing, if its amount is read at all. -/
theorem deserializeRate_encodeRate {c : FloatText} {r : Wire.Rate} {v : Json}
    (h : encodeRate c r = some v) :
    deserializeRate c v = .error (.missingField "type") ∨
      deserializeRate c v = .error (.invalidType "amount") := by
  rw [encodeRate, FloatText.encodeFloat64] at h
  by_cases hfinite : r.amount.IsFinite
  · rw [if_pos hfinite] at h
    cases h
    cases hread : c.read (c.write r.amount) with
    | none =>
        right
        simp [deserializeRate, visitRateField, visit, FloatText.asF64, hread, bind, Except.bind]
    | some x =>
        left
        simp [deserializeRate, visitRateField, visit, FloatText.asF64, Json.asStr, hread, require,
          bind, Except.bind, pure, Except.pure]
  · rw [if_neg hfinite] at h
    cases h

/-- **No answer to a start is read.** -/
theorem startResponse_rejected (c : FloatText) (r : Wire.StartResponse) :
    ∃ e, parseReply (deserializeStartResponse c) (encodeStartResponse c r) = .error e := by
  rw [encodeStartResponse]
  cases hrate : encodeRate c r.rate with
  | none => exact ⟨.syntaxError, rfl⟩
  | some v =>
      obtain ⟨e, he⟩ : ∃ e, deserializeRate c v = .error e := by
        rcases deserializeRate_encodeRate hrate with h | h <;> exact ⟨_, h⟩
      refine ⟨e, ?_⟩
      simp [parseReply, deserializeStartResponse, visitStartField, visit, Json.asStr, he, bind,
        Except.bind, pure, Except.pure]

/-- The session of a start request is active at the operator, and its answer is not read. -/
theorem active_of_unread_answer (c : FloatText) (uuids : Uuids) (req : StartRequest) (s : Store) :
    ∃ resp, (handleStart uuids (.ok req) s).1 = .ok resp ∧
      (∃ e, parseReply (deserializeStartResponse c) (encodeStartResponse c resp.toWire) =
        .error e) ∧
      uuids.gen s.created ∈ (handleStart uuids (.ok req) s).2.activeFor req.vehicleId := by
  refine ⟨_, rfl, startResponse_rejected c _, ?_⟩
  rw [activeFor_handleStart]
  exact Set.mem_insert _ _

section Stop

variable {c : FloatText} {sessionId status currency : String} {v w : Json} {n : UInt64}

/-- An answer to a stop whose two numbers are read. -/
theorem deserializeStopResponse_of_read {x : F64} (hv : asU64 v = some n)
    (hw : c.asF64 w = some x) :
    deserializeStopResponse c (.obj [("session_id", .str sessionId), ("status", .str status),
        ("duration_seconds", v), ("total_amount", w), ("currency", .str currency)]) =
      .ok ⟨sessionId, status, n, x, currency⟩ := by
  simp [deserializeStopResponse, visitStopField, visit, Json.asStr, hv, hw, require, bind,
    Except.bind, pure, Except.pure]

/-- An answer to a stop whose amount is not read. -/
theorem deserializeStopResponse_of_not_read (hv : asU64 v = some n) (hw : c.asF64 w = none) :
    deserializeStopResponse c (.obj [("session_id", .str sessionId), ("status", .str status),
        ("duration_seconds", v), ("total_amount", w), ("currency", .str currency)]) =
      .error (.invalidType "total_amount") := by
  simp [deserializeStopResponse, visitStopField, visit, Json.asStr, hv, hw, bind, Except.bind,
    pure, Except.pure]

end Stop

/-- The answers to a stop that are read, and what is read. -/
theorem parseReply_encodeStopResponse_iff {c : FloatText} {r : Wire.StopResponse}
    {r' : ParkingOperatorAdaptor.StopResponse} :
    parseReply (deserializeStopResponse c) (encodeStopResponse c r) = .ok r' ↔
      r.totalAmt.IsFinite ∧ ∃ x, c.read (c.write r.totalAmt) = some x ∧
        r' = ⟨r.sessionId, r.status, r.duration, x, r.currency⟩ := by
  by_cases hfinite : r.totalAmt.IsFinite
  · have henc : encodeStopResponse c r = some (.obj [("session_id", .str r.sessionId),
        ("status", .str r.status), ("duration_seconds", .num (.int r.duration.toNat)),
        ("total_amount", .num (c.write r.totalAmt)), ("currency", .str r.currency)]) := by
      rw [encodeStopResponse, FloatText.encodeFloat64, if_pos hfinite]
      rfl
    rw [henc, parseReply]
    cases hread : c.read (c.write r.totalAmt) with
    | none =>
        have hw : c.asF64 (.num (c.write r.totalAmt)) = none := hread
        rw [deserializeStopResponse_of_not_read (asU64_toNat r.duration) hw]
        simp
    | some x =>
        have hw : c.asF64 (.num (c.write r.totalAmt)) = some x := hread
        rw [deserializeStopResponse_of_read (asU64_toNat r.duration) hw]
        simp [hfinite, eq_comm]
  · have henc : encodeStopResponse c r = none := by
      rw [encodeStopResponse, FloatText.encodeFloat64, if_neg hfinite]
      rfl
    rw [henc, parseReply]
    simp [hfinite]

/-- The receiver can read the message: it is not the answer to a start, and the amount in the
answer to a stop is a finite number that is read as it was written. -/
def Message.Readable (c : FloatText) : Message → Prop
  | .startRequest _ | .stopRequest _ => True
  | .startResponse _ => False
  | .stopResponse r => r.totalAmt.IsFinite ∧ c.Reads r.totalAmt

/-- Which messages round trip, whatever numbers are written as. -/
theorem roundTrips_iff_readable (c : FloatText) (m : Message) : RoundTrips c m ↔ m.Readable c := by
  cases m with
  | startRequest r => exact iff_of_true (decodeStartRequest_serialize r) trivial
  | stopRequest r => exact iff_of_true (decodeStopRequest_serialize r) trivial
  | startResponse r =>
      obtain ⟨e, he⟩ := startResponse_rejected c r
      refine iff_of_false ?_ id
      rintro ⟨r', hr', -⟩
      rw [he] at hr'
      cases hr'
  | stopResponse r =>
      constructor
      · rintro ⟨r', hr', hsame⟩
        obtain ⟨hfinite, x, hread, rfl⟩ := parseReply_encodeStopResponse_iff.1 hr'
        exact ⟨hfinite, x, hread, hsame.totalAmount⟩
      · rintro ⟨hfinite, x, hread, heqv⟩
        exact ⟨_, parseReply_encodeStopResponse_iff.2 ⟨hfinite, x, hread, rfl⟩,
          ⟨rfl, rfl, rfl, heqv, rfl⟩⟩

/-- The condition on the messages when a number is its value. -/
def Message.Decodes : Message → Prop
  | .startRequest _ | .stopRequest _ => True
  | .startResponse _ => False
  | .stopResponse r => r.totalAmt.IsFinite

/-- **A message round trips unless it is the answer to a start**, or the answer to a stop with an
amount that is no finite number. -/
theorem roundTrips_iff (m : Message) : RoundTrips .exact m ↔ m.Decodes := by
  rw [roundTrips_iff_readable]
  cases m with
  | startRequest r | stopRequest r | startResponse r => exact Iff.rfl
  | stopResponse r => exact and_iff_left_of_imp FloatText.reads_exact

/-- The answer to the start of a session at the operator's rate. -/
def startAnswer : Wire.StartResponse := StartResponse.toWire ⟨"s-1", "active", defaultRate⟩

/-- **The answer to a start does not round trip.** -/
theorem start_answer_rejected : ¬ ∀ m : Message, RoundTrips .exact m := by
  intro hall
  obtain ⟨r', hr', -⟩ := hall (.startResponse startAnswer)
  obtain ⟨e, he⟩ := startResponse_rejected .exact startAnswer
  rw [he] at hr'
  cases hr'

end ParkingProtocol
