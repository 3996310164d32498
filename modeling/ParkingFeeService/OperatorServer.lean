/-
**The parking operator.**

The operator keeps its sessions in a map.  Every start request makes a new session under a fresh id,
whether or not the vehicle has an active one; a stop request marks the session it names as stopped,
and may be repeated.  Amounts of money are exact here.

A request is a `POST` with its body as it was decoded.

Main definitions:

* `ParkingOperator.Session`, `ParkingOperator.Store` — the sessions;
* `ParkingOperator.handleStart`, `ParkingOperator.handleStop`;
* `ParkingOperator.Store.activeFor` — the active sessions of a vehicle.

Main results:

* `ParkingOperator.activeFor_handleStart`, `ParkingOperator.activeFor_handleStop` — what a request
  does to the active sessions.
-/

import Mathlib.Data.Rat.Defs
import Mathlib.Data.Set.Insert
import Mathlib.Logic.Function.Basic

set_option relaxedAutoImplicit false
set_option autoImplicit false

namespace ParkingOperator

/-! ### Sessions and requests -/

/-- The pricing rate of a session. -/
structure Rate where
  rateType : String
  amount : ℚ
  currency : String
  deriving DecidableEq

/-- A parking session. -/
structure Session where
  sessionId : String
  vehicleId : String
  zoneId : String
  status : String
  startTime : Int64
  stopTime : Int64 := 0
  duration : UInt64 := 0
  totalAmt : ℚ := 0
  currency : String := ""
  rate : Rate
  deriving DecidableEq

/-- The body of a start request. -/
structure StartRequest where
  vehicleId : String
  zoneId : String
  timestamp : Int64

/-- The answer to a start request. -/
structure StartResponse where
  sessionId : String
  status : String
  rate : Rate
  deriving DecidableEq

/-- The body of a stop request. -/
structure StopRequest where
  sessionId : String
  timestamp : Int64

/-- The answer to a stop request. -/
structure StopResponse where
  sessionId : String
  status : String
  duration : UInt64
  totalAmt : ℚ
  currency : String
  deriving DecidableEq

/-- The errors that are answered. -/
inductive RequestError
  | invalidBody (msg : String)
  | sessionNotFound (sessionId : String)
  deriving DecidableEq

/-- The HTTP status of an error. -/
def RequestError.status : RequestError → ℕ
  | .invalidBody _ => 400
  | .sessionNotFound _ => 404

/-- The rate of all sessions. -/
def defaultRate : Rate := ⟨"per_hour", 5 / 2, "EUR"⟩

/-- The ids that `uuid.New` gives, one after the other; no two are the same. -/
structure Uuids where
  gen : ℕ → String
  injective : Function.Injective gen

/-- The sessions by id, and how many were made. -/
structure Store where
  sessions : String → Option Session
  created : ℕ

/-- The operator when it starts. -/
def newStore : Store := ⟨fun _ => none, 0⟩

/-! ### The handlers -/

/-- Handling `/parking/start`. -/
def handleStart (uuids : Uuids) (body : Except String StartRequest) (s : Store) :
    Except RequestError StartResponse × Store :=
  match body with
  | .error e => (.error (.invalidBody e), s)
  | .ok req =>
      let sessionId := uuids.gen s.created
      let session : Session :=
        { sessionId := sessionId
          vehicleId := req.vehicleId
          zoneId := req.zoneId
          status := "active"
          startTime := req.timestamp
          rate := defaultRate }
      (.ok ⟨sessionId, "active", defaultRate⟩,
        ⟨Function.update s.sessions sessionId (some session), s.created + 1⟩)

/-- Stopping a session; the duration is the difference of the two times, as an unsigned number. -/
def Session.stop (session : Session) (timestamp : Int64) : Session :=
  let duration := (timestamp - session.startTime).toUInt64
  { session with
    status := "stopped"
    stopTime := timestamp
    duration := duration
    totalAmt := defaultRate.amount * (duration.toNat / 3600)
    currency := "EUR" }

/-- Handling `/parking/stop`. -/
def handleStop (body : Except String StopRequest) (s : Store) :
    Except RequestError StopResponse × Store :=
  match body with
  | .error e => (.error (.invalidBody e), s)
  | .ok req =>
      match s.sessions req.sessionId with
      | none => (.error (.sessionNotFound req.sessionId), s)
      | some session =>
          let stopped := session.stop req.timestamp
          (.ok ⟨req.sessionId, "stopped", stopped.duration, stopped.totalAmt, "EUR"⟩,
            { s with sessions := Function.update s.sessions req.sessionId (some stopped) })

/-! ### The active sessions of a vehicle -/

/-- The ids of the active sessions of a vehicle. -/
def Store.activeFor (s : Store) (vehicleId : String) : Set String :=
  {id | ∃ session, s.sessions id = some session ∧ session.vehicleId = vehicleId ∧
    session.status = "active"}

@[simp] theorem activeFor_newStore (vehicleId : String) : newStore.activeFor vehicleId = ∅ := by
  simp [Store.activeFor, newStore]

variable {uuids : Uuids} {s : Store}

/-- A start request adds a session. -/
theorem activeFor_handleStart (req : StartRequest) :
    (handleStart uuids (.ok req) s).2.activeFor req.vehicleId =
      insert (uuids.gen s.created) (s.activeFor req.vehicleId) := by
  ext id
  by_cases hid : id = uuids.gen s.created
  · subst hid
    simp [handleStart, Store.activeFor]
  · simp [handleStart, Store.activeFor, hid]

@[simp] theorem created_handleStart (req : StartRequest) :
    (handleStart uuids (.ok req) s).2.created = s.created + 1 := rfl

/-- A stop request of a known session is answered. -/
theorem handleStop_of_known (req : StopRequest)
    (h : (s.sessions req.sessionId).isSome = true) :
    ∃ resp, (handleStop (.ok req) s).1 = .ok resp := by
  obtain ⟨session, hsession⟩ := Option.isSome_iff_exists.1 h
  simp [handleStop, hsession]

/-- A stop request of a known session removes it from the active ones. -/
theorem activeFor_handleStop (req : StopRequest) (vehicleId : String)
    (h : (s.sessions req.sessionId).isSome = true) :
    (handleStop (.ok req) s).2.activeFor vehicleId =
      s.activeFor vehicleId \ {req.sessionId} := by
  obtain ⟨session, hsession⟩ := Option.isSome_iff_exists.1 h
  ext id
  by_cases hid : id = req.sessionId
  · subst hid
    simp [handleStop, hsession, Store.activeFor, Session.stop]
  · simp [handleStop, hsession, Store.activeFor, hid]

/-- A stop request forgets no session. -/
theorem isSome_handleStop {body : Except String StopRequest} {id : String}
    (h : (s.sessions id).isSome = true) :
    ((handleStop body s).2.sessions id).isSome = true := by
  cases body with
  | error e => exact h
  | ok req =>
      cases hsession : s.sessions req.sessionId with
      | none => simpa [handleStop, hsession] using h
      | some session =>
          by_cases hid : id = req.sessionId
          · simp [handleStop, hsession, hid]
          · simpa [handleStop, hsession, hid] using h

end ParkingOperator
