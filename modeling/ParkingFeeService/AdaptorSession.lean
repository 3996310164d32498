/-
**The session of the parking operator adaptor.**

The adaptor keeps the record of at most one parking session.  A record is made when the operator has
started a session and dropped when it has stopped it, so a record that is kept is that of an active
session.

Main definitions:

* `ParkingOperatorAdaptor.SessionState`, `ParkingOperatorAdaptor.Session` — the record;
* `ParkingOperatorAdaptor.Session.start`, `ParkingOperatorAdaptor.Session.stop`;
* `ParkingOperatorAdaptor.StartResponse`, `ParkingOperatorAdaptor.StopResponse`,
  `ParkingOperatorAdaptor.OperatorError` — what the operator client returns.
-/

import ParkingFeeService.BinaryFloat

set_option relaxedAutoImplicit false
set_option autoImplicit false

namespace ParkingOperatorAdaptor

/-- The double-precision numbers. -/
abbrev F64 : Type := BinaryFloat .binary64

/-! ### The operator client's results -/

/-- Rate information from the operator. -/
structure RateResponse where
  rateType : String
  amount : F64
  currency : String
  deriving DecidableEq

/-- The answer to a start. -/
structure StartResponse where
  sessionId : String
  status : String
  rate : RateResponse
  deriving DecidableEq

/-- The answer to a stop. -/
structure StopResponse where
  sessionId : String
  status : String
  durationSeconds : UInt64
  totalAmount : F64
  currency : String
  deriving DecidableEq

/-- The failure of an operation of the operator client. -/
inductive OperatorError
  | requestFailed (msg : String)
  | parseError (msg : String)
  deriving DecidableEq

/-- The text of an error. -/
def OperatorError.toString : OperatorError → String
  | .requestFailed msg => "operator request failed: " ++ msg
  | .parseError msg => "operator response parse error: " ++ msg

/-! ### The session -/

/-- Rate information of a session. -/
structure Rate where
  rateType : String
  amount : F64
  currency : String
  deriving DecidableEq

/-- The record of a session. -/
structure SessionState where
  sessionId : String
  zoneId : String
  startTime : Int64
  rate : Rate
  active : Bool
  deriving DecidableEq

/-- The session manager. -/
structure Session where
  state : Option SessionState
  deriving DecidableEq

namespace Session

/-- No session. -/
def new : Session := ⟨none⟩

/-- A session is active. -/
def isActive (s : Session) : Bool := s.state.any SessionState.active

/-- Recording a session that has been started. -/
def start (_ : Session) (sessionId zoneId : String) (startTime : Int64) (rate : Rate) : Session :=
  ⟨some ⟨sessionId, zoneId, startTime, rate, true⟩⟩

/-- Clearing the record; the id of the session is returned if it was active. -/
def stop (s : Session) : Option String × Session :=
  ((s.state.filter SessionState.active).map SessionState.sessionId, ⟨none⟩)

/-- The record, if there is one. -/
def status (s : Session) : Option SessionState := s.state

/-- The rate of the record, if there is one. -/
def rate (s : Session) : Option Rate := s.state.map SessionState.rate

@[simp] theorem isActive_new : new.isActive = false := rfl

@[simp] theorem isActive_start (s : Session) (sessionId zoneId : String) (startTime : Int64)
    (rate : Rate) : (s.start sessionId zoneId startTime rate).isActive = true := rfl

@[simp] theorem isActive_stop (s : Session) : s.stop.2.isActive = false := rfl

/-- An active session has a record. -/
theorem isSome_status_of_isActive {s : Session} (h : s.isActive = true) :
    s.status.isSome = true := by
  obtain ⟨state⟩ := s
  cases state with
  | none => cases h
  | some st => rfl

end Session

end ParkingOperatorAdaptor
