/-
**The event loop of the parking operator adaptor.**

Lock events and gRPC commands reach one loop, which handles them one after the other and owns the
session.  The operator client and the broker are parameters, as they are in the code: a call takes
the world to a result and a next world.  Every event comes with the environment it is handled in,
so that any call may succeed or fail at any time.

Handling an event returns, along with the session and the world, the calls it made and the reply it
sent.

Main definitions:

* `ParkingOperatorAdaptor.OperatorOps`, `ParkingOperatorAdaptor.BrokerOps`,
  `ParkingOperatorAdaptor.Environment`;
* `ParkingOperatorAdaptor.processLockEvent`, `ParkingOperatorAdaptor.processManualStart`,
  `ParkingOperatorAdaptor.processManualStop`;
* `ParkingOperatorAdaptor.SessionEvent`, `ParkingOperatorAdaptor.runEventLoop`.

Main results:

* `ParkingOperatorAdaptor.forget_processEvent` — what an event does, but for its reply.
-/

import ParkingFeeService.AdaptorSession

set_option relaxedAutoImplicit false
set_option autoImplicit false

namespace ParkingOperatorAdaptor

variable {W R : Type}

/-! ### The operator and the broker -/

def signalSessionActive : String := "Vehicle.Parking.SessionActive"

/-- The operator's REST client: starting a session for a vehicle and a zone, and stopping one. -/
structure OperatorOps (W : Type) where
  startSession : String → String → W → Except OperatorError StartResponse × W
  stopSession : String → W → Except OperatorError StopResponse × W

/-- The publication of signals. -/
structure BrokerOps (W : Type) where
  setBool : String → Bool → W → Except String Unit × W

/-- What the handling of an event depends on. -/
structure Environment (W : Type) where
  operator : OperatorOps W
  broker : BrokerOps W
  unixTimestamp : W → Int64

/-- A call with its result. -/
inductive Call
  | startSession (vehicleId zoneId : String) (result : Except OperatorError StartResponse)
  | stopSession (sessionId : String) (result : Except OperatorError StopResponse)
  | setBool (signal : String) (value : Bool) (result : Except String Unit)

/-- What handling an event does: the session and the world after it, the calls made and what is
returned. -/
structure Effect (W R : Type) where
  session : Session
  world : W
  calls : List Call
  result : R

/-- Returning something else. -/
def Effect.map {R' : Type} (f : R → R') (e : Effect W R) : Effect W R' :=
  ⟨e.session, e.world, e.calls, f e.result⟩

/-- The effect but for what is returned. -/
def Effect.forget (e : Effect W R) : Effect W Unit := e.map fun _ => ()

/-- Nothing is done. -/
def Effect.idle (session : Session) (w : W) (result : R) : Effect W R := ⟨session, w, [], result⟩

variable (env : Environment W)

/-! ### Starting and stopping -/

/-- Starting a session with the operator, recording it and publishing it; a failed publication
changes nothing. -/
def startSession (session : Session) (vehicleId zoneId : String) (w : W) :
    Effect W (Except OperatorError StartResponse) :=
  match env.operator.startSession vehicleId zoneId w with
  | (.ok resp, w₁) =>
      let (published, w₂) := env.broker.setBool signalSessionActive true w₁
      ⟨session.start resp.sessionId zoneId (env.unixTimestamp w₁)
          ⟨resp.rate.rateType, resp.rate.amount, resp.rate.currency⟩,
        w₂,
        [.startSession vehicleId zoneId (.ok resp), .setBool signalSessionActive true published],
        .ok resp⟩
  | (.error e, w₁) => ⟨session, w₁, [.startSession vehicleId zoneId (.error e)], .error e⟩

/-- Stopping the session with the operator, clearing the record and publishing it. -/
def stopSession (session : Session) (sessionId : String) (w : W) :
    Effect W (Except OperatorError StopResponse) :=
  match env.operator.stopSession sessionId w with
  | (.ok resp, w₁) =>
      let (published, w₂) := env.broker.setBool signalSessionActive false w₁
      ⟨session.stop.2, w₂,
        [.stopSession sessionId (.ok resp), .setBool signalSessionActive false published], .ok resp⟩
  | (.error e, w₁) => ⟨session, w₁, [.stopSession sessionId (.error e)], .error e⟩

/-- The id of the active session. -/
def activeId (session : Session) (h : session.isActive = true) : String :=
  (session.status.get (Session.isSome_status_of_isActive h)).sessionId

/-! ### The handlers -/

/-- Errors of the manual commands. -/
inductive ManualError
  | alreadyExists (sessionId : String)
  | failedPrecondition
  | operatorUnavailable (msg : String)
  deriving DecidableEq

/-- The result of a manual command from that of the operator. -/
def manualResult : Except OperatorError R → Except ManualError R
  | .ok resp => .ok resp
  | .error e => .error (.operatorUnavailable e.toString)

/-- A change of the lock state: locking starts a session, unlocking stops it. -/
def processLockEvent (session : Session) (vehicleId zoneId : String) (isLocked : Bool) (w : W) :
    Effect W Unit :=
  if isLocked then
    if session.isActive then .idle session w ()
    else (startSession env session vehicleId zoneId w).forget
  else if h : session.isActive then (stopSession env session (activeId session h) w).forget
  else .idle session w ()

/-- A manual start, refused while a session is active. -/
def processManualStart (session : Session) (vehicleId zoneId : String) (w : W) :
    Effect W (Except ManualError StartResponse) :=
  if h : session.isActive then .idle session w (.error (.alreadyExists (activeId session h)))
  else (startSession env session vehicleId zoneId w).map manualResult

/-- A manual stop, refused while no session is active. -/
def processManualStop (session : Session) (w : W) : Effect W (Except ManualError StopResponse) :=
  if h : session.isActive then
    (stopSession env session (activeId session h) w).map manualResult
  else .idle session w (.error .failedPrecondition)

/-! ### The loop -/

/-- The events of the channel. -/
inductive SessionEvent
  | lockChanged (isLocked : Bool)
  | manualStart (zoneId : String)
  | manualStop
  | queryStatus
  | queryRate
  deriving DecidableEq

/-- The replies to the events that come from the gRPC server. -/
inductive Reply
  | manualStart (result : Except ManualError StartResponse)
  | manualStop (result : Except ManualError StopResponse)
  | status (state : Option SessionState)
  | rate (rate : Option Rate)

/-- Handling an event; `zoneId` is the configured zone. -/
def processEvent (vehicleId zoneId : String) (session : Session) (event : SessionEvent) (w : W) :
    Effect W (Option Reply) :=
  match event with
  | .lockChanged isLocked =>
      (processLockEvent env session vehicleId zoneId isLocked w).map fun _ => none
  | .manualStart z =>
      (processManualStart env session vehicleId z w).map fun result => some (.manualStart result)
  | .manualStop => (processManualStop env session w).map fun result => some (.manualStop result)
  | .queryStatus => .idle session w (some (.status session.status))
  | .queryRate => .idle session w (some (.rate session.rate))

/-- An event that has been handled: its environment, the session and the world before it, and its
effect. -/
structure Step (W : Type) where
  event : SessionEvent
  env : Environment W
  session : Session
  world : W
  effect : Effect W (Option Reply)

/-- The steps of the event loop. -/
def runEventLoop (vehicleId zoneId : String) :
    Session → W → List (SessionEvent × Environment W) → List (Step W)
  | _, _, [] => []
  | session, w, (event, env) :: events =>
      let effect := processEvent env vehicleId zoneId session event w
      ⟨event, env, session, w, effect⟩ ::
        runEventLoop vehicleId zoneId effect.session effect.world events

/-! ### What an event does -/

/-- The zone in which the event is to start a session, if it is to start one. -/
def SessionEvent.startZone (zoneId : String) : SessionEvent → Option String
  | .lockChanged true => some zoneId
  | .manualStart z => some z
  | _ => none

/-- The event is to stop the session. -/
def SessionEvent.isStop : SessionEvent → Bool
  | .lockChanged false | .manualStop => true
  | _ => false

@[simp] theorem forget_map {R' : Type} (f : R → R') (e : Effect W R) :
    (e.map f).forget = e.forget := rfl

@[simp] theorem forget_forget (e : Effect W R) : e.forget.forget = e.forget := rfl

@[simp] theorem forget_idle (session : Session) (w : W) (result : R) :
    (Effect.idle session w result).forget = .idle session w () := rfl

/-- **What an event does**: it starts a session if it is to start one and none is active, stops it
if it is to stop it and it is active, and does nothing otherwise. -/
theorem forget_processEvent (vehicleId zoneId : String) (session : Session) (event : SessionEvent)
    (w : W) :
    (processEvent env vehicleId zoneId session event w).forget =
      if h : session.isActive = true then
        if event.isStop = true then (stopSession env session (activeId session h) w).forget
        else .idle session w ()
      else
        match event.startZone zoneId with
        | some z => (startSession env session vehicleId z w).forget
        | none => .idle session w () := by
  cases event with
  | lockChanged isLocked =>
      cases isLocked <;> by_cases h : session.isActive = true <;>
        simp [processEvent, processLockEvent, h, SessionEvent.isStop, SessionEvent.startZone]
  | manualStart z =>
      by_cases h : session.isActive = true <;>
        simp [processEvent, processManualStart, h, SessionEvent.isStop, SessionEvent.startZone]
  | manualStop =>
      by_cases h : session.isActive = true <;>
        simp [processEvent, processManualStop, h, SessionEvent.isStop, SessionEvent.startZone]
  | queryStatus => simp [processEvent, SessionEvent.isStop, SessionEvent.startZone]
  | queryRate => simp [processEvent, SessionEvent.isStop, SessionEvent.startZone]

end ParkingOperatorAdaptor
