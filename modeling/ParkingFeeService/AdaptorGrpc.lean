/-
**The gRPC server of the parking operator adaptor.**

Every call is a task of its own that sends an event to the one event loop and waits for the reply;
lock events come into the same channel.  A call of `StartSession` sends two events: when the manual
start has succeeded it asks for the status, from which its reply is made.  Between the two the loop
handles whatever else is in the channel.

Each event is handled in an environment of its own, so that the operator and the broker may answer
in any way at any time.

Main definitions:

* `ParkingOperatorAdaptor.Rpc`, `ParkingOperatorAdaptor.Phase` — the calls and where they are;
* `ParkingOperatorAdaptor.Server`, `ParkingOperatorAdaptor.Server.step` — the calls, the channel and
  the loop;
* `ParkingOperatorAdaptor.Server.Moves` — the steps as a relation.

Main results:

* `ParkingOperatorAdaptor.moves_of_step` — how every proof about a step starts;
* `ParkingOperatorAdaptor.steps_log` — what is handled is a run of the event loop.
-/

import ParkingFeeService.AdaptorEventLoop
import ParkingFeeService.Lts
import ParkingFeeService.Pool

set_option relaxedAutoImplicit false
set_option autoImplicit false

namespace ParkingOperatorAdaptor

variable {W : Type}

/-! ### Calls and replies -/

/-- A call to the gRPC server. -/
inductive Rpc
  | startSession (zoneId : String)
  | stopSession
  | getStatus
  | getRate
  deriving DecidableEq

/-- The event a call sends first. -/
def Rpc.event : Rpc → SessionEvent
  | .startSession zoneId => .manualStart zoneId
  | .stopSession => .manualStop
  | .getStatus => .queryStatus
  | .getRate => .queryRate

/-- The message `SessionStatus`. -/
structure SessionStatus where
  sessionId : String
  active : Bool
  startTime : Int64
  zoneId : String
  deriving DecidableEq

/-- The message `ParkingRate`. -/
structure ParkingRate where
  operatorId : String
  rateType : String
  amount : F64
  currency : String
  deriving DecidableEq

/-- The content of a successful response. -/
inductive RpcResponse
  | session (status : SessionStatus)
  | rate (rate : ParkingRate)
  deriving DecidableEq

/-- The status of a call that fails. -/
inductive RpcError
  | alreadyExists (msg : String)
  | failedPrecondition (msg : String)
  | unavailable (msg : String)
  | internal (msg : String)
  deriving DecidableEq

/-- The status of a manual command that fails. -/
def ManualError.status : ManualError → RpcError
  | .alreadyExists id => .alreadyExists ("session already active: " ++ id)
  | .failedPrecondition => .failedPrecondition "no active session"
  | .operatorUnavailable msg => .unavailable msg

/-- The reply to `StartSession`, from that of the operator and the status asked for afterwards. -/
def startStatus (zoneId : String) (resp : StartResponse) : Option SessionState → SessionStatus
  | some s => ⟨s.sessionId, s.active, s.startTime, s.zoneId⟩
  | none => ⟨resp.sessionId, true, 0, zoneId⟩

/-- The reply to `GetStatus`. -/
def statusReply : Option SessionState → SessionStatus
  | some s => ⟨s.sessionId, s.active, s.startTime, s.zoneId⟩
  | none => ⟨"", false, 0, ""⟩

/-- The reply to `GetRate`. -/
def rateReply : Option Rate → ParkingRate
  | some r => ⟨"", r.rateType, r.amount, r.currency⟩
  | none => ⟨"", "", .round .binary64 false 0 0, ""⟩

/-- The response of a call that the first reply of the loop ends. -/
def Rpc.response : Rpc → Reply → Except RpcError RpcResponse
  | .startSession _, .manualStart (.error e) => .error e.status
  | .stopSession, .manualStop (.ok resp) => .ok (.session ⟨resp.sessionId, false, 0, ""⟩)
  | .stopSession, .manualStop (.error e) => .error e.status
  | .getStatus, .status state => .ok (.session (statusReply state))
  | .getRate, .rate r => .ok (.rate (rateReply r))
  -- the reply channel of an event carries only replies of its kind
  | _, _ => .error (.internal "event loop dropped reply")

/-- Where a call is. -/
inductive Phase
  /-- about to send its event -/
  | sending
  /-- waiting for the reply -/
  | waiting
  /-- the reply has come -/
  | answered (reply : Reply)
  /-- a start that has succeeded, about to ask for the status -/
  | sendingStatus (resp : StartResponse)
  /-- waiting for the status -/
  | waitingStatus (resp : StartResponse)
  /-- the status has come -/
  | answeredStatus (resp : StartResponse) (reply : Reply)
  /-- the response has been returned -/
  | finished (response : Except RpcError RpcResponse)
  /-- the client has gone -/
  | cancelled

/-- A call and where it is. -/
structure RpcCall where
  rpc : Rpc
  phase : Phase

/-- The code of a call from a reply to the next await point. -/
def RpcCall.resume : RpcCall → Option Phase
  | ⟨.startSession _, .answered (.manualStart (.ok resp))⟩ => some (.sendingStatus resp)
  | ⟨rpc, .answered reply⟩ => some (.finished (rpc.response reply))
  | ⟨.startSession zoneId, .answeredStatus resp (.status state)⟩ =>
      some (.finished (.ok (.session (startStatus zoneId resp state))))
  | _ => none

/-! ### The server -/

/-- Which of its two reply channels a call has put into a message. -/
inductive Round
  | first
  | status
  deriving DecidableEq

/-- An event in the channel, with the call and the reply channel it is from; a lock event has
none. -/
structure Message where
  event : SessionEvent
  reply : Option (ℕ × Round)
  deriving DecidableEq

/-- An event that has been handled, with the call it was from. -/
structure Handled (W : Type) where
  sender : Option ℕ
  step : Step W

/-- The capacity of the event channel. -/
def eventChannelCapacity : ℕ := 32

/-- The state of the adaptor: the session and the world, the event channel, the event taken out of
it, the calls, and all that has been handled. -/
structure Server (W : Type) where
  session : Session
  world : W
  queue : List Message
  busy : Option Message
  calls : List RpcCall
  log : List (Handled W)

/-- An adaptor that has just started. -/
def Server.init (w₀ : W) : Server W := ⟨.new, w₀, [], none, [], []⟩

/-- The labels of the steps. -/
inductive Action (W : Type)
  /-- a call arrives -/
  | call (rpc : Rpc)
  /-- the lock forwarder sends an event -/
  | lockChanged (isLocked : Bool)
  /-- a call sends the event it is about to send -/
  | send (i : ℕ)
  /-- the loop takes an event out of the channel -/
  | recv
  /-- the loop has handled the event, in an environment -/
  | finish (env : Environment W)
  /-- a call goes on with the reply that has come -/
  | resume (i : ℕ)
  /-- the client of a call goes away -/
  | cancel (i : ℕ)

/-- An event gets into the channel if there is room. -/
def Server.enqueue (s : Server W) (m : Message) : Option (Server W) :=
  if s.queue.length < eventChannelCapacity then some { s with queue := s.queue ++ [m] } else none

/-- A call moves to another phase. -/
def Server.move (s : Server W) (i : ℕ) (phase : Phase) : Server W :=
  { s with calls := s.calls.modify i fun c => { c with phase := phase } }

/-- A reply gets to a call that still waits for it. -/
def RpcCall.receive (round : Round) (reply : Reply) (c : RpcCall) : RpcCall :=
  match round, c.phase with
  | .first, .waiting => { c with phase := .answered reply }
  | .status, .waitingStatus resp => { c with phase := .answeredStatus resp reply }
  | _, _ => c

/-- The reply to an event gets to the call it is from. -/
def deliver (calls : List RpcCall) (m : Message) (reply : Option Reply) : List RpcCall :=
  match m.reply, reply with
  | some (i, round), some r => calls.modify i (RpcCall.receive round r)
  | _, _ => calls

/-- The loop handles an event. -/
def Server.handle (vehicleId zoneId : String) (s : Server W) (m : Message) (env : Environment W) :
    Server W :=
  let effect := processEvent env vehicleId zoneId s.session m.event s.world
  { s with
    session := effect.session
    world := effect.world
    busy := none
    calls := deliver s.calls m effect.result
    log := s.log ++ [⟨m.reply.map Prod.fst, ⟨m.event, env, s.session, s.world, effect⟩⟩] }

/-- One step. -/
def Server.step (vehicleId zoneId : String) (s : Server W) : Action W → Option (Server W)
  | .call rpc => some { s with calls := s.calls ++ [⟨rpc, .sending⟩] }
  | .lockChanged isLocked => s.enqueue ⟨.lockChanged isLocked, none⟩
  | .send i =>
      match s.calls[i]? with
      | some ⟨rpc, .sending⟩ =>
          (s.enqueue ⟨rpc.event, some (i, .first)⟩).map fun s => s.move i .waiting
      | some ⟨_, .sendingStatus resp⟩ =>
          (s.enqueue ⟨.queryStatus, some (i, .status)⟩).map fun s =>
            s.move i (.waitingStatus resp)
      | _ => none
  | .recv =>
      match s.busy, s.queue with
      | none, m :: queue => some { s with busy := some m, queue := queue }
      | _, _ => none
  | .finish env => s.busy.map fun m => s.handle vehicleId zoneId m env
  | .resume i => (s.calls[i]?).bind fun c => c.resume.map fun phase => s.move i phase
  | .cancel i => (s.calls[i]?).map fun _ => s.move i .cancelled

/-- The steps, one constructor for every thing that can happen. -/
inductive Server.Moves (vehicleId zoneId : String) (s : Server W) : Action W → Server W → Prop
  | call (rpc : Rpc) :
      Moves vehicleId zoneId s (.call rpc) { s with calls := s.calls ++ [⟨rpc, .sending⟩] }
  | lockChanged (isLocked : Bool) :
      Moves vehicleId zoneId s (.lockChanged isLocked)
        { s with queue := s.queue ++ [⟨.lockChanged isLocked, none⟩] }
  | send (i : ℕ) (rpc : Rpc) (hc : s.calls[i]? = some ⟨rpc, .sending⟩) :
      Moves vehicleId zoneId s (.send i)
        (Server.move { s with queue := s.queue ++ [⟨rpc.event, some (i, .first)⟩] } i .waiting)
  | sendStatus (i : ℕ) (rpc : Rpc) (resp : StartResponse)
      (hc : s.calls[i]? = some ⟨rpc, .sendingStatus resp⟩) :
      Moves vehicleId zoneId s (.send i)
        (Server.move { s with queue := s.queue ++ [⟨.queryStatus, some (i, .status)⟩] } i
          (.waitingStatus resp))
  | recv (m : Message) (queue : List Message) (hb : s.busy = none) (hq : s.queue = m :: queue) :
      Moves vehicleId zoneId s .recv { s with busy := some m, queue := queue }
  | finish (env : Environment W) (m : Message) (hb : s.busy = some m) :
      Moves vehicleId zoneId s (.finish env) (s.handle vehicleId zoneId m env)
  | resume (i : ℕ) (c : RpcCall) (phase : Phase) (hc : s.calls[i]? = some c)
      (hr : c.resume = some phase) : Moves vehicleId zoneId s (.resume i) (s.move i phase)
  | cancel (i : ℕ) : Moves vehicleId zoneId s (.cancel i) (s.move i .cancelled)

/-- What a step does; that it got into the channel only if there was room is left out. -/
theorem moves_of_step {vehicleId zoneId : String} {s s' : Server W} {a : Action W}
    (h : s.step vehicleId zoneId a = some s') : s.Moves vehicleId zoneId a s' := by
  cases a with
  | call rpc =>
      cases h
      exact .call rpc
  | lockChanged isLocked =>
      obtain ⟨-, heq⟩ := Option.ite_none_right_eq_some.1 h
      cases heq
      exact .lockChanged isLocked
  | send i =>
      rw [Server.step] at h
      split at h
      · next rpc hc =>
          obtain ⟨s₁, hs₁, rfl⟩ := Option.map_eq_some_iff.1 h
          obtain ⟨-, heq⟩ := Option.ite_none_right_eq_some.1 hs₁
          cases heq
          exact .send i rpc hc
      · next rpc resp hc =>
          obtain ⟨s₁, hs₁, rfl⟩ := Option.map_eq_some_iff.1 h
          obtain ⟨-, heq⟩ := Option.ite_none_right_eq_some.1 hs₁
          cases heq
          exact .sendStatus i rpc resp hc
      · cases h
  | recv =>
      rw [Server.step] at h
      split at h
      · next m queue hb hq =>
          cases h
          exact .recv m queue hb hq
      · cases h
  | finish env =>
      obtain ⟨m, hb, rfl⟩ := Option.map_eq_some_iff.1 h
      exact .finish env m hb
  | resume i =>
      obtain ⟨c, hc, h⟩ := Option.bind_eq_some_iff.1 h
      obtain ⟨phase, hr, rfl⟩ := Option.map_eq_some_iff.1 h
      exact .resume i c phase hc hr
  | cancel i =>
      obtain ⟨c, -, rfl⟩ := Option.map_eq_some_iff.1 h
      exact .cancel i

/-! ### The log is a run of the event loop -/

/-- The session and the world after a run of the loop. -/
def afterSteps (session : Session) (w : W) : List (Step W) → Session × W
  | [] => (session, w)
  | st :: steps => afterSteps st.effect.session st.effect.world steps

theorem runEventLoop_concat (vehicleId zoneId : String) (event : SessionEvent)
    (env : Environment W) (events : List (SessionEvent × Environment W)) :
    ∀ {session : Session} {w : W} {s : Session × W},
      afterSteps session w (runEventLoop vehicleId zoneId session w events) = s →
      runEventLoop vehicleId zoneId session w (events ++ [(event, env)]) =
        runEventLoop vehicleId zoneId session w events ++
          [⟨event, env, s.1, s.2, processEvent env vehicleId zoneId s.1 event s.2⟩] := by
  induction events with
  | nil =>
      intro session w s hs
      cases hs
      rfl
  | cons e events ih =>
      intro session w s hs
      rw [List.cons_append, runEventLoop, runEventLoop, ih hs]
      rfl

theorem afterSteps_concat (st : Step W) (steps : List (Step W)) :
    ∀ {session : Session} {w : W},
      afterSteps session w (steps ++ [st]) = (st.effect.session, st.effect.world) := by
  induction steps with
  | nil => intro session w; rfl
  | cons st' steps ih => intro session w; exact ih

/-- The events handled so far, each with its environment. -/
def Server.events (s : Server W) : List (SessionEvent × Environment W) :=
  s.log.map fun h => (h.step.event, h.step.env)

/-- The log is that of a run of the event loop, which has led to the session and the world. -/
def Logged (vehicleId zoneId : String) (w₀ : W) (s : Server W) : Prop :=
  s.log.map Handled.step = runEventLoop vehicleId zoneId .new w₀ s.events ∧
    afterSteps .new w₀ (s.log.map Handled.step) = (s.session, s.world)

theorem Logged.step {vehicleId zoneId : String} {w₀ : W} {s s' : Server W} {a : Action W}
    (h : Logged vehicleId zoneId w₀ s) (hstep : s.step vehicleId zoneId a = some s') :
    Logged vehicleId zoneId w₀ s' := by
  cases moves_of_step hstep with
  | finish env m _ =>
      obtain ⟨hrun, hafter⟩ := h
      refine ⟨?_, ?_⟩
      · simp only [Server.events, Server.handle, List.map_append, List.map_cons, List.map_nil]
        rw [runEventLoop_concat vehicleId zoneId m.event env _ (hrun ▸ hafter), hrun]
        rfl
      · simp only [Server.handle, List.map_append, List.map_cons, List.map_nil]
        exact afterSteps_concat _ _
  | call | lockChanged | send | sendStatus | recv | resume | cancel => exact h

/-- **The events handled are a run of the event loop.** -/
theorem steps_log {vehicleId zoneId : String} {w₀ : W} {s : Server W}
    (h : Lts.Reach (Server.step vehicleId zoneId) (Server.init w₀) s) :
    s.log.map Handled.step = runEventLoop vehicleId zoneId .new w₀ s.events :=
  (h.invariant (I := Logged vehicleId zoneId w₀) ⟨rfl, rfl⟩
    fun _ _ _ hs hstep => hs.step hstep).1

end ParkingOperatorAdaptor
