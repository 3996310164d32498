/-
**Parking follows the lock.**

The gateway client, the locking service and the parking operator adaptor of a vehicle run side by
side with the data broker, and the adaptor talks to the operator.  The adaptor subscribes to the
lock signal once; a task takes the values and sends them to the channel of the event loop, which the
gRPC server uses as well.

The locking service has published the unlocked state before anything else happens, and nobody else
writes the lock signal.  Handling an event is one step.  The adaptor can read the replies of the
operator, which it cannot if the operator names the fields of its start replies as the mock operator
does.

Main definitions:

* `AutonomousParking.Parking`, `AutonomousParking.ParkingLabel`, `AutonomousParking.Parking.step` —
  the system;
* `AutonomousParking.Parking.Inv` — what holds whatever fails;
* `AutonomousParking.Parking.Follows` — what holds as long as writes take effect and the operator
  answers.

Main results:

* `AutonomousParking.no_parking_without_lock` — **a session is started by a lock command** that came
  with the bearer token, or by hand;
* `AutonomousParking.lock_governs_parking` — **once everything has been taken, the vehicle has a
  session exactly if it is locked.**
-/

import ParkingFeeService.AdaptorAnswered
import ParkingFeeService.LockSignal
import ParkingFeeService.RemoteVehicle

set_option relaxedAutoImplicit false
set_option autoImplicit false

namespace AutonomousParking

open LockingService (TypedValue Handling Locks lockWrites handleCommandPayload signalIsLocked)
open ParkingOperator (Store Uuids newStore)
open ParkingOperatorAdaptor
open RemoteCommand (Vehicle VehicleLabel VehicleJson Authentic)

/-! ### The system -/

/-- The places of the channels. -/
def channelCapacity : ℕ := 32

/-- The boolean of a value; values of other types are dropped from the subscription. -/
def readBool : TypedValue → Option Bool
  | .bool b => some b
  | _ => none

/-- The vehicle, the lock signal with the adaptor's subscription, the adaptor and the operator.
`processed` is a history. -/
structure Parking where
  vehicle : Vehicle
  isLocked : Subscription TypedValue Bool
  /-- The value that the lock forwarder is about to send. -/
  held : Option Bool
  /-- The channel of the event loop. -/
  events : List SessionEvent
  session : Session
  store : Store
  /-- The events that the loop has handled. -/
  processed : List SessionEvent

/-- The system when it starts. -/
def Parking.start : Parking where
  vehicle := .start
  isLocked := .start [.bool false]
  held := none
  events := []
  session := .new
  store := newStore
  processed := []

/-- What can happen next. -/
inductive ParkingLabel
  /-- The client or the locking service takes a step, or a message arrives. -/
  | vehicle (l : VehicleLabel)
  /-- The adaptor subscribes to the lock signal. -/
  | subscribe
  /-- Something happens on the stream of the lock signal. -/
  | stream (m : Subscription.Move)
  /-- The lock forwarder takes a value. -/
  | takeLock
  /-- The lock forwarder sends its value to the event loop. -/
  | sendLock
  /-- The gRPC server sends an event. -/
  | request (event : SessionEvent)
  /-- The event loop handles an event. -/
  | process (n : Network)

/-- The value of a change of the lock state. -/
def lockChange : SessionEvent → Option Bool
  | .lockChanged isLocked => some isLocked
  | _ => none

/-- A write that fails takes effect all the same. -/
def late : VehicleLabel → Bool
  | .locking _ late => late
  | _ => false

variable (json : VehicleJson) (cfg : CloudGatewayClient.Config) (uuids : Uuids)
  (decoding : ReplyDecoding) (vehicleId zoneId : String)

namespace Parking

/-- What the locking service has written to the lock signal since an earlier state. -/
def writes (v before : Vehicle) (late : Bool) : List Bool :=
  (v.loop.handledSince before.loop).flatMap fun g => lockWrites late g.result.calls

/-- The event loop handles the next event. -/
def process (p : Parking) (n : Network) : Option Parking :=
  match p.events with
  | [] => none
  | event :: rest =>
      let effect := processEvent (environment uuids decoding n) vehicleId zoneId p.session event
        p.store
      some { p with
        events := rest
        session := effect.session
        store := effect.world
        processed := p.processed ++ [event] }

/-- An event is sent to the event loop, if there is a place in the channel. -/
def send (p : Parking) (event : SessionEvent) : Option Parking :=
  if p.events.length < channelCapacity then some { p with events := p.events ++ [event] } else none

/-- The system after a step. -/
def step (p : Parking) : ParkingLabel → Option Parking
  | .vehicle l =>
      (p.vehicle.step json cfg l).map fun (v, _) =>
        { p with
          vehicle := v
          isLocked := p.isLocked.publishAll ((writes v p.vehicle (late l)).map .bool) }
  | .subscribe =>
      if p.isLocked.subscriptions = 0 then
        p.isLocked.subscribe.map fun isLocked => { p with isLocked := isLocked }
      else none
  | .stream m =>
      if m = .subscribe then none
      else (p.isLocked.move readBool channelCapacity m).map fun isLocked =>
        { p with isLocked := isLocked }
  | .takeLock =>
      if p.held = none then
        p.isLocked.take.map fun (isLocked, rest) =>
          { p with held := some isLocked, isLocked := rest }
      else none
  | .sendLock =>
      match p.held with
      | none => none
      | some isLocked => ({ p with held := none } : Parking).send (.lockChanged isLocked)
  | .request event => if lockChange event = none then p.send event else none
  | .process n => p.process uuids decoding vehicleId zoneId n

/-! ### Whatever fails -/

/-- The lock signal is `true` only if a lock command was let through; the changes of the lock state
that have reached the event loop, and the one that is about to, are the values taken from the
subscription; and a session was made only for an event that was to start one. -/
structure Inv (p : Parking) : Prop where
  vehicle : p.vehicle.Inv json cfg
  isLocked : p.isLocked.Inv readBool
  once : p.isLocked.subscriptions ≤ 1
  written : .bool true ∈ p.isLocked.published →
    ∃ g ∈ p.vehicle.loop.handled, Locks json.serde g
  events : (p.processed ++ p.events).filterMap lockChange ++ p.held.toList = p.isLocked.received
  created : 0 < p.store.created → ∃ event ∈ p.processed, event.aim = some true

variable {json cfg uuids decoding vehicleId zoneId} {p p' : Parking}

theorem inv_start : Parking.start.Inv json cfg where
  vehicle := Vehicle.inv_start
  isLocked := Subscription.inv_start _
  once := Nat.zero_le _
  written h := by cases List.mem_singleton.1 h
  events := rfl
  created h := absurd h (Nat.lt_irrefl 0)

/-- What a step of the vehicle writes to the lock signal. -/
theorem writes_step {v v' : Vehicle} {l : VehicleLabel} {out : List CloudGatewayClient.Message}
    (hs : v.step json cfg l = some (v', out)) :
    (v'.loop.handled = v.loop.handled ∧ v'.loop.lockState = v.loop.lockState ∧
        writes v' v (late l) = []) ∨
      ∃ b lt n payload, l = .locking (.recv b) lt ∧
        v'.loop.handled = v.loop.handled ++
          [⟨n, payload, handleCommandPayload b json.serde payload v.loop.lockState⟩] ∧
        v'.loop.lockState =
          (handleCommandPayload b json.serde payload v.loop.lockState).lockState ∧
        writes v' v (late l) =
          lockWrites lt (handleCommandPayload b json.serde payload v.loop.lockState).calls := by
  rcases Vehicle.handled_step hs with
    ⟨hhandled, hstate⟩ | ⟨b, lt, n, payload, rfl, hhandled, hstate⟩
  · refine .inl ⟨hhandled, hstate, ?_⟩
    rw [writes, LockingService.MainLoop.handledSince, hhandled, List.drop_length]
    rfl
  · refine .inr ⟨b, lt, n, payload, rfl, hhandled, hstate, ?_⟩
    rw [writes, LockingService.MainLoop.handledSince, hhandled, List.drop_left]
    simp [late]

theorem Inv.vehicle_step {l : VehicleLabel} {v : Vehicle} {out : List CloudGatewayClient.Message}
    (h : p.Inv json cfg) (hs : p.vehicle.step json cfg l = some (v, out)) :
    Parking.Inv json cfg
      { p with
        vehicle := v
        isLocked := p.isLocked.publishAll ((writes v p.vehicle (late l)).map .bool) } := by
  refine ⟨h.vehicle.step hs, h.isLocked.publishAll _, ?_, fun htrue => ?_, ?_, h.created⟩
  · rw [Subscription.subscriptions_publishAll]
    exact h.once
  · rw [Subscription.published_publishAll, List.mem_append] at htrue
    rcases writes_step hs with
      ⟨hhandled, -, hwrites⟩ | ⟨b, lt, n, payload, rfl, hhandled, -, hwrites⟩
    · rw [hwrites] at htrue
      simp only [hhandled]
      exact h.written (htrue.resolve_right (by simp))
    · simp only [hhandled]
      rcases htrue with htrue | htrue
      · obtain ⟨g, hg, hlocks⟩ := h.written htrue
        exact ⟨g, List.mem_append_left _ hg, hlocks⟩
      · rw [hwrites] at htrue
        obtain ⟨value, hvalue, heq⟩ := List.mem_map.1 htrue
        cases heq
        exact ⟨_, List.mem_append_right _ List.mem_cons_self,
          LockingService.locks_of_mem_lockWrites json.serde b hvalue⟩
  · rw [Subscription.received_publishAll]
    exact h.events

theorem Inv.process {n : Network} (h : p.Inv json cfg)
    (hs : p.process uuids decoding vehicleId zoneId n = some p') : p'.Inv json cfg := by
  obtain ⟨hvehicle, hlocked, honce, hwritten, hevents, hcreated⟩ := h
  unfold Parking.process at hs
  split at hs
  · cases hs
  · next event rest hqueue =>
    cases hs
    rw [hqueue] at hevents
    refine ⟨hvehicle, hlocked, honce, hwritten, ?_, fun hmade => ?_⟩
    · rw [List.append_assoc, List.singleton_append]
      exact hevents
    · by_cases haim : event.aim = some true
      · exact ⟨event, List.mem_append_right _ List.mem_cons_self, haim⟩
      · -- nothing was made for this event
        simp only [created_processEvent haim] at hmade
        obtain ⟨e, he, haim'⟩ := hcreated hmade
        exact ⟨e, List.mem_append_left _ he, haim'⟩

theorem Inv.send {event : SessionEvent} (h : p.Inv json cfg) (hevent : lockChange event = none)
    (hs : p.send event = some p') : p'.Inv json cfg := by
  rw [Parking.send, Option.ite_none_right_eq_some] at hs
  cases hs.2
  refine ⟨h.vehicle, h.isLocked, h.once, h.written, ?_, h.created⟩
  rw [← h.events, ← List.append_assoc, List.filterMap_append]
  simp [hevent]

/-- **Every step keeps the invariant.** -/
theorem Inv.step {l : ParkingLabel} (h : p.Inv json cfg)
    (hs : p.step json cfg uuids decoding vehicleId zoneId l = some p') : p'.Inv json cfg := by
  cases l with
  | vehicle l =>
      obtain ⟨⟨v, out⟩, hstep, rfl⟩ := Option.map_eq_some_iff.1 hs
      exact h.vehicle_step hstep
  | subscribe =>
      simp only [Parking.step] at hs
      split at hs
      · next hzero =>
        obtain ⟨isLocked, hsub, rfl⟩ := Option.map_eq_some_iff.1 hs
        obtain ⟨hpublished, hreceived, hcount⟩ := Subscription.subscribe_frame hsub
        refine ⟨h.vehicle, h.isLocked.subscribe hsub, ?_, ?_, ?_, h.created⟩
        · rw [hcount, hzero]
        · rw [hpublished]
          exact h.written
        · rw [hreceived]
          exact h.events
      · cases hs
  | stream m =>
      simp only [Parking.step] at hs
      split at hs
      · cases hs
      · next hm =>
        obtain ⟨isLocked, hmove, rfl⟩ := Option.map_eq_some_iff.1 hs
        obtain ⟨hpublished, hreceived, hcount⟩ := Subscription.move_frame hmove
        refine ⟨h.vehicle, h.isLocked.move hmove, ?_, ?_, ?_, h.created⟩
        · rw [hcount hm]
          exact h.once
        · rw [hpublished]
          exact h.written
        · rw [hreceived]
          exact h.events
  | takeLock =>
      simp only [Parking.step] at hs
      split at hs
      · next hheld =>
        obtain ⟨⟨isLocked, rest⟩, htake, rfl⟩ := Option.map_eq_some_iff.1 hs
        have hrest := h.isLocked.take htake
        obtain ⟨more, -, rfl⟩ := Subscription.take_eq_some_iff.1 htake
        refine ⟨h.vehicle, hrest, h.once, h.written, ?_, h.created⟩
        have hevents := h.events
        rw [hheld, Option.toList_none, List.append_nil] at hevents
        rw [hevents]
        rfl
      · cases hs
  | sendLock =>
      simp only [Parking.step] at hs
      split at hs
      · cases hs
      · next isLocked hheld =>
        rw [Parking.send, Option.ite_none_right_eq_some] at hs
        cases hs.2
        refine ⟨h.vehicle, h.isLocked, h.once, h.written, ?_, h.created⟩
        have hevents := h.events
        rw [hheld] at hevents
        rw [← hevents, ← List.append_assoc, List.filterMap_append]
        simp [lockChange]
  | request event =>
      rw [Parking.step, Option.ite_none_right_eq_some] at hs
      exact h.send hs.1 hs.2
  | process n => exact h.process hs

/-- The invariant holds in every state that is reached. -/
theorem inv_of_reach
    (h : Lts.Reach (Parking.step json cfg uuids decoding vehicleId zoneId) .start p) :
    p.Inv json cfg :=
  h.invariant inv_start fun _ _ _ hp => hp.step

/-- What is written to the lock signal goes back to a lock command that came with the bearer
token. -/
theorem Inv.lock_of_published (h : p.Inv json cfg) (htrue : .bool true ∈ p.isLocked.published) :
    ∃ g ∈ p.vehicle.loop.handled, Locks json.serde g ∧
      ∃ msg ∈ p.vehicle.heard, Authentic json cfg msg g.payload := by
  obtain ⟨g, hg, hlocks⟩ := h.written htrue
  obtain ⟨msg, hmsg, hauthentic⟩ := h.vehicle.authentic hg
  have hheard := (h.vehicle.written.trans (List.sublist_append_left _ _)).trans h.vehicle.heard
  exact ⟨g, hg, hlocks, msg, hheard.subset (List.mem_of_getElem? hmsg), hauthentic⟩

/-- An event that is to start a session was sent by hand, or its value was written to the lock
signal. -/
theorem Inv.published_of_processed {event : SessionEvent} (h : p.Inv json cfg)
    (hevent : event ∈ p.processed) (haim : event.aim = some true) :
    (∃ zone, .manualStart zone ∈ p.processed) ∨ .bool true ∈ p.isLocked.published := by
  cases event with
  | manualStart zone => exact .inl ⟨zone, hevent⟩
  | manualStop | queryStatus | queryRate => cases haim
  | lockChanged isLocked =>
      cases haim
      -- the value was taken from the lock signal, where it had been written
      have hreceived : true ∈ p.isLocked.received := by
        rw [← h.events]
        exact List.mem_append_left _
          (List.mem_filterMap.2 ⟨_, List.mem_append_left _ hevent, rfl⟩)
      have hread := (h.isLocked.received_sublist h.once).subset hreceived
      obtain ⟨value, hvalue, hbool⟩ := List.mem_filterMap.1 hread
      cases value with
      | bool b =>
          cases hbool
          exact .inr hvalue
      | _ => cases hbool

/-! ### As long as nothing fails -/

/-- What the events so far were to do. -/
def wanted (events : List SessionEvent) : Bool :=
  (events.filterMap SessionEvent.aim).getLast?.getD false

/-- A write of the lock signal takes effect: the broker takes it, or it does so all the same. -/
def effective : VehicleLabel → Bool
  | .locking (.recv b) late =>
      late || (b.setBool signalIsLocked true && b.setBool signalIsLocked false)
  | _ => true

/-- Writes of the lock signal take effect, and events are served. -/
def Faultless (p : Parking) : ParkingLabel → Prop
  | .vehicle l => effective l = true
  | .process n => ∀ event ∈ p.events.head?, Served p.session event n
  | .subscribe | .stream _ | .takeLock | .sendLock | .request _ => True

instance : ∀ (p : Parking) (l : ParkingLabel), Decidable (p.Faultless l)
  | _, .vehicle l => inferInstanceAs (Decidable (effective l = true))
  | p, .process n =>
      inferInstanceAs (Decidable (∀ event ∈ p.events.head?, Served p.session event n))
  | _, .subscribe | _, .stream _ | _, .takeLock | _, .sendLock | _, .request _ => .isTrue trivial

/-- The lock signal is the lock state, the adaptor has a session exactly if the events so far were
to have one, and the operator agrees. -/
structure Follows (vehicleId : String) (p : Parking) : Prop where
  signal : p.isLocked.published.getLast? = some (.bool p.vehicle.loop.lockState)
  session : p.session.isActive = wanted p.processed
  agrees : Agrees vehicleId p.session p.store

theorem follows_start : Parking.start.Follows vehicleId where
  signal := rfl
  session := rfl
  agrees := (ParkingOperator.activeFor_newStore vehicleId).trans (activeIds_of_inactive rfl).symm

theorem wanted_concat (events : List SessionEvent) (event : SessionEvent) :
    wanted (events ++ [event]) = event.aim.getD (wanted events) := by
  rw [wanted, List.filterMap_append, List.getLast?_append]
  cases haim : event.aim <;> simp [haim, wanted]

/-- A write that takes effect keeps the signal at the lock state. -/
theorem Follows.vehicle_step {l : VehicleLabel} {v : Vehicle}
    {out : List CloudGatewayClient.Message} (h : p.Follows vehicleId)
    (hl : effective l = true) (hs : p.vehicle.step json cfg l = some (v, out)) :
    Parking.Follows vehicleId
      { p with
        vehicle := v
        isLocked := p.isLocked.publishAll ((writes v p.vehicle (late l)).map .bool) } := by
  refine ⟨?_, h.session, h.agrees⟩
  rw [Subscription.published_publishAll]
  rcases writes_step hs with
    ⟨-, hstate, hwrites⟩ | ⟨b, lt, n, payload, rfl, -, hstate, hwrites⟩
  · rw [hwrites, hstate, List.map_nil, List.append_nil]
    exact h.signal
  · have htaken : lt = true ∨ ∀ value, b.setBool signalIsLocked value = true := by
      rcases Bool.or_eq_true_iff.1 hl with hlate | hboth
      · exact .inl hlate
      · obtain ⟨htrue, hfalse⟩ := Bool.and_eq_true_iff.1 hboth
        exact .inr fun value => by cases value <;> assumption
    rw [hwrites, hstate]
    rcases LockingService.lockWrites_handle_of_effective json.serde b payload
      p.vehicle.loop.lockState htaken with ⟨hsame, hnone⟩ | hone
    · rw [hnone, hsame, List.map_nil, List.append_nil]
      exact h.signal
    · rw [hone, List.map_singleton, List.getLast?_concat]

theorem Follows.process {n : Network} (h : p.Follows vehicleId)
    (hserved : ∀ event ∈ p.events.head?, Served p.session event n)
    (hs : p.process uuids decoding vehicleId zoneId n = some p') : p'.Follows vehicleId := by
  obtain ⟨hsignal, hsession, hagrees⟩ := h
  unfold Parking.process at hs
  split at hs
  · cases hs
  · next event rest hqueue =>
    cases hs
    have hevent : Served p.session event n := by
      refine hserved event ?_
      rw [hqueue]
      rfl
    refine ⟨hsignal, ?_, agrees_of_served uuids decoding zoneId hevent hagrees⟩
    rw [wanted_concat, ← hsession]
    exact isActive_of_served uuids decoding zoneId hevent hagrees

/-- **Every faultless step keeps the session in line with the events.** -/
theorem Follows.step {l : ParkingLabel} (h : p.Follows vehicleId) (hl : p.Faultless l)
    (hs : p.step json cfg uuids decoding vehicleId zoneId l = some p') : p'.Follows vehicleId := by
  cases l with
  | vehicle l =>
      obtain ⟨⟨v, out⟩, hstep, rfl⟩ := Option.map_eq_some_iff.1 hs
      exact h.vehicle_step hl hstep
  | subscribe =>
      simp only [Parking.step] at hs
      split at hs
      · obtain ⟨isLocked, hsub, rfl⟩ := Option.map_eq_some_iff.1 hs
        refine ⟨?_, h.session, h.agrees⟩
        rw [(Subscription.subscribe_frame hsub).1]
        exact h.signal
      · cases hs
  | stream m =>
      simp only [Parking.step] at hs
      split at hs
      · cases hs
      · obtain ⟨isLocked, hmove, rfl⟩ := Option.map_eq_some_iff.1 hs
        refine ⟨?_, h.session, h.agrees⟩
        rw [(Subscription.move_frame hmove).1]
        exact h.signal
  | takeLock =>
      simp only [Parking.step] at hs
      split at hs
      · obtain ⟨⟨isLocked, rest⟩, htake, rfl⟩ := Option.map_eq_some_iff.1 hs
        obtain ⟨more, -, rfl⟩ := Subscription.take_eq_some_iff.1 htake
        exact ⟨h.signal, h.session, h.agrees⟩
      · cases hs
  | sendLock =>
      simp only [Parking.step] at hs
      split at hs
      · cases hs
      · rw [Parking.send, Option.ite_none_right_eq_some] at hs
        cases hs.2
        exact ⟨h.signal, h.session, h.agrees⟩
  | request event =>
      rw [Parking.step, Option.ite_none_right_eq_some, Parking.send,
        Option.ite_none_right_eq_some] at hs
      cases hs.2.2
      exact ⟨h.signal, h.session, h.agrees⟩
  | process n => exact h.process hl hs

/-- Both invariants hold in every state that is reached without a fault. -/
theorem follows_of_reach
    (h : Lts.Reach (Lts.restrict (Parking.step json cfg uuids decoding vehicleId zoneId) Faultless)
      .start p) : p.Inv json cfg ∧ p.Follows vehicleId := by
  refine h.invariant (I := fun p => p.Inv json cfg ∧ p.Follows vehicleId)
    ⟨inv_start, follows_start⟩ ?_
  rintro p l p' ⟨hinv, hfollows⟩ hs
  obtain ⟨hl, hs⟩ := Lts.restrict_eq_some_iff.1 hs
  exact ⟨hinv.step hs, hfollows.step hl hs⟩

/-- Nothing is on its way to the event loop. -/
structure Settled (p : Parking) : Prop where
  wire : p.isLocked.wire = []
  inbox : p.isLocked.inbox = []
  held : p.held = none
  events : p.events = []

/-- How far the event loop is behind. -/
def backlog (p : Parking) : ℕ :=
  4 * p.isLocked.wire.length + 3 * p.isLocked.inbox.length + 2 * p.held.toList.length +
    p.events.length

theorem settled_of_backlog (h : p.backlog = 0) : p.Settled := by
  have hwire : p.isLocked.wire.length = 0 := by unfold backlog at h; omega
  have hinbox : p.isLocked.inbox.length = 0 := by unfold backlog at h; omega
  have hheld : p.held.toList.length = 0 := by unfold backlog at h; omega
  have hevents : p.events.length = 0 := by unfold backlog at h; omega
  refine ⟨List.length_eq_zero_iff.1 hwire, List.length_eq_zero_iff.1 hinbox, ?_,
    List.length_eq_zero_iff.1 hevents⟩
  cases h : p.held with
  | none => rfl
  | some isLocked =>
      rw [h] at hheld
      cases hheld

end Parking

/-! ### A vehicle that is locked -/

open RemoteCommand (demoJson demoConfig lockMessage)

/-- A network on which everything comes through at once. -/
def prompt : Network where
  attempts _ := .delivered
  timestamp := 1700000000
  startTime := 1700000000
  published := .ok ()

/-- A lock command is carried out. -/
def lockedRun : List ParkingLabel :=
  [.vehicle .subscribeResponses, .vehicle .subscribeCommands, .subscribe,
    .vehicle (.hear lockMessage), .vehicle (.command true), .vehicle (.locking .forward false),
    .vehicle (.locking (.recv (LockingService.standing false)) false)]

/-- The adaptor takes the value of the lock signal. -/
def followRun : List ParkingLabel := [.stream .forward, .takeLock, .sendLock, .process prompt]

/-- The system of the demo vehicle. -/
def demoStep : Parking → ParkingLabel → Option Parking :=
  Parking.step demoJson demoConfig unaryUuids readReplies "DEMO-VIN-001" "zone-demo-1"

/-- The value at the subscription is taken, and then that of the lock command. -/
theorem exists_parkedRun :
    ∃ p, Lts.run (Lts.restrict demoStep Parking.Faultless) .start
        (lockedRun ++ followRun ++ followRun) = some p ∧
      p.processed = [.lockChanged false, .lockChanged true] ∧ p.isLocked.connected = true ∧
      p.vehicle.loop.lockState = true ∧ p.backlog = 0 ∧ p.store.created = 1 := by
  have hrun : (Lts.run (Lts.restrict demoStep Parking.Faultless) .start
      (lockedRun ++ followRun ++ followRun)).map (fun p =>
        (p.processed, p.isLocked.connected, p.vehicle.loop.lockState, p.backlog,
          p.store.created)) =
      some ([.lockChanged false, .lockChanged true], true, true, 0, 1) := by
    decide +kernel
  obtain ⟨p, hp, hfinal⟩ := Option.map_eq_some_iff.1 hrun
  simp only [Prod.mk.injEq] at hfinal
  exact ⟨p, hp, hfinal⟩

variable {json cfg uuids decoding vehicleId zoneId} {p : Parking}

/-- **No parking without a lock command.**  If the operator has ever made a session, and nobody has
asked for one by hand, the locking service has let a lock command through, and it came in a message
with the bearer token. -/
theorem no_parking_without_lock
    (h : Lts.Reach (Parking.step json cfg uuids decoding vehicleId zoneId) .start p)
    (hmanual : ∀ zone, .manualStart zone ∉ p.processed) (hmade : 0 < p.store.created) :
    ∃ g ∈ p.vehicle.loop.handled, Locks json.serde g ∧
      ∃ msg ∈ p.vehicle.heard, Authentic json cfg msg g.payload := by
  have hp := Parking.inv_of_reach h
  obtain ⟨event, hevent, haim⟩ := hp.created hmade
  rcases hp.published_of_processed hevent haim with ⟨zone, hzone⟩ | htrue
  · exact absurd hzone (hmanual zone)
  · exact hp.lock_of_published htrue

theorem no_parking_without_lock_parked :
    ∃ p, Lts.run (Lts.restrict demoStep Parking.Faultless) .start
        (lockedRun ++ followRun ++ followRun) = some p ∧ 0 < p.store.created ∧
      ∃ g ∈ p.vehicle.loop.handled, Locks demoJson.serde g ∧
        ∃ msg ∈ p.vehicle.heard, Authentic demoJson demoConfig msg g.payload := by
  obtain ⟨p, hp, hprocessed, -, -, -, hcreated⟩ := exists_parkedRun
  have hreach : Lts.Reach demoStep .start p := (Lts.reach_of_run hp).of_restrict
  have hmade : 0 < p.store.created := by omega
  refine ⟨p, hp, hmade, no_parking_without_lock hreach (fun zone hzone => ?_) hmade⟩
  rw [hprocessed] at hzone
  simp at hzone

/-- The vehicle has a session exactly if it is locked, and it is the only one at the operator. -/
structure Governed (vehicleId : String) (p : Parking) : Prop where
  session : p.session.isActive = p.vehicle.loop.lockState
  locked : p.vehicle.loop.lockState = true → ∃ id, p.store.activeFor vehicleId = {id}
  unlocked : p.vehicle.loop.lockState = false → p.store.activeFor vehicleId = ∅

theorem governed_of_settled (hinv : p.Inv json cfg) (hfollows : p.Follows vehicleId)
    (hup : p.isLocked.connected = true) (hsettled : p.Settled)
    (hlast : (p.processed.filterMap SessionEvent.aim).getLast? =
      (p.processed.filterMap lockChange).getLast?) : Governed vehicleId p := by
  have hreceived : p.isLocked.received = p.processed.filterMap lockChange := by
    rw [← hinv.events, hsettled.events, hsettled.held]
    simp
  have hcurrent : p.isLocked.received.getLast? = some p.vehicle.loop.lockState :=
    hinv.isLocked.last_received hup hsettled.wire hsettled.inbox hfollows.signal rfl
  have hactive : p.session.isActive = p.vehicle.loop.lockState := by
    rw [hfollows.session, Parking.wanted, hlast, ← hreceived, hcurrent]
    rfl
  have hagrees : p.store.activeFor vehicleId = p.session.activeIds := hfollows.agrees
  refine ⟨hactive, fun hlocked => ?_, fun hunlocked => ?_⟩
  · exact ⟨_, hagrees.trans (activeIds_of_active (hactive.trans hlocked))⟩
  · exact hagrees.trans (activeIds_of_inactive (hactive.trans hunlocked))

/-- **Parking follows the lock.**  In every run in which writes of the lock signal take effect and
events are served, by an operator whose replies can be read, once everything that the broker has
sent on a stream that is up has been handled, the vehicle has a session exactly if it is locked, and
it is the only one at the operator; unless something else was asked for by hand since the lock state
has changed. -/
theorem lock_governs_parking
    (h : Lts.Reach (Lts.restrict (Parking.step json cfg uuids decoding vehicleId zoneId)
      Parking.Faultless) .start p)
    (hup : p.isLocked.connected = true) (hsettled : p.Settled)
    (hlast : (p.processed.filterMap SessionEvent.aim).getLast? =
      (p.processed.filterMap lockChange).getLast?) : Governed vehicleId p := by
  obtain ⟨hinv, hfollows⟩ := Parking.follows_of_reach h
  exact governed_of_settled hinv hfollows hup hsettled hlast

theorem lock_governs_parking_parked :
    ∃ p, Lts.run (Lts.restrict demoStep Parking.Faultless) .start
        (lockedRun ++ followRun ++ followRun) = some p ∧ p.vehicle.loop.lockState = true ∧
      Governed "DEMO-VIN-001" p := by
  obtain ⟨p, hp, hprocessed, hup, hlocked, hbacklog, -⟩ := exists_parkedRun
  refine ⟨p, hp, hlocked, lock_governs_parking (Lts.reach_of_run hp) hup
    (Parking.settled_of_backlog hbacklog) ?_⟩
  rw [hprocessed]
  rfl

/-! ### Catching up -/

end AutonomousParking
