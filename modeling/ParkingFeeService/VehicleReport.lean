/-
**What the cloud is told.**

The telemetry of the vehicle runs beside the locking service and the parking operator adaptor, which
write the lock signal and the session flag.  The position is written by others.

A message says that the vehicle is locked, or has a session, only because of a lock command that
came with the bearer token, or because a session was started by hand.  As long as writes take effect
and events are served, by an operator whose replies the adaptor can read, once the client has taken
everything the last message tells how it is.

Main definitions:

* `AutonomousParking.flagWrites` — the values that publications of the session flag leave in the
  broker;
* `AutonomousParking.Reporting`, `AutonomousParking.Reporting.step` — the system;
* `AutonomousParking.Reporting.Inv`, `AutonomousParking.Reporting.Tells` — the invariants.

Main results:

* `AutonomousParking.no_report_without_lock` — **what the messages owe to lock commands;**
* `AutonomousParking.report_is_current` — **the last message tells how it is.**
-/

import ParkingFeeService.AdaptorSessionActive
import ParkingFeeService.AutonomousParking
import ParkingFeeService.VehicleTelemetry

set_option relaxedAutoImplicit false
set_option autoImplicit false

namespace AutonomousParking

open CloudGatewayClient (Telemetry TelemetryLabel TelemetryLoop TelemetryState signalParkingActive
  telemetrySignals)
open LockingService (TypedValue Locks)
open ParkingOperator (Uuids)
open ParkingOperatorAdaptor
open RemoteCommand (VehicleJson Authentic)

/-! ### The session flag -/

/-- The value that an attempt to publish the flag leaves in the broker.  One that fails may take
effect all the same. -/
def flagWrite (late : Bool) (a : Attempt) : Option Bool :=
  match a.result with
  | .ok _ => some a.value
  | .error _ => if late then some a.value else none

/-- The values that calls leave in the broker. -/
def flagWrites (late : Bool) (calls : List Call) : List Bool :=
  (published calls).filterMap (flagWrite late)

theorem flagWrites_subset (late : Bool) (calls : List Call) :
    flagWrites late calls ⊆ (published calls).map Attempt.value := by
  intro b hb
  obtain ⟨a, ha, hvalue⟩ := List.mem_filterMap.1 hb
  refine List.mem_map.2 ⟨a, ha, ?_⟩
  rw [flagWrite] at hvalue
  split at hvalue
  · exact Option.some.inj hvalue
  · exact Option.some.inj (Option.ite_none_right_eq_some.1 hvalue).2

/-- All attempts leave their value, if the broker takes them or they take effect all the same. -/
theorem flagWrites_eq {late : Bool} {calls : List Call}
    (h : ∀ a ∈ published calls, (flagWrite late a) = some a.value) :
    flagWrites late calls = (published calls).map Attempt.value := by
  rw [flagWrites, ← List.filterMap_eq_map]
  exact List.filterMap_congr h

/-- Every publication of an event ends as the broker has it. -/
theorem result_of_mem_published {W : Type} {env : Environment W} {r : Except String Unit}
    (henv : ∀ signal value w, (env.broker.setBool signal value w).1 = r) (vehicleId zoneId : String)
    (session : Session) (event : SessionEvent) (w : W) :
    ∀ a ∈ published (processEvent env vehicleId zoneId session event w).calls, a.result = r := by
  intro a ha
  rcases processEvent_cases env vehicleId zoneId session event w with
    hidle | ⟨z, -, -, hstart⟩ | ⟨hactive, -, hstop⟩
  · rw [(session_calls_of_forget (f := .idle session w ()) hidle).2] at ha
    cases ha
  · rw [(session_calls_of_forget hstart).2, startSession] at ha
    rcases hop : env.operator.startSession vehicleId z w with ⟨_ | resp, w₁⟩
    · rw [hop] at ha
      cases ha
    · rw [hop] at ha
      cases List.mem_singleton.1 ha
      exact henv _ _ _
  · rw [(session_calls_of_forget hstop).2, stopSession] at ha
    rcases hop : env.operator.stopSession (activeId session hactive) w with ⟨_ | resp, w₁⟩
    · rw [hop] at ha
      cases ha
    · rw [hop] at ha
      cases List.mem_singleton.1 ha
      exact henv _ _ _

/-- An event publishes `true` only if it is to start a session. -/
theorem aim_of_mem_published {W : Type} {env : Environment W} {vehicleId zoneId : String}
    {session : Session} {event : SessionEvent} {w : W}
    (h : true ∈ (published (processEvent env vehicleId zoneId session event w).calls).map
      Attempt.value) : event.aim = some true := by
  rw [values_published_processEvent] at h
  split at h
  · cases h
  · next hchanged =>
    have hactive := (List.mem_singleton.1 h).symm
    rcases processEvent_cases env vehicleId zoneId session event w with
      hidle | ⟨z, -, hzone, -⟩ | ⟨hon, -, -⟩
    · rw [(session_calls_of_forget (f := .idle session w ()) hidle).1] at hchanged
      exact absurd rfl hchanged
    · exact (isSome_startZone_iff zoneId).1 (by rw [hzone]; rfl)
    · rw [hactive, hon] at hchanged
      exact absurd rfl hchanged

/-! ### The system -/

variable (json : VehicleJson) (cfg : CloudGatewayClient.Config) (uuids : Uuids)
  (decoding : ReplyDecoding) (vehicleId zoneId : String) (c : FloatText)

/-- What a step of the adaptor writes to the session flag. -/
def Parking.flags (p : Parking) (l : ParkingLabel) (late : Bool) : List Bool :=
  match l, p.events with
  | .process n, event :: _ =>
      flagWrites late (processEvent (environment uuids decoding n) vehicleId zoneId p.session event
        p.store).calls
  | _, _ => []

/-- The vehicle with its telemetry. -/
structure Reporting where
  parking : Parking
  telemetry : Telemetry

/-- The system when it starts, with the vehicle unlocked and without a session. -/
def Reporting.start : Reporting where
  parking := .start
  telemetry := .start cfg.vin
    [(CloudGatewayClient.signalIsLocked, .bool false), (signalParkingActive, .bool false)]

/-- What can happen next. -/
inductive ReportingLabel
  /-- A step of the vehicle; a publication of the session flag that fails takes effect all the same,
  or does not. -/
  | parking (l : ParkingLabel) (late : Bool)
  /-- A step of the telemetry, or a value of another signal. -/
  | telemetry (l : TelemetryLabel)

/-- A value of a signal that the vehicle's services write. -/
def isOwn : TelemetryLabel → Bool
  | .publish path _ => path = CloudGatewayClient.signalIsLocked ∨ path = signalParkingActive
  | _ => false

/-- The entries that a step of the vehicle writes. -/
def written (p p' : Parking) (flags : List Bool) : List (String × TypedValue) :=
  ((p'.isLocked.published.drop p.isLocked.published.length).map fun v =>
      (CloudGatewayClient.signalIsLocked, v)) ++
    flags.map fun b => (signalParkingActive, .bool b)

namespace Reporting

/-- The system after a step. -/
def step (r : Reporting) : ReportingLabel → Option Reporting
  | .parking l late =>
      (r.parking.step json cfg uuids decoding vehicleId zoneId l).map fun p =>
        { parking := p
          telemetry := r.telemetry.publishAll
            (written r.parking p (r.parking.flags uuids decoding vehicleId zoneId l late)) }
  | .telemetry l =>
      if isOwn l then none
      else (r.telemetry.step c l).map fun t => { r with telemetry := t }

end Reporting

/-! ### What a step of the vehicle writes -/

variable {json cfg uuids decoding vehicleId zoneId c} {p p' : Parking} {r r' : Reporting}

/-- The lock signal only grows. -/
theorem published_prefix_step {l : ParkingLabel}
    (hs : p.step json cfg uuids decoding vehicleId zoneId l = some p') :
    p.isLocked.published <+: p'.isLocked.published := by
  cases l with
  | vehicle l =>
      obtain ⟨⟨v, out⟩, -, rfl⟩ := Option.map_eq_some_iff.1 hs
      rw [Subscription.published_publishAll]
      exact List.prefix_append _ _
  | subscribe =>
      obtain ⟨-, hs⟩ := Option.ite_none_right_eq_some.1 hs
      obtain ⟨isLocked, hsub, rfl⟩ := Option.map_eq_some_iff.1 hs
      exact (Subscription.subscribe_frame hsub).1 ▸ List.prefix_refl _
  | stream m =>
      obtain ⟨-, hs⟩ := Option.ite_none_left_eq_some.1 hs
      obtain ⟨isLocked, hmove, rfl⟩ := Option.map_eq_some_iff.1 hs
      exact (Subscription.move_frame hmove).1 ▸ List.prefix_refl _
  | takeLock =>
      obtain ⟨-, hs⟩ := Option.ite_none_right_eq_some.1 hs
      obtain ⟨⟨isLocked, rest⟩, htake, rfl⟩ := Option.map_eq_some_iff.1 hs
      obtain ⟨more, -, rfl⟩ := Subscription.take_eq_some_iff.1 htake
      exact List.prefix_refl _
  | sendLock =>
      simp only [Parking.step] at hs
      split at hs
      · cases hs
      · rw [Parking.send, Option.ite_none_right_eq_some] at hs
        cases hs.2
        exact List.prefix_refl _
  | request event =>
      rw [Parking.step, Option.ite_none_right_eq_some, Parking.send,
        Option.ite_none_right_eq_some] at hs
      cases hs.2.2
      exact List.prefix_refl _
  | process n =>
      simp only [Parking.step, Parking.process] at hs
      split at hs
      · cases hs
      · cases hs
        exact List.prefix_refl _

/-- The entries of the lock signal that a step writes are its new values. -/
theorem latest_written_isLocked {l : ParkingLabel} (flags : List Bool)
    (hs : p.step json cfg uuids decoding vehicleId zoneId l = some p')
    {es : List (String × TypedValue)}
    (h : Feed.latest CloudGatewayClient.signalIsLocked es = p.isLocked.published.getLast?) :
    Feed.latest CloudGatewayClient.signalIsLocked (es ++ written p p' flags) =
      p'.isLocked.published.getLast? := by
  obtain ⟨vs, hvs⟩ := published_prefix_step hs
  rw [written, ← hvs, List.drop_left, Feed.latest_append, Feed.latest_append, Feed.latest_map,
    Feed.latest_map, if_pos rfl, if_neg CloudGatewayClient.signalParkingActive_ne, Option.none_or,
    Option.map_id', h, List.getLast?_append]

theorem latest_written_active (vs : List TypedValue) (flags : List Bool)
    (es : List (String × TypedValue)) :
    Feed.latest signalParkingActive (es ++
        ((vs.map fun v => (CloudGatewayClient.signalIsLocked, v)) ++
          flags.map fun b => (signalParkingActive, TypedValue.bool b))) =
      (flags.getLast?.map TypedValue.bool).or (Feed.latest signalParkingActive es) := by
  rw [Feed.latest_append, Feed.latest_append, Feed.latest_map, Feed.latest_map, if_pos rfl,
    if_neg CloudGatewayClient.signalParkingActive_ne.symm, Option.or_none]

/-- What a step of the vehicle does to the session and to its flag: nothing, or what the event that
is handled does. -/
theorem flags_step {l : ParkingLabel} (late : Bool)
    (hs : p.step json cfg uuids decoding vehicleId zoneId l = some p') :
    (p'.processed = p.processed ∧ p'.session = p.session ∧
        p.flags uuids decoding vehicleId zoneId l late = []) ∨
      ∃ n event, l = .process n ∧ p'.processed = p.processed ++ [event] ∧
        p'.session = (processEvent (environment uuids decoding n) vehicleId zoneId p.session event
          p.store).session ∧
        p.flags uuids decoding vehicleId zoneId l late =
          flagWrites late (processEvent (environment uuids decoding n) vehicleId zoneId p.session
            event p.store).calls := by
  cases l with
  | vehicle l =>
      obtain ⟨⟨v, out⟩, -, rfl⟩ := Option.map_eq_some_iff.1 hs
      exact .inl ⟨rfl, rfl, rfl⟩
  | subscribe =>
      obtain ⟨-, hs⟩ := Option.ite_none_right_eq_some.1 hs
      obtain ⟨isLocked, -, rfl⟩ := Option.map_eq_some_iff.1 hs
      exact .inl ⟨rfl, rfl, rfl⟩
  | stream m =>
      obtain ⟨-, hs⟩ := Option.ite_none_left_eq_some.1 hs
      obtain ⟨isLocked, -, rfl⟩ := Option.map_eq_some_iff.1 hs
      exact .inl ⟨rfl, rfl, rfl⟩
  | takeLock =>
      obtain ⟨-, hs⟩ := Option.ite_none_right_eq_some.1 hs
      obtain ⟨taken, -, rfl⟩ := Option.map_eq_some_iff.1 hs
      exact .inl ⟨rfl, rfl, rfl⟩
  | sendLock =>
      simp only [Parking.step] at hs
      split at hs
      · cases hs
      · rw [Parking.send, Option.ite_none_right_eq_some] at hs
        cases hs.2
        exact .inl ⟨rfl, rfl, rfl⟩
  | request event =>
      rw [Parking.step, Option.ite_none_right_eq_some, Parking.send,
        Option.ite_none_right_eq_some] at hs
      cases hs.2.2
      exact .inl ⟨rfl, rfl, rfl⟩
  | process n =>
      simp only [Parking.step, Parking.process] at hs
      split at hs
      · cases hs
      · next event rest hqueue =>
        cases hs
        refine .inr ⟨n, event, rfl, rfl, rfl, ?_⟩
        simp only [Parking.flags, hqueue]

/-! ### Whatever fails -/

namespace Reporting

/-- The values of the lock signal in the broker are those that were written, and the flag is `true`
only if an event was to start a session. -/
structure Inv (json : VehicleJson) (cfg : CloudGatewayClient.Config) (c : FloatText)
    (r : Reporting) : Prop where
  parking : r.parking.Inv json cfg
  telemetry : r.telemetry.Inv c cfg.vin
  isLocked : ∀ v, (CloudGatewayClient.signalIsLocked, v) ∈ r.telemetry.feed.published →
    v ∈ r.parking.isLocked.published
  active : (signalParkingActive, .bool true) ∈ r.telemetry.feed.published →
    ∃ event ∈ r.parking.processed, event.aim = some true

theorem inv_start : (Reporting.start cfg).Inv json cfg c where
  parking := Parking.inv_start
  telemetry := Telemetry.inv_start _
  isLocked v hv := by
    rcases List.mem_cons.1 hv with heq | hv
    · cases heq
      exact List.mem_cons_self
    · exact absurd (congrArg Prod.fst (List.mem_singleton.1 hv)).symm
        CloudGatewayClient.signalParkingActive_ne
  active h := by
    rcases List.mem_cons.1 h with heq | h
    · exact absurd (congrArg Prod.fst heq) CloudGatewayClient.signalParkingActive_ne
    · cases List.mem_singleton.1 h

theorem Inv.parking_step {l : ParkingLabel} {late : Bool} (h : r.Inv json cfg c)
    (hs : r.parking.step json cfg uuids decoding vehicleId zoneId l = some p) :
    Inv json cfg c
      { parking := p
        telemetry := r.telemetry.publishAll
          (written r.parking p (r.parking.flags uuids decoding vehicleId zoneId l late)) } := by
  refine ⟨h.parking.step hs, h.telemetry.publishAll _, fun v hv => ?_, fun hactive => ?_⟩
  · obtain ⟨vs, hvs⟩ := published_prefix_step hs
    rw [Telemetry.publishAll, Feed.published_publishAll, written, ← hvs, List.drop_left] at hv
    rw [← hvs]
    rcases List.mem_append.1 hv with hv | hv
    · exact List.mem_append_left _ (h.isLocked v hv)
    · rcases List.mem_append.1 hv with hv | hv
      · obtain ⟨v', hv', heq⟩ := List.mem_map.1 hv
        cases heq
        exact List.mem_append_right _ hv'
      · obtain ⟨b, -, heq⟩ := List.mem_map.1 hv
        exact absurd (congrArg Prod.fst heq) CloudGatewayClient.signalParkingActive_ne
  · rw [Telemetry.publishAll, Feed.published_publishAll, written] at hactive
    have hflags : (signalParkingActive, .bool true) ∈ r.telemetry.feed.published ∨
        true ∈ r.parking.flags uuids decoding vehicleId zoneId l late := by
      rcases List.mem_append.1 hactive with hold | hnew
      · exact .inl hold
      · rcases List.mem_append.1 hnew with hlocked | hflag
        · obtain ⟨v, -, heq⟩ := List.mem_map.1 hlocked
          exact absurd (congrArg Prod.fst heq).symm CloudGatewayClient.signalParkingActive_ne
        · obtain ⟨b, hb, heq⟩ := List.mem_map.1 hflag
          cases heq
          exact .inr hb
    rcases flags_step late hs with ⟨hprocessed, -, hnone⟩ | ⟨n, event, -, hprocessed, -, hflag⟩
    · rw [hnone] at hflags
      simp only [hprocessed]
      exact h.active (hflags.resolve_right List.not_mem_nil)
    · simp only [hprocessed]
      rcases hflags with hold | hnew
      · obtain ⟨event', hevent', haim⟩ := h.active hold
        exact ⟨event', List.mem_append_left _ hevent', haim⟩
      · rw [hflag] at hnew
        exact ⟨event, List.mem_append_right _ List.mem_cons_self,
          aim_of_mem_published (flagWrites_subset late _ hnew)⟩

/-- The steps of the telemetry write other signals only. -/
theorem telemetry_published {t t' : Telemetry} {l : TelemetryLabel} (hown : isOwn l = false)
    (hs : t.step c l = some t') :
    t'.feed.published = t.feed.published ∨
      ∃ path value, t'.feed.published = t.feed.published ++ [(path, value)] ∧
        path ≠ CloudGatewayClient.signalIsLocked ∧ path ≠ signalParkingActive := by
  cases l with
  | publish path value =>
      cases hs
      rw [isOwn, decide_eq_false_iff_not, not_or] at hown
      exact .inr ⟨path, value, Feed.published_publish .., hown⟩
  | stream m =>
      obtain ⟨feed, hfeed, rfl⟩ := Telemetry.stream_eq_some hs
      exact .inl (Feed.move_frame hfeed).1
  | update time ok =>
      obtain ⟨⟨signal, feed⟩, htake, rfl⟩ := Option.map_eq_some_iff.1 hs
      obtain ⟨rest, -, rfl⟩ := Feed.take_eq_some_iff.1 htake
      exact .inl rfl

/-- **Every step keeps the invariant.** -/
theorem Inv.step {l : ReportingLabel} (h : r.Inv json cfg c)
    (hs : r.step json cfg uuids decoding vehicleId zoneId c l = some r') : r'.Inv json cfg c := by
  cases l with
  | parking l late =>
      obtain ⟨p, hp, rfl⟩ := Option.map_eq_some_iff.1 hs
      exact h.parking_step hp
  | telemetry l =>
      obtain ⟨hown, hs⟩ := Option.ite_none_left_eq_some.1 hs
      obtain ⟨t, ht, rfl⟩ := Option.map_eq_some_iff.1 hs
      refine ⟨h.parking, h.telemetry.step ht, fun v hv => ?_, fun hactive => ?_⟩
      · rcases telemetry_published (Bool.eq_false_iff.2 hown) ht with
          hsame | ⟨path, value, hmore, hlocked, -⟩
        · exact h.isLocked v (hsame ▸ hv)
        · rw [hmore, List.mem_append, List.mem_singleton] at hv
          exact h.isLocked v (hv.resolve_right fun heq => hlocked (congrArg Prod.fst heq).symm)
      · rcases telemetry_published (Bool.eq_false_iff.2 hown) ht with
          hsame | ⟨path, value, hmore, -, hflag⟩
        · exact h.active (hsame ▸ hactive)
        · rw [hmore, List.mem_append, List.mem_singleton] at hactive
          exact h.active
            (hactive.resolve_right fun heq => hflag (congrArg Prod.fst heq).symm)

theorem inv_of_reach
    (h : Lts.Reach (step json cfg uuids decoding vehicleId zoneId c) (start cfg) r) :
    r.Inv json cfg c :=
  h.invariant inv_start fun _ _ _ hr => hr.step

/-! ### As long as nothing fails -/

/-- A publication of the session flag takes effect. -/
def flagTaken (late : Bool) : ParkingLabel → Bool
  | .process n => match n.published with
    | .ok _ => true
    | .error _ => late
  | _ => true

/-- Writes take effect, events are served, and the stream does not lose the newest value of the two
signals. -/
def Faultless (r : Reporting) : ReportingLabel → Prop
  | .parking l late => r.parking.Faultless l ∧ flagTaken late l = true
  | .telemetry l => r.telemetry.Keeps CloudGatewayClient.signalIsLocked l ∧
      r.telemetry.Keeps signalParkingActive l

instance : ∀ (r : Reporting) (l : ReportingLabel), Decidable (r.Faultless l)
  | r, .parking l late =>
      inferInstanceAs (Decidable (r.parking.Faultless l ∧ flagTaken late l = true))
  | r, .telemetry l => inferInstanceAs
      (Decidable (r.telemetry.Keeps CloudGatewayClient.signalIsLocked l ∧
        r.telemetry.Keeps signalParkingActive l))

/-- The two signals are the lock state and the session, and their newest values are on their way. -/
structure Tells (vehicleId : String) (r : Reporting) : Prop where
  follows : r.parking.Follows vehicleId
  isLocked : Feed.latest CloudGatewayClient.signalIsLocked r.telemetry.feed.published =
    r.parking.isLocked.published.getLast?
  active : Feed.latest signalParkingActive r.telemetry.feed.published =
    some (.bool r.parking.session.isActive)
  lockedOnWay : r.telemetry.feed.Current CloudGatewayClient.signalIsLocked
  activeOnWay : r.telemetry.feed.Current signalParkingActive

theorem tells_start : (Reporting.start cfg).Tells vehicleId where
  follows := Parking.follows_start
  isLocked := rfl
  active := rfl
  lockedOnWay := Feed.current_start _ _
  activeOnWay := Feed.current_start _ _

/-- A step writes the session flag exactly if it changes the session. -/
theorem active_step {l : ParkingLabel} {late : Bool} (htaken : flagTaken late l = true)
    (hs : p.step json cfg uuids decoding vehicleId zoneId l = some p') :
    ((p.flags uuids decoding vehicleId zoneId l late).getLast?.map TypedValue.bool).or
      (some (.bool p.session.isActive)) = some (.bool p'.session.isActive) := by
  rcases flags_step late hs with ⟨-, hsession, hnone⟩ | ⟨n, event, rfl, -, hsession, hflags⟩
  · rw [hnone, hsession]
    rfl
  · have htaken : ∀ a ∈ published (processEvent (environment uuids decoding n) vehicleId zoneId
        p.session event p.store).calls, flagWrite late a = some a.value := by
      intro a ha
      have hresult : a.result = n.published :=
        result_of_mem_published (fun _ _ _ => rfl) vehicleId zoneId p.session event p.store a ha
      rw [flagTaken] at htaken
      rw [flagWrite, hresult]
      cases hpublished : n.published with
      | ok u => rfl
      | error e =>
          rw [hpublished] at htaken
          exact if_pos htaken
    rw [hflags, flagWrites_eq htaken, values_published_processEvent, hsession]
    split
    · next hsame => rw [hsame]; rfl
    · rfl

/-- **Every faultless step keeps the signals in line.** -/
theorem Tells.step {l : ReportingLabel} (h : r.Tells vehicleId) (hinv : r.Inv json cfg c)
    (hl : r.Faultless l)
    (hs : r.step json cfg uuids decoding vehicleId zoneId c l = some r') : r'.Tells vehicleId := by
  have hlocked : CloudGatewayClient.signalIsLocked ∈ telemetrySignals := List.mem_cons_self
  have hactive : signalParkingActive ∈ telemetrySignals := by simp [telemetrySignals]
  cases l with
  | parking l late =>
      obtain ⟨p, hp, rfl⟩ := Option.map_eq_some_iff.1 hs
      refine ⟨h.follows.step hl.1 hp, ?_, ?_, h.lockedOnWay.publishAll hlocked _,
        h.activeOnWay.publishAll hactive _⟩
      · rw [Telemetry.publishAll, Feed.published_publishAll]
        exact latest_written_isLocked _ hp h.isLocked
      · rw [Telemetry.publishAll, Feed.published_publishAll, written, latest_written_active,
          h.active]
        exact active_step hl.2 hp
  | telemetry l =>
      obtain ⟨hown, hs⟩ := Option.ite_none_left_eq_some.1 hs
      obtain ⟨t, ht, rfl⟩ := Option.map_eq_some_iff.1 hs
      have hother : Feed.latest CloudGatewayClient.signalIsLocked t.feed.published =
            Feed.latest CloudGatewayClient.signalIsLocked r.telemetry.feed.published ∧
          Feed.latest signalParkingActive t.feed.published =
            Feed.latest signalParkingActive r.telemetry.feed.published := by
        rcases telemetry_published (Bool.eq_false_iff.2 hown) ht with
          hsame | ⟨path, value, hmore, hne, hne'⟩
        · rw [hsame]
          exact ⟨rfl, rfl⟩
        · rw [hmore, Feed.latest_concat, Feed.latest_concat, if_neg hne, if_neg hne']
          exact ⟨rfl, rfl⟩
      exact ⟨h.follows, hother.1.trans h.isLocked, hother.2.trans h.active,
        Telemetry.current_step hlocked hinv.telemetry h.lockedOnWay hl.1 ht,
        Telemetry.current_step hactive hinv.telemetry h.activeOnWay hl.2 ht⟩

theorem tells_of_reach
    (h : Lts.Reach (Lts.restrict (step json cfg uuids decoding vehicleId zoneId c) Faultless)
      (start cfg) r) : r.Inv json cfg c ∧ r.Tells vehicleId := by
  refine h.invariant (I := fun r => r.Inv json cfg c ∧ r.Tells vehicleId)
    ⟨inv_start, tells_start⟩ ?_
  rintro r l r' ⟨hinv, htells⟩ hs
  obtain ⟨hl, hs⟩ := Lts.restrict_eq_some_iff.1 hs
  exact ⟨hinv.step hs, htells.step hinv hl hs⟩

end Reporting

/-! ### A vehicle that is locked -/

open RemoteCommand (demoJson demoConfig)

/-- The system of the demo vehicle. -/
def demoReporting : Reporting → ReportingLabel → Option Reporting :=
  Reporting.step demoJson demoConfig unaryUuids readReplies "DEMO-VIN-001" "zone-demo-1" .exact

/-- The client subscribes, the vehicle is locked and parked, and the client takes everything. -/
def reportRun : List ReportingLabel :=
  [.telemetry (.stream (.subscribe telemetrySignals))] ++
    (lockedRun ++ followRun ++ followRun).map (fun l => .parking l false) ++
    [.stream .fetch, .stream .forward, .update 1 true, .stream .forward, .update 1 true,
      .stream .fetch, .stream .forward, .update 2 true, .stream .fetch, .stream .forward,
      .update 3 true].map .telemetry

theorem exists_reportRun :
    ∃ r m, Lts.run (Lts.restrict demoReporting Reporting.Faultless) (.start demoConfig)
        reportRun = some r ∧
      r.telemetry.feed.connected = true ∧ r.telemetry.Settled ∧
      r.telemetry.loop.attempts.getLast? = some (m, true) ∧
      r.parking.vehicle.loop.lockState = true ∧ r.parking.session.isActive = true := by
  have hrun : (Lts.run (Lts.restrict demoReporting Reporting.Faultless) (.start demoConfig)
      reportRun).map (fun r =>
        (r.telemetry.feed.connected,
          (r.telemetry.feed.wire.length, r.telemetry.feed.held.length,
            r.telemetry.feed.inbox.length),
          r.telemetry.loop.attempts.getLast?.map Prod.snd, r.parking.vehicle.loop.lockState,
          r.parking.session.isActive)) = some (true, (0, 0, 0), some true, true, true) := by
    decide +kernel
  obtain ⟨r, hr, hfinal⟩ := Option.map_eq_some_iff.1 hrun
  simp only [Prod.mk.injEq, List.length_eq_zero_iff] at hfinal
  obtain ⟨hup, ⟨hwire, hheld, hinbox⟩, hlast, hlocked, hactive⟩ := hfinal
  obtain ⟨⟨m, ok⟩, hm, rfl⟩ := Option.map_eq_some_iff.1 hlast
  exact ⟨r, m, hr, hup, ⟨hwire, hheld, hinbox⟩, hm, hlocked, hactive⟩

/-! ### What the messages say -/

/-- A lock command that came with the bearer token was let through. -/
def Parking.LetThrough (json : VehicleJson) (cfg : CloudGatewayClient.Config) (p : Parking) :
    Prop :=
  ∃ g ∈ p.vehicle.loop.handled, Locks json.serde g ∧
    ∃ msg ∈ p.vehicle.heard, Authentic json cfg msg g.payload

/-- **What the messages owe to lock commands.**  A message says that the vehicle is locked only if a
lock command that came with the bearer token was let through, and that it has a session only if
there was such a command or a session was started by hand. -/
theorem no_report_without_lock
    (h : Lts.Reach (Reporting.step json cfg uuids decoding vehicleId zoneId c) (.start cfg) r)
    {a : Json × Bool} (ha : a ∈ r.telemetry.loop.attempts) :
    ∃ fields, a.1 = .obj fields ∧
      (Json.get fields "is_locked" = some (.bool true) → r.parking.LetThrough json cfg) ∧
      (Json.get fields "parking_active" = some (.bool true) →
        (∃ zone, .manualStart zone ∈ r.parking.processed) ∨ r.parking.LetThrough json cfg) := by
  have hr := Reporting.inv_of_reach h
  obtain ⟨s, time, hmessage, -, hvalues⟩ := hr.telemetry.exists_state ha
  obtain ⟨fields, hfields, -, hlocked, -, -, hactive⟩ :=
    CloudGatewayClient.exists_message_eq c time s
  refine ⟨fields, hmessage.trans hfields, fun htrue => ?_, fun htrue => ?_⟩
  · have hstate : s.isLocked = some true := by simpa [hlocked] using htrue
    exact hr.parking.lock_of_published
      (hr.isLocked _ (hvalues _ _ (CloudGatewayClient.value_isLocked_iff.2 hstate)))
  · have hstate : s.parkingActive = some true := by simpa [hactive] using htrue
    obtain ⟨event, hevent, haim⟩ :=
      hr.active (hvalues _ _ (CloudGatewayClient.value_parkingActive_iff.2 hstate))
    exact (hr.parking.published_of_processed hevent haim).imp_right hr.parking.lock_of_published

theorem no_report_without_lock_parked :
    ∃ r m, Lts.Reach demoReporting (.start demoConfig) r ∧
      (m, true) ∈ r.telemetry.loop.attempts ∧ ∃ fields, m = .obj fields ∧
      (Json.get fields "is_locked" = some (.bool true) →
        r.parking.LetThrough demoJson demoConfig) ∧
      (Json.get fields "parking_active" = some (.bool true) →
        (∃ zone, .manualStart zone ∈ r.parking.processed) ∨
          r.parking.LetThrough demoJson demoConfig) := by
  obtain ⟨r, m, hr, -, -, hlast, -⟩ := exists_reportRun
  have hreach : Lts.Reach demoReporting (.start demoConfig) r := (Lts.reach_of_run hr).of_restrict
  have hmem := List.mem_of_getLast? hlast
  exact ⟨r, m, hreach, hmem, no_report_without_lock hreach hmem⟩

/-- **The last message tells how it is.**  In every run in which writes take effect and events are
served, by an operator whose replies can be read, once the client has taken everything from a stream
that is up, and the last message was accepted, it has the lock state and says whether there is a
session; and the operator has the same. -/
theorem report_is_current
    (h : Lts.Reach (Lts.restrict (Reporting.step json cfg uuids decoding vehicleId zoneId c)
      Reporting.Faultless) (.start cfg) r)
    (hup : r.telemetry.feed.connected = true) (hsettled : r.telemetry.Settled) {m : Json}
    (hlast : r.telemetry.loop.attempts.getLast? = some (m, true)) :
    r.telemetry.loop.lastAccepted = some m ∧
      (∃ fields, m = .obj fields ∧
        Json.get fields "is_locked" = some (.bool r.parking.vehicle.loop.lockState) ∧
        Json.get fields "parking_active" = some (.bool r.parking.session.isActive)) ∧
      Agrees vehicleId r.parking.session r.parking.store := by
  obtain ⟨hinv, htells⟩ := Reporting.tells_of_reach h
  refine ⟨TelemetryLoop.lastAccepted_of_last hlast, ?_, htells.follows.agrees⟩
  have hlocked := hinv.telemetry.value_of_settled htells.lockedOnWay hup hsettled
    (htells.isLocked.trans htells.follows.signal) rfl
  have hactive := hinv.telemetry.value_of_settled htells.activeOnWay hup hsettled htells.active rfl
  -- the last message has the values of the state
  rw [hinv.telemetry.loop] at hlast hlocked hactive
  obtain ⟨t, hsame, time, rfl⟩ := TelemetryLoop.last_attempt c cfg.vin _ hlast
  obtain ⟨fields, hfields, -, hfield, -, -, hfield'⟩ :=
    CloudGatewayClient.exists_message_eq c time t
  refine ⟨fields, hfields, ?_, ?_⟩
  · rw [hfield, hsame.isLocked, CloudGatewayClient.value_isLocked_iff.1 hlocked]
    rfl
  · rw [hfield', hsame.parkingActive, CloudGatewayClient.value_parkingActive_iff.1 hactive]
    rfl

theorem report_is_current_parked :
    ∃ r m, Lts.run (Lts.restrict demoReporting Reporting.Faultless) (.start demoConfig)
        reportRun = some r ∧
      r.parking.vehicle.loop.lockState = true ∧ r.parking.session.isActive = true ∧
      r.telemetry.loop.lastAccepted = some m ∧
      (∃ fields, m = .obj fields ∧
        Json.get fields "is_locked" = some (.bool r.parking.vehicle.loop.lockState) ∧
        Json.get fields "parking_active" = some (.bool r.parking.session.isActive)) ∧
      Agrees "DEMO-VIN-001" r.parking.session r.parking.store := by
  obtain ⟨r, m, hr, hup, hsettled, hlast, hlocked, hactive⟩ := exists_reportRun
  exact ⟨r, m, hr, hlocked, hactive,
    report_is_current (Lts.reach_of_run hr) hup hsettled hlast⟩

end AutonomousParking
