/-
**Telemetry from the broker.**

The client subscribes once to the lock state, the position and the session flag.  A task takes the
responses, makes an update of every value that has the type of its signal, and sends it to the
telemetry loop, which publishes the message of every change.

Every value in every message was published to its signal.  Once everything has been taken from a
stream that is up, the telemetry state has the current value of every signal, unless the stream has
lost it: where the responses pile up, a burst of positions may hide the last change of the lock.

Main definitions:

* `CloudGatewayClient.readUpdate` — the update that a value is;
* `CloudGatewayClient.TelemetryState.value` — the telemetry state as values of signals;
* `CloudGatewayClient.Telemetry`, `CloudGatewayClient.Telemetry.step` — the subscription and the
  loop.

Main results:

* `CloudGatewayClient.telemetry_genuine` — **nothing is made up,** whatever is lost;
* `CloudGatewayClient.telemetry_converges` — **the current values are published.**
-/

import ParkingFeeService.Feed
import ParkingFeeService.LockingBroker
import ParkingFeeService.Lts
import ParkingFeeService.TelemetryLoop

set_option relaxedAutoImplicit false
set_option autoImplicit false

namespace CloudGatewayClient

open LockingService (TypedValue)

/-! ### The signals -/

/-- VSS signal path constants. -/
def signalIsLocked : String := "Vehicle.Cabin.Door.Row1.DriverSide.IsLocked"

def signalLatitude : String := "Vehicle.CurrentLocation.Latitude"

def signalLongitude : String := "Vehicle.CurrentLocation.Longitude"

def signalParkingActive : String := "Vehicle.Parking.SessionActive"

/-- The signals subscribed for telemetry. -/
def telemetrySignals : List String :=
  [signalIsLocked, signalLatitude, signalLongitude, signalParkingActive]

/-- The update that an entry of a response is; values of other types are dropped. -/
def readUpdate : String × TypedValue → Option SignalUpdate
  | (path, value) =>
      if path = signalIsLocked then
        match value with
        | .bool v => some (.isLocked v)
        | _ => none
      else if path = signalLatitude then
        match value with
        | .double v => some (.latitude v)
        | _ => none
      else if path = signalLongitude then
        match value with
        | .double v => some (.longitude v)
        | _ => none
      else if path = signalParkingActive then
        match value with
        | .bool v => some (.parkingActive v)
        | _ => none
      else none

/-- The signal of an update, with its value. -/
def SignalUpdate.entry : SignalUpdate → String × TypedValue
  | .isLocked v => (signalIsLocked, .bool v)
  | .latitude v => (signalLatitude, .double v)
  | .longitude v => (signalLongitude, .double v)
  | .parkingActive v => (signalParkingActive, .bool v)

/-- The value that the telemetry state has of a signal. -/
def TelemetryState.value (s : TelemetryState) (path : String) : Option TypedValue :=
  if path = signalIsLocked then s.isLocked.map .bool
  else if path = signalLatitude then s.latitude.map .double
  else if path = signalLongitude then s.longitude.map .double
  else if path = signalParkingActive then s.parkingActive.map .bool
  else none

theorem signalParkingActive_ne : signalParkingActive ≠ signalIsLocked := by decide

theorem readUpdate_entry (signal : SignalUpdate) : readUpdate signal.entry = some signal := by
  cases signal <;> rfl

/-- An update is made of the entry of its signal, and of no other. -/
theorem entry_of_readUpdate {e : String × TypedValue} {signal : SignalUpdate}
    (h : readUpdate e = some signal) : signal.entry = e := by
  obtain ⟨path, value⟩ := e
  simp only [readUpdate] at h
  split_ifs at h with hlocked hlat hlon hparking
  · subst hlocked
    cases value <;> cases h
    rfl
  · subst hlat
    cases value <;> cases h
    rfl
  · subst hlon
    cases value <;> cases h
    rfl
  · subst hparking
    cases value <;> cases h
    rfl

theorem mem_telemetrySignals (signal : SignalUpdate) : signal.entry.1 ∈ telemetrySignals := by
  cases signal <;> simp [SignalUpdate.entry, telemetrySignals]

/-- An update changes the value of its signal and no other. -/
theorem value_assign (s : TelemetryState) (signal : SignalUpdate) (path : String) :
    (s.assign signal).2.value path =
      if signal.entry.1 = path then some signal.entry.2 else s.value path := by
  by_cases h : signal.entry.1 = path
  · subst h
    rw [if_pos rfl]
    cases signal <;> rfl
  · rw [if_neg h]
    cases signal <;>
      simp only [TelemetryState.value, TelemetryState.assign] <;>
      split_ifs with hlocked hlat hlon hparking <;>
      first | rfl | exact absurd (Eq.symm ‹_›) h

theorem value_isLocked_iff {s : TelemetryState} {v : Bool} :
    s.value signalIsLocked = some (.bool v) ↔ s.isLocked = some v := by
  have hvalue : s.value signalIsLocked = s.isLocked.map .bool := rfl
  rw [hvalue, Option.map_eq_some_iff]
  simp

theorem value_parkingActive_iff {s : TelemetryState} {v : Bool} :
    s.value signalParkingActive = some (.bool v) ↔ s.parkingActive = some v := by
  have hvalue : s.value signalParkingActive = s.parkingActive.map .bool := rfl
  rw [hvalue, Option.map_eq_some_iff]
  simp

/-- **What the loop has of a signal** is the last value received. -/
theorem value_run (c : FloatText) (vin : String) (es : List TelemetryEvent) (path : String) :
    (TelemetryLoop.run c vin es).state.value path =
      Feed.latest path (es.map fun e => e.signal.entry) := by
  induction es using List.reverseRecOn with
  | nil =>
      simp only [TelemetryLoop.run, List.foldl_nil, TelemetryState.value, Option.map_none, ite_self]
      rfl
  | append_singleton es e ih =>
      rw [TelemetryLoop.run_concat, TelemetryLoop.state_step, value_assign, ih, List.map_append,
        List.map_singleton, Feed.latest_concat]

/-- Every message that the loop tried to publish is that of an earlier state. -/
theorem exists_prefix_of_mem_attempts {c : FloatText} {vin : String} {es : List TelemetryEvent}
    {a : Json × Bool} (ha : a ∈ (TelemetryLoop.run c vin es).attempts) :
    ∃ es' time, es' <+: es ∧ a.1 = (TelemetryLoop.run c vin es').state.message c time := by
  induction es using List.reverseRecOn with
  | nil => cases ha
  | append_singleton es e ih =>
      have hearlier : a ∈ (TelemetryLoop.run c vin es).attempts → ∃ es' time,
          es' <+: es ++ [e] ∧ a.1 = (TelemetryLoop.run c vin es').state.message c time := by
        intro h
        obtain ⟨es', time, hpre, heq⟩ := ih h
        exact ⟨es', time, hpre.trans (List.prefix_append es [e]), heq⟩
      by_cases h : (TelemetryLoop.run c vin es).Holds e.signal
      · rw [TelemetryLoop.run_concat, TelemetryLoop.attempts_step_of_holds c h] at ha
        exact hearlier ha
      · rw [TelemetryLoop.run_concat, TelemetryLoop.attempts_step_of_not_holds c h,
          List.mem_append, List.mem_singleton] at ha
        rcases ha with ha | rfl
        · exact hearlier ha
        · exact ⟨es ++ [e], e.time, List.prefix_refl _, by rw [TelemetryLoop.run_concat]⟩

/-! ### The subscription and the loop -/

/-- The places of the channel. -/
def telemetryCapacity : ℕ := 32

/-- The broker's signals with the client's subscription, and the telemetry loop.  `events` is a
history. -/
structure Telemetry where
  feed : Feed String TypedValue SignalUpdate
  loop : TelemetryLoop
  /-- The updates that the loop has taken. -/
  events : List TelemetryEvent

/-- The client before it has subscribed. -/
def Telemetry.start (vin : String) (published : List (String × TypedValue)) : Telemetry where
  feed := .start published
  loop := { state := { vin } }
  events := []

/-- What can happen next. -/
inductive TelemetryLabel
  /-- A value is published to a signal. -/
  | publish (path : String) (value : TypedValue)
  /-- The client subscribes, or something happens on the stream. -/
  | stream (m : Feed.Move String)
  /-- The loop takes an update. -/
  | update (time : UInt64) (published : Bool)

namespace Telemetry

variable (c : FloatText)

/-- One step. -/
def step (t : Telemetry) : TelemetryLabel → Option Telemetry
  | .publish path value =>
      some { t with feed := t.feed.publish telemetrySignals (path, value) }
  | .stream m =>
      -- there is one subscription, which is not made again
      if m.subscribes = true ∧ t.feed.subscriptions ≠ 0 then none
      else (t.feed.move readUpdate telemetryCapacity telemetrySignals m).map fun feed =>
        { t with feed := feed }
  | .update time published =>
      t.feed.take.map fun (signal, feed) =>
        { feed := feed
          loop := t.loop.step c ⟨time, signal, published⟩
          events := t.events ++ [⟨time, signal, published⟩] }

/-- Several values are published one after the other. -/
def publishAll (t : Telemetry) (es : List (String × TypedValue)) : Telemetry :=
  { t with feed := t.feed.publishAll telemetrySignals es }

/-- The stream does not lose the newest value of the signal. -/
def Keeps (path : String) (t : Telemetry) : TelemetryLabel → Prop
  | .stream m => t.feed.Keeps path m
  | _ => True

instance (path : String) (t : Telemetry) : ∀ l : TelemetryLabel, Decidable (t.Keeps path l)
  | .stream m => inferInstanceAs (Decidable (t.feed.Keeps path m))
  | .publish _ _ | .update _ _ => .isTrue trivial

/-- The loop has run on the updates that it was sent. -/
structure Inv (vin : String) (t : Telemetry) : Prop where
  feed : t.feed.Inv readUpdate
  loop : t.loop = TelemetryLoop.run c vin t.events
  events : t.events.map TelemetryEvent.signal = t.feed.received

variable {c} {vin : String} {t t' : Telemetry}

theorem inv_start (published : List (String × TypedValue)) : (start vin published).Inv c vin where
  feed := Feed.inv_start published
  loop := rfl
  events := rfl

theorem Inv.publishAll (h : t.Inv c vin) (es : List (String × TypedValue)) :
    (t.publishAll es).Inv c vin where
  feed := h.feed.publishAll es
  loop := h.loop
  events := h.events.trans (Feed.received_publishAll ..).symm

/-- What a step of the stream is. -/
theorem stream_eq_some {m : Feed.Move String} (h : t.step c (.stream m) = some t') :
    ∃ feed, t.feed.move readUpdate telemetryCapacity telemetrySignals m = some feed ∧
      t' = { t with feed := feed } := by
  obtain ⟨-, h⟩ := Option.ite_none_left_eq_some.1 h
  obtain ⟨feed, hfeed, rfl⟩ := Option.map_eq_some_iff.1 h
  exact ⟨feed, hfeed, rfl⟩

/-- **Every step keeps the invariant.** -/
theorem Inv.step {l : TelemetryLabel} (h : t.Inv c vin) (hs : t.step c l = some t') :
    t'.Inv c vin := by
  cases l with
  | publish path value =>
      cases hs
      refine ⟨h.feed.publish _, h.loop, ?_⟩
      rw [Feed.received_publish]
      exact h.events
  | stream m =>
      obtain ⟨feed, hfeed, rfl⟩ := stream_eq_some hs
      refine ⟨h.feed.move hfeed, h.loop, ?_⟩
      rw [(Feed.move_frame hfeed).2.1]
      exact h.events
  | update time published =>
      obtain ⟨⟨signal, feed⟩, htake, rfl⟩ := Option.map_eq_some_iff.1 hs
      have hfeed := h.feed.take htake
      obtain ⟨rest, -, rfl⟩ := Feed.take_eq_some_iff.1 htake
      refine ⟨hfeed, ?_, ?_⟩
      · rw [TelemetryLoop.run_concat, ← h.loop]
      · rw [List.map_append, h.events]
        rfl

theorem inv_of_reach {published : List (String × TypedValue)}
    (h : Lts.Reach (step c) (start vin published) t) : t.Inv c vin :=
  h.invariant (inv_start published) fun _ _ _ ht => ht.step

/-- A step that does not lose the newest value of a signal keeps it on its way. -/
theorem current_step {path : String} {l : TelemetryLabel} (hpath : path ∈ telemetrySignals)
    (h : t.Inv c vin) (hcurrent : t.feed.Current path) (hkeeps : t.Keeps path l)
    (hs : t.step c l = some t') : t'.feed.Current path := by
  cases l with
  | publish path' value =>
      cases hs
      exact hcurrent.publish hpath _
  | stream m =>
      obtain ⟨feed, hfeed, rfl⟩ := stream_eq_some hs
      exact hcurrent.move h.feed hpath hkeeps hfeed
  | update time published =>
      obtain ⟨⟨signal, feed⟩, htake, rfl⟩ := Option.map_eq_some_iff.1 hs
      exact hcurrent.take htake

theorem current_of_reach {path : String} {published : List (String × TypedValue)}
    (hpath : path ∈ telemetrySignals)
    (h : Lts.Reach (Lts.restrict (step c) (Keeps path)) (start vin published) t) :
    t.Inv c vin ∧ t.feed.Current path := by
  refine h.invariant (I := fun t => t.Inv c vin ∧ t.feed.Current path)
    ⟨inv_start published, Feed.current_start path published⟩ ?_
  rintro t l t' ⟨hinv, hcurrent⟩ hs
  obtain ⟨hkeeps, hs⟩ := Lts.restrict_eq_some_iff.1 hs
  exact ⟨hinv.step hs, current_step hpath hinv hcurrent hkeeps hs⟩

/-- What the loop has of a signal, by what it was sent. -/
theorem Inv.value (h : t.Inv c vin) (path : String) :
    t.loop.state.value path = Feed.latest path (t.feed.received.map SignalUpdate.entry) := by
  rw [h.loop, value_run, ← h.events, List.map_map]
  rfl

/-- Every message that the loop tries to publish is that of a state whose values were published. -/
theorem Inv.exists_state (h : t.Inv c vin) {a : Json × Bool} (ha : a ∈ t.loop.attempts) :
    ∃ s time, a.1 = TelemetryState.message c time s ∧ s.vin = vin ∧
      ∀ path value, s.value path = some value → (path, value) ∈ t.feed.published := by
  rw [h.loop] at ha
  obtain ⟨es, time, hpre, heq⟩ := exists_prefix_of_mem_attempts ha
  refine ⟨_, time, heq, ?_, fun path value hvalue => ?_⟩
  · clear heq hpre
    induction es using List.reverseRecOn with
    | nil => rfl
    | append_singleton es e ih =>
        rw [TelemetryLoop.run_concat, TelemetryLoop.state_step]
        cases e.signal <;> exact ih
  · -- the value was received, and so it was published
    rw [value_run] at hvalue
    obtain ⟨e, he, hentry⟩ := List.mem_map.1 (Feed.mem_of_latest hvalue)
    have hreceived : e.signal ∈ t.feed.received := by
      rw [← h.events]
      exact List.mem_map_of_mem (hpre.subset he)
    obtain ⟨entry, hpublished, hread⟩ := h.feed.mem_published hreceived
    rw [← hentry, entry_of_readUpdate hread]
    exact hpublished

/-- Nothing is on its way to the loop. -/
structure Settled (t : Telemetry) : Prop where
  wire : t.feed.wire = []
  held : t.feed.held = []
  inbox : t.feed.inbox = []

/-- What the loop has of a signal, once nothing is on its way. -/
theorem Inv.value_of_settled (h : t.Inv c vin) {path : String} (hcurrent : t.feed.Current path)
    (hup : t.feed.connected = true) (hsettled : t.Settled) {value : TypedValue}
    (hvalue : Feed.latest path t.feed.published = some value)
    (htype : (readUpdate (path, value)).isSome = true) :
    t.loop.state.value path = some value := by
  obtain ⟨signal, hsignal⟩ := Option.isSome_iff_exists.1 htype
  have hentry := entry_of_readUpdate hsignal
  rw [h.value, Feed.latest, List.filterMap_map]
  refine h.feed.last_received hcurrent hup hsettled.wire hsettled.held hsettled.inbox hvalue hsignal
    ?_ ?_
  · simp [hentry]
  · intro e w hread hne
    rw [← entry_of_readUpdate hread]
    by_contra hkey
    simp [hkey] at hne

end Telemetry

/-! ### What is published -/

/-- The client subscribes while the vehicle is unlocked, and the vehicle is locked. -/
def lockedTelemetry : List TelemetryLabel :=
  [.stream (.subscribe telemetrySignals), .stream .fetch, .stream .forward,
    .publish signalIsLocked (.bool true), .stream .fetch, .stream .forward, .update 1 true,
    .update 2 true]

theorem exists_lockedTelemetry :
    ∃ t, Lts.run (Lts.restrict (Telemetry.step .exact) (Telemetry.Keeps signalIsLocked))
        (.start "VIN" [(signalIsLocked, .bool false)]) lockedTelemetry = some t ∧
      t.feed.connected = true ∧ t.Settled ∧
      Feed.latest signalIsLocked t.feed.published = some (.bool true) ∧
      t.loop.attempts.length = 2 := by
  have hrun : (Lts.run (Lts.restrict (Telemetry.step .exact) (Telemetry.Keeps signalIsLocked))
        (.start "VIN" [(signalIsLocked, .bool false)]) lockedTelemetry).map (fun t =>
      (t.feed.connected, t.feed.wire.length, t.feed.held.length, t.feed.inbox.length,
        decide (Feed.latest signalIsLocked t.feed.published = some (.bool true)),
        t.loop.attempts.length)) = some (true, 0, 0, 0, true, 2) := by
    decide +kernel
  obtain ⟨t, ht, hfinal⟩ := Option.map_eq_some_iff.1 hrun
  simp only [Prod.mk.injEq, List.length_eq_zero_iff, decide_eq_true_iff] at hfinal
  obtain ⟨hup, hwire, hheld, hinbox, hvalue, hattempts⟩ := hfinal
  exact ⟨t, ht, hup, ⟨hwire, hheld, hinbox⟩, hvalue, hattempts⟩

variable {c : FloatText} {vin : String} {published : List (String × TypedValue)} {t : Telemetry}

/-- **Nothing is made up.**  Every message that the loop tries to publish is that of a state whose
values were all published to their signals. -/
theorem telemetry_genuine (h : Lts.Reach (Telemetry.step c) (.start vin published) t) :
    ∀ a ∈ t.loop.attempts, ∃ s time, a.1 = TelemetryState.message c time s ∧ s.vin = vin ∧
      ∀ path value, s.value path = some value → (path, value) ∈ t.feed.published :=
  fun _ ha => (Telemetry.inv_of_reach h).exists_state ha

theorem telemetry_genuine_locked :
    ∃ t, Lts.Reach (Telemetry.step .exact) (.start "VIN" [(signalIsLocked, .bool false)]) t ∧
      t.loop.attempts.length = 2 ∧ ∀ a ∈ t.loop.attempts, ∃ s time,
        a.1 = TelemetryState.message .exact time s ∧ s.vin = "VIN" ∧
          ∀ path value, s.value path = some value → (path, value) ∈ t.feed.published := by
  obtain ⟨t, ht, -, -, -, hattempts⟩ := exists_lockedTelemetry
  have hreach := (Lts.reach_of_run ht).of_restrict
  exact ⟨t, hreach, hattempts, telemetry_genuine hreach⟩

/-- **The current values are published.**  As long as the stream has not lost the newest value of a
signal, once everything has been taken from a stream that is up the telemetry state has the current
value of the signal; and a message that was published last has the values of the state. -/
theorem telemetry_converges {path : String}
    (h : Lts.Reach (Lts.restrict (Telemetry.step c) (Telemetry.Keeps path))
      (.start vin published) t)
    (hup : t.feed.connected = true) (hsettled : t.Settled) {value : TypedValue}
    (hvalue : Feed.latest path t.feed.published = some value)
    (htype : (readUpdate (path, value)).isSome = true) :
    t.loop.state.value path = some value ∧
      ∀ json, t.loop.attempts.getLast? = some (json, true) →
        t.loop.lastAccepted = some json ∧ t.loop.state.Snapshot c json := by
  obtain ⟨signal, hsignal⟩ := Option.isSome_iff_exists.1 htype
  have hpath : path ∈ telemetrySignals := by
    have hmem := mem_telemetrySignals signal
    rwa [entry_of_readUpdate hsignal] at hmem
  obtain ⟨ht, hcurrent⟩ := Telemetry.current_of_reach hpath h
  refine ⟨ht.value_of_settled hcurrent hup hsettled hvalue htype, fun json hlast => ?_⟩
  refine ⟨TelemetryLoop.lastAccepted_of_last hlast, ?_⟩
  rw [ht.loop] at hlast ⊢
  exact TelemetryLoop.last_attempt c vin t.events hlast

theorem telemetry_converges_locked :
    ∃ t, Lts.run (Lts.restrict (Telemetry.step .exact) (Telemetry.Keeps signalIsLocked))
        (.start "VIN" [(signalIsLocked, .bool false)]) lockedTelemetry = some t ∧
      t.loop.state.value signalIsLocked = some (.bool true) ∧
      ∀ json, t.loop.attempts.getLast? = some (json, true) →
        t.loop.lastAccepted = some json ∧ t.loop.state.Snapshot .exact json := by
  obtain ⟨t, ht, hup, hsettled, hvalue, -⟩ := exists_lockedTelemetry
  exact ⟨t, ht, telemetry_converges (Lts.reach_of_run ht) hup hsettled hvalue rfl⟩

end CloudGatewayClient
