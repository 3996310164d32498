/-
**The telemetry loop.**

The loop publishes the message of every update that has one, and goes on if that fails.  Whether an
update has a message is settled by what was received, not by what was delivered: a value that was
lost is not sent again when it is received again, but with the next change of any signal, since
every message has all values.

Main definitions:

* `CloudGatewayClient.TelemetryEvent`, `CloudGatewayClient.TelemetryLoop` — an update with what
  comes of publishing its message, and the loop with its attempts;
* `CloudGatewayClient.TelemetryState.SameAs` — states with the same values;
* `CloudGatewayClient.TelemetryLoop.Holds` — a signal has an equal value already.

Main results:

* `CloudGatewayClient.TelemetryLoop.last_attempt` — the last message has the current values;
* `CloudGatewayClient.lost_value_not_sent_again` — a value that was lost and is received again;
* `CloudGatewayClient.telemetry_published_on_change` — when messages are published, and with what.
-/

import ParkingFeeService.Telemetry

set_option relaxedAutoImplicit false
set_option autoImplicit false

namespace CloudGatewayClient

/-- An update, its time, and whether `publish_telemetry` succeeds if it is called for it. -/
structure TelemetryEvent where
  time : UInt64
  signal : SignalUpdate
  published : Bool

/-- The state of the loop, with the messages that it tried to publish and whether NATS accepted
them, the oldest first. -/
structure TelemetryLoop where
  state : TelemetryState
  attempts : List (Json × Bool) := []

namespace TelemetryLoop

/-- One turn of the loop. -/
def step (c : FloatText) (l : TelemetryLoop) (e : TelemetryEvent) : TelemetryLoop :=
  match l.state.update c e.time e.signal with
  | (some json, s) => { state := s, attempts := l.attempts ++ [(json, e.published)] }
  | (none, s) => { l with state := s }

/-- The loop after the events. -/
def run (c : FloatText) (vin : String) (es : List TelemetryEvent) : TelemetryLoop :=
  es.foldl (step c) { state := { vin } }

/-- The message that NATS accepted last. -/
def lastAccepted (l : TelemetryLoop) : Option Json :=
  (l.attempts.filter fun a => a.2).getLast?.map Prod.fst

/-- The signal has a value already that is equal to that of the update. -/
def Holds (l : TelemetryLoop) : SignalUpdate → Prop
  | .isLocked v => l.state.isLocked = some v
  | .latitude v => ∃ x, l.state.latitude = some x ∧ x.Eqv v
  | .longitude v => ∃ x, l.state.longitude = some x ∧ x.Eqv v
  | .parkingActive v => l.state.parkingActive = some v

end TelemetryLoop

/-- The states have the same values; the two zeros are one. -/
structure TelemetryState.SameAs (s t : TelemetryState) : Prop where
  vin : s.vin = t.vin
  isLocked : s.isLocked = t.isLocked
  latitude : Option.Rel BinaryFloat.Same s.latitude t.latitude
  longitude : Option.Rel BinaryFloat.Same s.longitude t.longitude
  parkingActive : s.parkingActive = t.parkingActive

/-- The message is that of a state with the same values, at some time. -/
def TelemetryState.Snapshot (c : FloatText) (s : TelemetryState) (json : Json) : Prop :=
  ∃ t : TelemetryState, t.SameAs s ∧ ∃ timestamp, json = t.message c timestamp

theorem TelemetryState.SameAs.refl (s : TelemetryState) : s.SameAs s where
  vin := rfl
  isLocked := rfl
  latitude := by cases s.latitude <;> constructor; exact .refl _
  longitude := by cases s.longitude <;> constructor; exact .refl _
  parkingActive := rfl

namespace TelemetryLoop

theorem run_concat (c : FloatText) (vin : String) (es : List TelemetryEvent) (e : TelemetryEvent) :
    run c vin (es ++ [e]) = (run c vin es).step c e := by
  simp [run]

theorem state_step (c : FloatText) (l : TelemetryLoop) (e : TelemetryEvent) :
    (l.step c e).state = (l.state.assign e.signal).2 := by
  rw [← TelemetryState.update_snd c e.time, step]
  rcases l.state.update c e.time e.signal with ⟨_ | _, s⟩ <;> rfl

theorem assign_eq_false_iff (l : TelemetryLoop) (signal : SignalUpdate) :
    (l.state.assign signal).1 = false ↔ l.Holds signal := by
  cases signal with
  | isLocked v => simp [TelemetryState.assign, Holds]
  | latitude v => exact differs_eq_false_iff
  | longitude v => exact differs_eq_false_iff
  | parkingActive v => simp [TelemetryState.assign, Holds]

/-- A value that is held already is not published. -/
theorem attempts_step_of_holds (c : FloatText) {l : TelemetryLoop} {e : TelemetryEvent}
    (h : l.Holds e.signal) : (l.step c e).attempts = l.attempts := by
  have hnone : (l.state.update c e.time e.signal).1 = none := by
    rw [TelemetryState.update_fst, (l.assign_eq_false_iff e.signal).2 h]
    rfl
  rw [step]
  split
  · next heq => rw [heq] at hnone; cases hnone
  · rfl

/-- A change is published, with all values. -/
theorem attempts_step_of_not_holds (c : FloatText) {l : TelemetryLoop} {e : TelemetryEvent}
    (h : ¬ l.Holds e.signal) :
    (l.step c e).attempts =
      l.attempts ++ [((l.step c e).state.message c e.time, e.published)] := by
  have hchanged : (l.state.assign e.signal).1 = true := by
    rwa [← Bool.not_eq_false, l.assign_eq_false_iff]
  have hsome : (l.state.update c e.time e.signal).1 =
      some ((l.step c e).state.message c e.time) := by
    rw [TelemetryState.update_fst, if_pos hchanged, state_step]
  rw [step] at hsome ⊢
  rcases heq : l.state.update c e.time e.signal with ⟨_ | json, s⟩
  · rw [heq] at hsome
    cases hsome
  · rw [heq] at hsome
    simp only [Option.some.injEq] at hsome ⊢
    rw [hsome]

/-! ### The last attempt -/

theorem rel_same_of_eqv {o : Option (BinaryFloat .binary64)} {x v : BinaryFloat .binary64}
    (h : Option.Rel BinaryFloat.Same o (some x)) (hv : x.Eqv v) :
    Option.Rel BinaryFloat.Same o (some v) := by
  cases h with
  | some hsame => exact .some (hsame.trans_eqv hv)

/-- A value that is held already changes nothing, except perhaps the sign of a zero. -/
theorem sameAs_assign_of_holds {l : TelemetryLoop} {t : TelemetryState} {signal : SignalUpdate}
    (hsame : t.SameAs l.state) (h : l.Holds signal) : t.SameAs (l.state.assign signal).2 := by
  obtain ⟨hvin, hlocked, hlat, hlon, hparking⟩ := hsame
  cases signal with
  | isLocked v => exact ⟨hvin, hlocked.trans h, hlat, hlon, hparking⟩
  | latitude v =>
      obtain ⟨x, hx, heqv⟩ := h
      rw [hx] at hlat
      exact ⟨hvin, hlocked, rel_same_of_eqv hlat heqv, hlon, hparking⟩
  | longitude v =>
      obtain ⟨x, hx, heqv⟩ := h
      rw [hx] at hlon
      exact ⟨hvin, hlocked, hlat, rel_same_of_eqv hlon heqv, hparking⟩
  | parkingActive v => exact ⟨hvin, hlocked, hlat, hlon, hparking.trans h⟩

/-- **The last message has the current values,** whether it was accepted or not. -/
theorem last_attempt (c : FloatText) (vin : String) (es : List TelemetryEvent) {json : Json}
    {ok : Bool} (hlast : (run c vin es).attempts.getLast? = some (json, ok)) :
    (run c vin es).state.Snapshot c json := by
  induction es using List.reverseRecOn with
  | nil => cases hlast
  | append_singleton es e ih =>
      rw [run_concat] at hlast ⊢
      by_cases h : (run c vin es).Holds e.signal
      · rw [attempts_step_of_holds c h] at hlast
        obtain ⟨t, hsame, htext⟩ := ih hlast
        rw [state_step]
        exact ⟨t, sameAs_assign_of_holds hsame h, htext⟩
      · rw [attempts_step_of_not_holds c h, List.getLast?_concat] at hlast
        cases hlast
        exact ⟨_, .refl _, e.time, rfl⟩

theorem lastAccepted_of_last {l : TelemetryLoop} {json : Json}
    (hlast : l.attempts.getLast? = some (json, true)) : l.lastAccepted = some json := by
  obtain ⟨earlier, heq⟩ := List.getLast?_eq_some_iff.1 hlast
  rw [lastAccepted, heq, List.filter_append]
  simp

end TelemetryLoop

open TelemetryLoop (run)

/-- **A value that was lost is not sent again when it is received again.** -/
theorem lost_value_not_sent_again :
    ¬ ∀ (es : List TelemetryEvent) (e : TelemetryEvent) (json : Json),
      (run .exact "VIN" es).attempts.getLast? = some (json, false) →
      (run .exact "VIN" es).Holds e.signal →
      ((run .exact "VIN" es).step .exact e).attempts ≠ (run .exact "VIN" es).attempts := by
  intro h
  refine h [⟨1, .isLocked true, false⟩] ⟨2, .isLocked true, true⟩ _ rfl rfl ?_
  exact TelemetryLoop.attempts_step_of_holds .exact rfl

/-- **When messages are published, and with what.**  After an attempt that succeeded the last
message accepted has the current values.  A value that is held already leads to no attempt, whatever
came of the earlier ones, and any other to one with all current values. -/
theorem telemetry_published_on_change (c : FloatText) (vin : String) (es : List TelemetryEvent) :
    (∀ json, (run c vin es).attempts.getLast? = some (json, true) →
      (run c vin es).lastAccepted = some json ∧ (run c vin es).state.Snapshot c json) ∧
    ∀ e, ((run c vin es).Holds e.signal →
        (run c vin (es ++ [e])).attempts = (run c vin es).attempts) ∧
      (¬ (run c vin es).Holds e.signal →
        (run c vin (es ++ [e])).attempts = (run c vin es).attempts ++
          [((run c vin (es ++ [e])).state.message c e.time, e.published)]) := by
  refine ⟨fun json hlast => ?_, fun e => ?_⟩
  · exact ⟨TelemetryLoop.lastAccepted_of_last hlast, TelemetryLoop.last_attempt c vin es hlast⟩
  · rw [TelemetryLoop.run_concat]
    exact ⟨TelemetryLoop.attempts_step_of_holds c, TelemetryLoop.attempts_step_of_not_holds c⟩

end CloudGatewayClient
