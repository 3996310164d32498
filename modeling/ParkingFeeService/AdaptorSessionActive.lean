/-
**The published session flag.**

The adaptor publishes `false` when it starts, `true` when it has started a session and `false` when
it has stopped one.  A publication may fail, and is not tried again; but since one is attempted for
every change of the session and for nothing else, the value attempted last is always that of the
session.

The broker's value after an attempt that failed is either the old one or the new one: a call may
fail after it has taken effect.

Main definitions:

* `ParkingOperatorAdaptor.Attempt`, `ParkingOperatorAdaptor.published` — attempted publications;
* `ParkingOperatorAdaptor.BrokerValue` — the values that the broker may hold after them;
* `ParkingOperatorAdaptor.sessionAfter` — the session between two events.

Main results:

* `ParkingOperatorAdaptor.values_published_processEvent` — one event;
* `ParkingOperatorAdaptor.last_published` — the last attempt of a run;
* `ParkingOperatorAdaptor.sessionActive_mirrors` — the flag mirrors the session.
-/

import ParkingFeeService.AdaptorAutomaton

set_option relaxedAutoImplicit false
set_option autoImplicit false

namespace ParkingOperatorAdaptor

variable {W : Type}

/-! ### Publications -/

/-- An attempt to publish the session flag, with its result. -/
structure Attempt where
  value : Bool
  result : Except String Unit

/-- The attempt that a call is, if it publishes the session flag. -/
def Call.attempt : Call → Option Attempt
  | .setBool signal value result =>
      if signal = signalSessionActive then some ⟨value, result⟩ else none
  | _ => none

/-- The publications among a list of calls. -/
def published (calls : List Call) : List Attempt := calls.filterMap Call.attempt

@[simp] theorem published_append (calls calls' : List Call) :
    published (calls ++ calls') = published calls ++ published calls' := List.filterMap_append

/-- What the broker may hold after a list of attempts, if nobody else writes the flag. -/
inductive BrokerValue : List Attempt → Option Bool → Prop
  | before (v : Option Bool) : BrokerValue [] v
  | taken {attempts : List Attempt} {v : Option Bool} (attempt : Attempt) :
      BrokerValue attempts v → BrokerValue (attempts ++ [attempt]) (some attempt.value)
  | lost {attempts : List Attempt} {v : Option Bool} (value : Bool) (e : String) :
      BrokerValue attempts v → BrokerValue (attempts ++ [⟨value, .error e⟩]) v

/-- After an attempt that succeeded the broker holds its value. -/
theorem BrokerValue.eq_of_ok {attempts : List Attempt} {v : Option Bool}
    (h : BrokerValue attempts v) {attempt : Attempt} (hlast : attempts.getLast? = some attempt)
    (hok : attempt.result = .ok ()) : v = some attempt.value := by
  cases h with
  | before v => cases hlast
  | taken attempt' _ =>
      rw [List.getLast?_concat] at hlast
      cases hlast
      rfl
  | lost value e _ =>
      rw [List.getLast?_concat] at hlast
      cases hlast
      cases hok

/-! ### One event -/

variable (env : Environment W)

/-- **One event publishes the session's new value if it changes it**, and nothing otherwise. -/
theorem values_published_processEvent (vehicleId zoneId : String) (session : Session)
    (event : SessionEvent) (w : W) :
    (published (processEvent env vehicleId zoneId session event w).calls).map Attempt.value =
      if (processEvent env vehicleId zoneId session event w).session.isActive = session.isActive
        then []
      else [(processEvent env vehicleId zoneId session event w).session.isActive] := by
  rcases processEvent_cases env vehicleId zoneId session event w with
    hidle | ⟨z, hinactive, -, hstart⟩ | ⟨hactive, -, hstop⟩
  · obtain ⟨hsession, hcalls⟩ := session_calls_of_forget (f := .idle session w ()) hidle
    rw [hsession, hcalls]
    simp [Effect.idle, published]
  · obtain ⟨hsession, hcalls⟩ := session_calls_of_forget hstart
    rw [hsession, hcalls]
    rcases startSession_cases env session vehicleId z w with
      ⟨resp, result, startTime, hs, hc⟩ | ⟨e, hs, hc⟩
    · rw [hs, hc, Session.isActive_start, hinactive]
      rfl
    · rw [hs, hc]
      simp [published, Call.attempt]
  · obtain ⟨hsession, hcalls⟩ := session_calls_of_forget hstop
    rw [hsession, hcalls]
    rcases stopSession_cases env session (activeId session hactive) w with
      ⟨resp, result, hs, hc⟩ | ⟨e, hs, hc⟩
    · rw [hs, hc, Session.isActive_new, hactive]
      rfl
    · rw [hs, hc]
      simp [published, Call.attempt]

/-- The value attempted last, when it was that of the session before the event. -/
theorem last_concat_published (vehicleId zoneId : String) {session : Session} {event : SessionEvent}
    {w : W} {attempts : List Attempt}
    (h : attempts.getLast?.map Attempt.value = some session.isActive) :
    (attempts ++ published (processEvent env vehicleId zoneId session event w).calls).getLast?.map
        Attempt.value =
      some (processEvent env vehicleId zoneId session event w).session.isActive := by
  have hvalues := values_published_processEvent env vehicleId zoneId session event w
  rw [← List.getLast?_map, List.map_append, hvalues]
  split
  · next hsame => rw [List.append_nil, List.getLast?_map, h, hsame]
  · simp

/-! ### Every run -/

/-- The session after the steps of a run. -/
def sessionAfter (session : Session) (steps : List (Step W)) : Session :=
  (steps.getLast?.map fun s => s.effect.session).getD session

theorem sessionAfter_cons (session : Session) (s : Step W) (steps : List (Step W)) :
    sessionAfter session (s :: steps) = sessionAfter s.effect.session steps := by
  rw [sessionAfter, sessionAfter, List.getLast?_cons]
  cases steps.getLast? <;> rfl

/-- The value attempted last is that of the session, at the end of every run. -/
theorem last_published (vehicleId zoneId : String) (events : List (SessionEvent × Environment W)) :
    ∀ {session : Session} {w : W} {attempts : List Attempt},
      attempts.getLast?.map Attempt.value = some session.isActive →
        (attempts ++ published (callsOf (runEventLoop vehicleId zoneId session w
            events))).getLast?.map Attempt.value =
          some (sessionAfter session
            (runEventLoop vehicleId zoneId session w events)).isActive := by
  induction events with
  | nil =>
      intro session w attempts h
      simpa [runEventLoop, callsOf, published, sessionAfter] using h
  | cons head events ih =>
      obtain ⟨event, env⟩ := head
      intro session w attempts h
      rw [runEventLoop, sessionAfter_cons, callsOf, List.flatMap_cons, published_append,
        ← List.append_assoc]
      exact ih (last_concat_published env vehicleId zoneId h)

/-- Every step of a run publishes the session's new value if it changes it, and nothing
otherwise. -/
theorem values_published_step (vehicleId zoneId : String)
    (events : List (SessionEvent × Environment W)) :
    ∀ {session : Session} {w : W}, ∀ s ∈ runEventLoop vehicleId zoneId session w events,
      (published s.effect.calls).map Attempt.value =
        if s.effect.session.isActive = s.session.isActive then [] else
          [s.effect.session.isActive] := by
  induction events with
  | nil => intro session w s hs; cases hs
  | cons head events ih =>
      obtain ⟨event, env⟩ := head
      intro session w s hs
      rcases List.mem_cons.1 hs with rfl | hs
      · exact values_published_processEvent env vehicleId zoneId session event w
      · exact ih s hs

/-- **The published flag mirrors the session.**  Between two events, counting the publication of
`false` at startup, the value attempted last is that of the session; every event attempts one
publication if it changes the session's value, and none otherwise; and if the last attempt
succeeded, the broker holds the session's value. -/
theorem sessionActive_mirrors (vehicleId zoneId : String) (w : W) (startup : Except String Unit)
    (events : List (SessionEvent × Environment W)) :
    let steps := runEventLoop vehicleId zoneId .new w events
    let attempts := ⟨false, startup⟩ :: published (callsOf steps)
    let session := sessionAfter .new steps
    attempts.getLast?.map Attempt.value = some session.isActive ∧
      (∀ s ∈ steps, (published s.effect.calls).map Attempt.value =
        if s.effect.session.isActive = s.session.isActive then [] else
          [s.effect.session.isActive]) ∧
      ∀ v attempt, BrokerValue attempts v → attempts.getLast? = some attempt →
        attempt.result = .ok () → v = some session.isActive := by
  intro steps attempts session
  have hlast : attempts.getLast?.map Attempt.value = some session.isActive :=
    @last_published W vehicleId zoneId events .new w [⟨false, startup⟩] rfl
  refine ⟨hlast, values_published_step vehicleId zoneId events, ?_⟩
  intro v attempt hvalue hattempt hok
  rw [hvalue.eq_of_ok hattempt hok, ← hlast, hattempt]
  rfl

end ParkingOperatorAdaptor
