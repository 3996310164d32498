/-
**Events whose calls are answered.**

A start is answered if one of its attempts comes through, and it leaves one session at the operator
if no reply was lost before; a stop is answered if one of its attempts comes through, whatever was
lost before.  An event that is served so does what it is to do: the session is active after an event
that is to start one, and inactive after one that is to stop it.

Main definitions:

* `ParkingOperatorAdaptor.SessionEvent.aim` — what an event is to do;
* `ParkingOperatorAdaptor.Served` — the calls of an event are answered.

Main results:

* `ParkingOperatorAdaptor.isActive_of_served`, `ParkingOperatorAdaptor.agrees_of_served` — the
  session after an event that is served;
* `ParkingOperatorAdaptor.created_processEvent` — only an event that is to start a session makes
  one.
-/

import ParkingFeeService.AdaptorOperatorAgreement

set_option relaxedAutoImplicit false
set_option autoImplicit false

namespace ParkingOperatorAdaptor

open ParkingOperator (Store Uuids handleStart handleStop)

/-! ### Served events -/

/-- What an event is to do: to have a session, to have none, or neither. -/
def SessionEvent.aim : SessionEvent → Option Bool
  | .lockChanged isLocked => some isLocked
  | .manualStart _ => some true
  | .manualStop => some false
  | .queryStatus | .queryRate => none

theorem isSome_startZone_iff (zoneId : String) {event : SessionEvent} :
    (event.startZone zoneId).isSome = true ↔ event.aim = some true := by
  cases event with
  | lockChanged isLocked => cases isLocked <;> simp [SessionEvent.startZone, SessionEvent.aim]
  | _ => simp [SessionEvent.startZone, SessionEvent.aim]

theorem isStop_iff {event : SessionEvent} : event.isStop = true ↔ event.aim = some false := by
  cases event with
  | lockChanged isLocked => cases isLocked <;> simp [SessionEvent.isStop, SessionEvent.aim]
  | _ => simp [SessionEvent.isStop, SessionEvent.aim]

/-- An attempt comes through. -/
def Answered (attempts : ℕ → Delivery) : Prop := ∃ k ≤ maxRetries, attempts k = .delivered

instance (attempts : ℕ → Delivery) : Decidable (Answered attempts) :=
  inferInstanceAs (Decidable (∃ k ≤ maxRetries, attempts k = .delivered))

/-- The reply to an attempt is lost. -/
def Delivery.isReplyLost : Delivery → Bool
  | .replyLost _ => true
  | _ => false

theorem startSafe_iff {attempts : ℕ → Delivery} :
    StartSafe attempts ↔ ∀ k ≤ maxRetries, (∀ j < k, attempts j ≠ .delivered) →
      (attempts k).isReplyLost = false := by
  constructor
  · intro h k hk hunanswered
    cases hd : attempts k with
    | replyLost e => exact absurd hd (h k e ⟨hk, hunanswered⟩)
    | requestLost e => rfl
    | delivered => rfl
  · rintro h k e ⟨hk, hunanswered⟩ hd
    have hlost := h k hk hunanswered
    rw [hd] at hlost
    cases hlost

instance (attempts : ℕ → Delivery) : Decidable (StartSafe attempts) :=
  decidable_of_iff _ startSafe_iff.symm

/-- The calls of an event are answered, and no reply to a start is lost. -/
structure Served (session : Session) (event : SessionEvent) (n : Network) : Prop where
  start : session.isActive = false → event.aim = some true →
    Answered n.attempts ∧ StartSafe n.attempts
  stop : session.isActive = true → event.aim = some false → Answered n.attempts

instance (session : Session) (event : SessionEvent) (n : Network) :
    Decidable (Served session event n) :=
  decidable_of_iff
    ((session.isActive = false → event.aim = some true →
        Answered n.attempts ∧ StartSafe n.attempts) ∧
      (session.isActive = true → event.aim = some false → Answered n.attempts))
    ⟨fun h => ⟨h.1, h.2⟩, fun h => ⟨h.start, h.stop⟩⟩

/-- The network behaves as is needed for agreement. -/
theorem Served.harmless {session : Session} {event : SessionEvent} {n : Network}
    (h : Served session event n) (zoneId : String) : Harmless zoneId session event n :=
  ⟨fun hoff hzone => (h.start hoff ((isSome_startZone_iff zoneId).1 hzone)).2,
    fun hon hstop => .inl (h.stop hon (isStop_iff.1 hstop))⟩

variable {uuids : Uuids} {decoding : ReplyDecoding} {vehicleId zoneId : String}

/-- A start that is answered makes the session active. -/
theorem isActive_start_of_answered {n : Network} (h : Answered n.attempts) (session : Session)
    (store : Store) :
    (startSession (environment uuids decoding n) session vehicleId zoneId store).session.isActive =
      true := by
  rcases postWithRetry_start uuids decoding vehicleId zoneId n.attempts store n.timestamp with
    ⟨k, s, resp, -, -, -, -, hpost⟩ | ⟨e, s, hI, -⟩
  · simp [startSession, environment, hpost]
  · obtain ⟨k, hk, hd⟩ := h
    exact absurd hd (hI.unanswered k (by omega))

/-- A stop of the operator's only active session that is answered makes the session inactive. -/
theorem isActive_stop_of_answered {n : Network} (h : Answered n.attempts) {session : Session}
    {store : Store} (hon : session.isActive = true) (hagrees : Agrees vehicleId session store) :
    (stopSession (environment uuids decoding n) session (activeId session hon)
      store).session.isActive = false := by
  have hone : store.activeFor vehicleId = {activeId session hon} :=
    hagrees.trans (activeIds_of_active hon)
  have hzero : AfterStops vehicleId n.attempts (activeId session hon) 0 store := by
    refine ⟨by simp, ?_, .inl ⟨by simp [NoneLost], hone⟩⟩
    obtain ⟨st, hst, -⟩ : activeId session hon ∈ store.activeFor vehicleId := by
      rw [hone]
      rfl
    simp [hst]
  rcases postWithRetry_stop decoding hzero n.timestamp with
    ⟨k, s, resp, -, -, -, hpost⟩ | ⟨e, s, hI, -⟩
  · simp [stopSession, environment, hpost]
  · obtain ⟨k, hk, hd⟩ := h
    exact absurd hd (hI.unanswered k (by omega))

variable (uuids decoding zoneId) in
/-- **An event that is served does what it is to do.** -/
theorem isActive_of_served {session : Session} {store : Store} {event : SessionEvent} {n : Network}
    (h : Served session event n) (hagrees : Agrees vehicleId session store) :
    (processEvent (environment uuids decoding n) vehicleId zoneId session event
      store).session.isActive = event.aim.getD session.isActive := by
  change (processEvent (environment uuids decoding n) vehicleId zoneId session event
    store).forget.session.isActive = _
  rw [forget_processEvent]
  rcases Bool.eq_false_or_eq_true session.isActive with hactive | hactive
  · rw [dif_pos hactive]
    cases hstop : event.isStop with
    | true =>
        have haim := isStop_iff.1 hstop
        rw [if_pos rfl, haim]
        exact isActive_stop_of_answered (h.stop hactive haim) hactive hagrees
    | false =>
        rw [if_neg Bool.false_ne_true, Effect.idle, hactive]
        cases haim : event.aim with
        | none => rfl
        | some b =>
            cases b with
            | true => rfl
            | false =>
                rw [isStop_iff.2 haim] at hstop
                cases hstop
  · rw [dif_neg (by simp [hactive])]
    cases hzone : event.startZone zoneId with
    | some z =>
        have hsome : (event.startZone zoneId).isSome = true := by rw [hzone]; rfl
        have haim := (isSome_startZone_iff zoneId).1 hsome
        rw [haim]
        exact isActive_start_of_answered (h.start hactive haim).1 session store
    | none =>
        refine hactive.trans ?_
        rw [hactive]
        cases haim : event.aim with
        | none => rfl
        | some b =>
            cases b with
            | false => rfl
            | true =>
                have hsome := (isSome_startZone_iff zoneId).2 haim
                rw [hzone] at hsome
                cases hsome

variable (uuids decoding zoneId) in
/-- Adaptor and operator agree after an event that is served. -/
theorem agrees_of_served {session : Session} {store : Store} {event : SessionEvent} {n : Network}
    (h : Served session event n) (hagrees : Agrees vehicleId session store) :
    Agrees vehicleId
      (processEvent (environment uuids decoding n) vehicleId zoneId session event store).session
      (processEvent (environment uuids decoding n) vehicleId zoneId session event store).world :=
  (agrees_iff uuids decoding zoneId hagrees event n).2 (h.harmless zoneId)

/-! ### What makes sessions -/

/-- A stop makes no session, however often it is tried. -/
theorem created_postWithRetry_stop (decoding : ReplyDecoding) (sessionId : String) (n : Network)
    (store : Store) :
    (postWithRetry (handleStop (.ok ⟨sessionId, n.timestamp⟩)) decoding.stop n.attempts
      store).2.created = store.created := by
  have hhandle : ∀ s : Store,
      (handleStop (.ok ⟨sessionId, n.timestamp⟩) s).2.created = s.created := by
    intro s
    cases hsession : s.sessions sessionId <;> simp [handleStop, hsession]
  have hpost : ∀ k (s : Store), (post (handleStop (.ok ⟨sessionId, n.timestamp⟩)) decoding.stop
      (n.attempts k) s).2.created = s.created := by
    intro k s
    cases n.attempts k with
    | requestLost e => rfl
    | replyLost e => exact hhandle s
    | delivered =>
        rw [← hhandle s]
        rcases hs : handleStop (.ok ⟨sessionId, n.timestamp⟩) s with ⟨result, s'⟩
        cases result <;> simp [post, hs]
  have hstep : ∀ (k : ℕ) (s : Store) (e : String) (s' : Store), s.created = store.created →
      post (handleStop (.ok ⟨sessionId, n.timestamp⟩)) decoding.stop (n.attempts k) s =
        (.error e, s') → s'.created = store.created := by
    intro k s e s' h hs
    have hcreated := hpost k s
    rw [hs] at hcreated
    exact hcreated.trans h
  rcases retry_rule (I := fun _ (s : Store) => s.created = store.created) hstep maxRetries rfl with
    ⟨k, s, r, s', -, hI, hs, hretry⟩ | ⟨e, s, hretry, hI⟩
  · rw [postWithRetry, hretry]
    have hcreated := hpost k s
    rw [hs] at hcreated
    exact hcreated.trans hI
  · rw [postWithRetry, hretry]
    exact hI

/-- **Only an event that is to start a session makes one.** -/
theorem created_processEvent {session : Session} {store : Store} {event : SessionEvent}
    {n : Network} (h : event.aim ≠ some true) :
    (processEvent (environment uuids decoding n) vehicleId zoneId session event
      store).world.created = store.created := by
  rcases processEvent_cases (environment uuids decoding n) vehicleId zoneId session event store with
    hidle | ⟨z, -, hzone, -⟩ | ⟨hon, -, hstop⟩
  · exact congrArg (fun e => e.world.created) hidle
  · have hsome : (event.startZone zoneId).isSome = true := by rw [hzone]; rfl
    exact absurd ((isSome_startZone_iff zoneId).1 hsome) h
  · have hworld : (processEvent (environment uuids decoding n) vehicleId zoneId session event
        store).world = (stopSession (environment uuids decoding n) session (activeId session hon)
        store).world := congrArg Effect.world hstop
    rw [hworld]
    have hcreated := created_postWithRetry_stop decoding (activeId session hon) n store
    rcases hpost : postWithRetry (handleStop (.ok ⟨activeId session hon, n.timestamp⟩))
      decoding.stop n.attempts store with ⟨result, s⟩
    rw [hpost] at hcreated
    cases result <;>
      simpa [Effect.forget, Effect.map, stopSession, environment, hpost] using hcreated

end ParkingOperatorAdaptor
