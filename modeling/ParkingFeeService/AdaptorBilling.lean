/-
**The bills of the adaptor's sessions.**

The operator bills a session anew for every stop that arrives.  The adaptor repeats a stop with the
time of its first attempt, and comes back with another time only if the whole call has failed.  So
its sessions are billed rightly, to their first stop and for good, if its clock does not go
backwards and no stop fails of which a reply was lost.  Starts of which a reply is lost leave
sessions behind, which are never billed.  The bodies of the replies that arrive can be read.

Main definitions:

* `ParkingOperatorAdaptor.arrivals` — how often a request arrives at the operator;
* `ParkingOperatorAdaptor.requestsThroughout` — all requests of a run that arrive;
* `ParkingOperatorAdaptor.StopsSafe` — a reply to every stop arrives, or none is lost.

Main results:

* `ParkingOperatorAdaptor.world_processEvent`, `ParkingOperatorAdaptor.world_runEventLoop` — the
  operator after an event, and after a run, has served the requests that have arrived;
* `ParkingOperatorAdaptor.sound_billing_of_run` — **the bills of a run.**
-/

import ParkingFeeService.AdaptorAnswered
import ParkingFeeService.OperatorBilling

set_option relaxedAutoImplicit false
set_option autoImplicit false

namespace ParkingOperator

/-! ### Histories without a request that spoils a bill -/

/-- No request of the list spoils a bill. -/
def SteadyRun (uuids : Uuids) : Ledger → List Request → Prop
  | _, [] => True
  | l, r :: rs => l.Steady r ∧ SteadyRun uuids (l.serve uuids r) rs

variable {uuids : Uuids}

theorem steadyRun_append {rs rs' : List Request} : ∀ {l : Ledger}, SteadyRun uuids l (rs ++ rs') ↔
    SteadyRun uuids l rs ∧ SteadyRun uuids (rs.foldl (Ledger.serve uuids) l) rs' := by
  induction rs with
  | nil => exact fun {l} => iff_of_eq (true_and _).symm
  | cons r rs ih =>
      intro l
      rw [List.cons_append, SteadyRun, ih, SteadyRun, and_assoc]
      rfl

/-- A history without such a request is billed rightly. -/
theorem SteadyRun.soundBilling {rs : List Request} (h : SteadyRun uuids newLedger rs) :
    SoundBilling uuids rs := by
  have hsteady : ∀ p r, p ++ [r] <+: rs → (ledgerAfter uuids p).Steady r := by
    rintro p r ⟨rest, rfl⟩
    exact (steadyRun_append.1 (steadyRun_append.1 h).1).2.1
  refine ⟨fun p hp => ?_, fun p r hp => ?_⟩
  · exact (steadied_ledgerAfter fun q r hq => hsteady q r (hq.trans hp)).billed
      (coherent_ledgerAfter uuids p)
  · rw [ledgerAfter_concat]
    exact Ledger.billsKept_of_steady (coherent_ledgerAfter uuids p) (hsteady p r hp)

/-- No session of the ledger was started after the time. -/
def Ledger.DatedBy (l : Ledger) (timestamp : Int64) : Prop :=
  ∀ id session, l.store.sessions id = some session → session.startTime ≤ timestamp

/-- The request is no start after the time. -/
def Request.StartsBy (timestamp : Int64) : Request → Prop
  | .start (.ok req) => req.timestamp ≤ timestamp
  | _ => True

theorem Ledger.DatedBy.serve {l : Ledger} {timestamp : Int64} {r : Request}
    (h : l.DatedBy timestamp) (hr : r.StartsBy timestamp) :
    (l.serve uuids r).DatedBy timestamp := by
  rcases Ledger.serve_cases uuids l r with heq | ⟨req, rfl, heq⟩ | ⟨req, other, rfl, hother, heq⟩
  · rwa [heq]
  · rw [heq]
    intro id session hsession
    by_cases hnew : id = uuids.gen l.store.created
    · subst hnew
      simp only [Ledger.opened, handleStart, Function.update_self] at hsession
      cases hsession
      exact hr
    · rw [Ledger.sessions_opened_of_ne uuids l req hnew] at hsession
      exact h id session hsession
  · rw [heq]
    intro id session hsession
    by_cases hself : id = req.sessionId
    · subst hself
      rw [Ledger.sessions_stopped_self] at hsession
      cases hsession
      exact h _ other hother
    · rw [Ledger.sessions_stopped_of_ne l req other hself] at hsession
      exact h id session hsession

theorem Ledger.DatedBy.foldl {timestamp : Int64} {rs : List Request}
    (hrs : ∀ r ∈ rs, r.StartsBy timestamp) :
    ∀ {l : Ledger}, l.DatedBy timestamp →
      (rs.foldl (Ledger.serve uuids) l).DatedBy timestamp := by
  induction rs with
  | nil => exact fun h => h
  | cons r rs ih =>
      intro l h
      exact ih (fun r' hr' => hrs r' (List.mem_cons_of_mem _ hr'))
        (h.serve (hrs r List.mem_cons_self))

/-- A session that is known stays known. -/
theorem Ledger.known_serve {l : Ledger} {id : String} (h : (l.store.sessions id).isSome = true)
    (r : Request) : ((l.serve uuids r).store.sessions id).isSome = true := by
  rcases Ledger.serve_cases uuids l r with heq | ⟨req, rfl, heq⟩ | ⟨req, other, rfl, hother, heq⟩
  · rwa [heq]
  · rw [heq]
    by_cases hnew : id = uuids.gen l.store.created
    · obtain ⟨session, hsession, -⟩ := Ledger.exists_sessions_opened uuids l req
      rw [hnew, hsession]
      rfl
    · rwa [Ledger.sessions_opened_of_ne uuids l req hnew]
  · rw [heq]
    by_cases hself : id = req.sessionId
    · rw [hself, Ledger.sessions_stopped_self]
      rfl
    · rwa [Ledger.sessions_stopped_of_ne l req other hself]

theorem Ledger.known_foldl {id : String} {rs : List Request} :
    ∀ {l : Ledger}, (l.store.sessions id).isSome = true →
      ((rs.foldl (Ledger.serve uuids) l).store.sessions id).isSome = true := by
  induction rs with
  | nil => exact fun h => h
  | cons r rs ih => exact fun h => ih (Ledger.known_serve h r)

/-- A session that may be stopped at the time: it was started before, and if it was stopped, it was
so at this time. -/
def Ledger.Stoppable (l : Ledger) (id : String) (timestamp : Int64) : Prop :=
  ∃ session, l.store.sessions id = some session ∧
    (session.status = "active" → session.startTime ≤ timestamp) ∧
    (session.status = "stopped" → timestamp = session.stopTime)

theorem Ledger.Stoppable.steady {l : Ledger} {id : String} {timestamp : Int64}
    (h : l.Stoppable id timestamp) : l.Steady (.stop (.ok ⟨id, timestamp⟩)) := by
  obtain ⟨session, hsession, hmay⟩ := h
  intro session' hsession'
  cases hsession.symm.trans hsession'
  exact hmay

theorem Ledger.Stoppable.serve {l : Ledger} {id : String} {timestamp : Int64}
    (h : l.Stoppable id timestamp) :
    (l.serve uuids (.stop (.ok ⟨id, timestamp⟩))).Stoppable id timestamp := by
  obtain ⟨session, hsession, -⟩ := h
  rw [Ledger.serve_stop_of_known hsession]
  refine ⟨session.stop timestamp, Ledger.sessions_stopped_self l ⟨id, timestamp⟩ session,
    fun hactive => ?_, fun _ => rfl⟩
  exact absurd hactive (by decide : "stopped" ≠ "active")

end ParkingOperator

namespace ParkingOperatorAdaptor

open ParkingOperator

/-! ### What arrives -/

/-- The attempts `k, …, k + n` of a request, as far as they arrive: those that are not lost, up to
the one that is answered. -/
def arrivals (r : Request) (attempts : ℕ → Delivery) : ℕ → ℕ → List Request
  | 0, k =>
      match attempts k with
      | .requestLost _ => []
      | .replyLost _ | .delivered => [r]
  | n + 1, k =>
      match attempts k with
      | .requestLost _ => arrivals r attempts n (k + 1)
      | .replyLost _ => r :: arrivals r attempts n (k + 1)
      | .delivered => [r]

theorem eq_of_mem_arrivals {r r' : Request} {attempts : ℕ → Delivery} {n : ℕ} :
    ∀ {k : ℕ}, r' ∈ arrivals r attempts n k → r' = r := by
  induction n with
  | zero =>
      intro k h
      rw [arrivals] at h
      split at h
      · cases h
      · exact List.mem_singleton.1 h
      · exact List.mem_singleton.1 h
  | succ n ih =>
      intro k h
      rw [arrivals] at h
      split at h
      · exact ih h
      · rcases List.mem_cons.1 h with h | h
        · exact h
        · exact ih h
      · exact List.mem_singleton.1 h

theorem arrivals_eq_nil {r : Request} {attempts : ℕ → Delivery} {n : ℕ} :
    ∀ {k : ℕ}, (∀ j, k ≤ j → j ≤ k + n → ∃ e, attempts j = .requestLost e) →
      arrivals r attempts n k = [] := by
  induction n with
  | zero =>
      intro k h
      obtain ⟨e, he⟩ := h k le_rfl le_rfl
      simp [arrivals, he]
  | succ n ih =>
      intro k h
      obtain ⟨e, he⟩ := h k le_rfl (by omega)
      simp only [arrivals, he]
      exact ih fun j hj hj' => h j (by omega) (by omega)

section

variable {α β : Type} {uuids : Uuids} {handle : Store → Except RequestError α × Store}
  {decode : α → β} {r : Request} {P : Ledger → Prop}

variable (uuids r) in
/-- **A call serves what arrives**, if the operator answers the request with success. -/
theorem retryFrom_arrivals (hstore : ∀ l : Ledger, (handle l.store).2 = (l.serve uuids r).store)
    (hok : ∀ l, P l → ∃ resp, (handle l.store).1 = .ok resp)
    (hkeep : ∀ l, P l → P (l.serve uuids r)) (attempts : ℕ → Delivery) (n : ℕ) :
    ∀ {k : ℕ} {l : Ledger}, P l →
      (retryFrom (fun k => post handle decode (attempts k)) n k l.store).2 =
        ((arrivals r attempts n k).foldl (Ledger.serve uuids) l).store := by
  -- an attempt that is answered ends the call
  have hdelivered : ∀ l : Ledger, P l → ∃ resp, post handle decode .delivered l.store =
      (.ok resp, (l.serve uuids r).store) := by
    intro l hl
    obtain ⟨resp, hresp⟩ := hok l hl
    rw [← hstore l]
    rcases hhandle : handle l.store with ⟨result, s⟩
    rw [hhandle] at hresp
    cases hresp
    exact ⟨decode resp, by simp [post, hhandle]⟩
  induction n with
  | zero =>
      intro k l hl
      rw [retryFrom, arrivals]
      cases hd : attempts k with
      | requestLost e => rfl
      | replyLost e => exact hstore l
      | delivered =>
          obtain ⟨resp, hpost⟩ := hdelivered l hl
          rw [hpost]
          rfl
  | succ n ih =>
      intro k l hl
      rw [retryFrom, arrivals]
      cases hd : attempts k with
      | requestLost e => exact ih hl
      | replyLost e =>
          simp only [post, hstore l]
          exact ih (hkeep l hl)
      | delivered =>
          obtain ⟨resp, hpost⟩ := hdelivered l hl
          simp only [hpost]
          rfl

end

variable {uuids : Uuids} {decoding : ReplyDecoding} {vehicleId zoneId : String}

theorem snd_postWithRetry {α β : Type} (handle : Store → Except RequestError α × Store)
    (decode : α → β) (attempts : ℕ → Delivery) (s : Store) :
    (postWithRetry handle decode attempts s).2 =
      (retryFrom (fun k => post handle decode (attempts k)) maxRetries 0 s).2 := by
  rw [postWithRetry, retry]
  rcases retryFrom (fun k => post handle decode (attempts k)) maxRetries 0 s with ⟨result, s'⟩
  cases result <;> rfl

/-- The request of a start. -/
def startRequest (vehicleId zoneId : String) (n : Network) : Request :=
  .start (.ok ⟨vehicleId, zoneId, n.timestamp⟩)

/-- The request of a stop. -/
def stopRequest (sessionId : String) (n : Network) : Request := .stop (.ok ⟨sessionId, n.timestamp⟩)

variable (uuids decoding vehicleId zoneId) in
theorem world_start (session : Session) (n : Network) (l : Ledger) :
    (startSession (environment uuids decoding n) session vehicleId zoneId l.store).world =
      ((arrivals (startRequest vehicleId zoneId n) n.attempts maxRetries 0).foldl
        (Ledger.serve uuids) l).store := by
  have hpost := snd_postWithRetry (handleStart uuids (.ok ⟨vehicleId, zoneId, n.timestamp⟩))
    decoding.start n.attempts l.store
  rw [retryFrom_arrivals uuids (startRequest vehicleId zoneId n) (P := fun _ => True)
    (fun _ => rfl) (fun _ _ => ⟨_, rfl⟩) (fun _ _ => trivial) n.attempts maxRetries
    trivial] at hpost
  rw [← hpost]
  rcases h : postWithRetry (handleStart uuids (.ok ⟨vehicleId, zoneId, n.timestamp⟩)) decoding.start
    n.attempts l.store with ⟨result, s⟩
  cases result <;> simp [startSession, environment, h]

theorem world_stop (session : Session) {sessionId : String} (n : Network) {l : Ledger}
    (hknown : (l.store.sessions sessionId).isSome = true) :
    (stopSession (environment uuids decoding n) session sessionId l.store).world =
      ((arrivals (stopRequest sessionId n) n.attempts maxRetries 0).foldl
        (Ledger.serve uuids) l).store := by
  have hpost := snd_postWithRetry (handleStop (.ok ⟨sessionId, n.timestamp⟩))
    decoding.stop n.attempts l.store
  rw [retryFrom_arrivals uuids (stopRequest sessionId n)
    (P := fun l => (l.store.sessions sessionId).isSome = true) (fun _ => rfl)
    (fun l hl => handleStop_of_known ⟨sessionId, n.timestamp⟩ hl)
    (fun l hl => isSome_handleStop hl) n.attempts maxRetries hknown] at hpost
  rw [← hpost]
  rcases h : postWithRetry (handleStop (.ok ⟨sessionId, n.timestamp⟩)) decoding.stop
    n.attempts l.store with ⟨result, s⟩
  cases result <;> simp [stopSession, environment, h]

/-- The requests that arrive while an event is handled. -/
def requestsOf (vehicleId zoneId : String) (session : Session) (event : SessionEvent)
    (n : Network) :
    List Request :=
  if h : session.isActive = true then
    if event.isStop = true then
      arrivals (stopRequest (activeId session h) n) n.attempts maxRetries 0
    else []
  else
    match event.startZone zoneId with
    | some z => arrivals (startRequest vehicleId z n) n.attempts maxRetries 0
    | none => []

/-- The operator knows the active session. -/
def Known (session : Session) (l : Ledger) : Prop :=
  ∀ h : session.isActive = true, (l.store.sessions (activeId session h)).isSome = true

variable (uuids decoding vehicleId zoneId) in
/-- **The operator after an event** has served the requests that have arrived. -/
theorem world_processEvent {session : Session} (event : SessionEvent) (n : Network) {l : Ledger}
    (hknown : Known session l) :
    (processEvent (environment uuids decoding n) vehicleId zoneId session event l.store).world =
      ((requestsOf vehicleId zoneId session event n).foldl (Ledger.serve uuids) l).store := by
  have hforget := congrArg Effect.world
    (forget_processEvent (environment uuids decoding n) vehicleId zoneId session event l.store)
  refine Eq.trans hforget ?_
  rw [requestsOf]
  by_cases hactive : session.isActive = true
  · rw [dif_pos hactive, dif_pos hactive]
    split
    · exact world_stop session n (hknown hactive)
    · rfl
  · rw [dif_neg hactive, dif_neg hactive]
    cases event.startZone zoneId with
    | some z => exact world_start uuids decoding vehicleId z session n l
    | none => rfl

/-! ### One event -/

/-- The operator has the active session, and has it as an active one. -/
def KnownActive (session : Session) (l : Ledger) : Prop :=
  ∀ h : session.isActive = true, ∃ s, l.store.sessions (activeId session h) = some s ∧
    s.status = "active"

theorem knownActive_of_inactive {session : Session} (h : session.isActive = false) (l : Ledger) :
    KnownActive session l := fun hactive => by
  rw [h] at hactive
  cases hactive

theorem KnownActive.known {session : Session} {l : Ledger} (h : KnownActive session l) :
    Known session l := by
  intro hactive
  obtain ⟨s, hs, -⟩ := h hactive
  rw [hs]
  rfl

theorem steadyRun_of_stoppable {sessionId : String} {n : Network} {rs : List Request}
    (hrs : ∀ r ∈ rs, r = stopRequest sessionId n) :
    ∀ {l : Ledger}, l.Stoppable sessionId n.timestamp → SteadyRun uuids l rs := by
  induction rs with
  | nil => exact fun _ => trivial
  | cons r rs ih =>
      intro l h
      rw [hrs r List.mem_cons_self]
      exact ⟨h.steady, ih (fun r' hr' => hrs r' (List.mem_cons_of_mem _ hr')) h.serve⟩

theorem steadyRun_of_starts {vehicleId zoneId : String} {n : Network} {rs : List Request}
    (hrs : ∀ r ∈ rs, r = startRequest vehicleId zoneId n) :
    ∀ {l : Ledger}, SteadyRun uuids l rs := by
  induction rs with
  | nil => exact trivial
  | cons r rs ih =>
      intro l
      rw [hrs r List.mem_cons_self]
      exact ⟨trivial, ih fun r' hr' => hrs r' (List.mem_cons_of_mem _ hr')⟩

/-- A stop of a known session that fails was answered by none of its attempts. -/
theorem unanswered_of_stop_failed {sessionId : String} {attempts : ℕ → Delivery} {s s' : Store}
    {timestamp : Int64} {e : OperatorError} (hknown : (s.sessions sessionId).isSome = true)
    (h : postWithRetry (handleStop (.ok ⟨sessionId, timestamp⟩)) decoding.stop attempts s =
      (.error e, s')) : ¬ Answered attempts := by
  have hstep : ∀ (k : ℕ) (s : Store) (e : String) (s' : Store),
      (s.sessions sessionId).isSome = true ∧ (∀ j < k, attempts j ≠ .delivered) →
      post (handleStop (.ok ⟨sessionId, timestamp⟩)) decoding.stop (attempts k) s = (.error e, s') →
      (s'.sessions sessionId).isSome = true ∧ ∀ j < k + 1, attempts j ≠ .delivered := by
    rintro k s e s' ⟨hs, hunanswered⟩ hpost
    rcases post_eq_error hpost with ⟨hd, rfl⟩ | ⟨hd, rfl⟩ | ⟨-, err, herr⟩
    · exact ⟨hs, Nat.forall_lt_succ_right.2 ⟨hunanswered, by simp [hd]⟩⟩
    · exact ⟨isSome_handleStop hs, Nat.forall_lt_succ_right.2 ⟨hunanswered, by simp [hd]⟩⟩
    · obtain ⟨resp, hok⟩ := handleStop_of_known ⟨sessionId, timestamp⟩ hs
      rw [hok] at herr
      cases herr
  rcases retry_rule (I := fun k (s : Store) => (s.sessions sessionId).isSome = true ∧
      ∀ j < k, attempts j ≠ .delivered) hstep maxRetries ⟨hknown, by simp⟩ with
    ⟨k, s₁, r, s₂, -, -, -, hretry⟩ | ⟨e', s₁, -, -, hunanswered⟩
  · rw [postWithRetry, hretry] at h
    cases h
  · rintro ⟨k, hk, hd⟩
    exact hunanswered k (by omega) hd

/-- A stop that fails safely has not arrived. -/
theorem arrivals_of_stopSafe {r : Request} {attempts : ℕ → Delivery} (hsafe : StopSafe attempts)
    (hunanswered : ¬ Answered attempts) : arrivals r attempts maxRetries 0 = [] := by
  have hnone : NoneLost attempts (maxRetries + 1) := hsafe.resolve_left hunanswered
  refine arrivals_eq_nil fun j _ hj => ?_
  cases hd : attempts j with
  | requestLost e => exact ⟨e, rfl⟩
  | replyLost e => exact absurd hd (hnone j (by omega) e)
  | delivered => exact absurd ⟨j, by omega, hd⟩ hunanswered

variable (uuids decoding vehicleId zoneId) in
/-- **The session after an event**: none is active; or the one that was is kept, and no stop of it
was answered; or the operator has it as an active one. -/
theorem session_processEvent {session : Session} (event : SessionEvent) (n : Network) {l : Ledger}
    (hknown : Known session l) :
    let after :=
      (processEvent (environment uuids decoding n) vehicleId zoneId session event l.store).session
    after.isActive = false ∨
      (after = session ∧ session.isActive = true ∧
        (event.isStop = true → ¬ Answered n.attempts)) ∨
      KnownActive after
        ((requestsOf vehicleId zoneId session event n).foldl (Ledger.serve uuids) l) := by
  have hsession : (processEvent (environment uuids decoding n) vehicleId zoneId session event
      l.store).session = (processEvent (environment uuids decoding n) vehicleId zoneId session event
      l.store).forget.session := rfl
  rw [hsession, forget_processEvent, requestsOf]
  by_cases hon : session.isActive = true
  · rw [dif_pos hon, dif_pos hon]
    by_cases hstopping : event.isStop = true
    · rw [if_pos hstopping]
      -- the session is dropped, or the stop has failed
      rcases hpost : postWithRetry (handleStop (.ok ⟨activeId session hon, n.timestamp⟩))
        decoding.stop n.attempts l.store with ⟨result, s'⟩
      cases result with
      | ok resp =>
          refine .inl ?_
          simp [Effect.forget, Effect.map, stopSession, environment, hpost]
      | error e =>
          refine .inr (.inl ⟨?_, hon, fun _ => unanswered_of_stop_failed (hknown hon) hpost⟩)
          simp [Effect.forget, Effect.map, stopSession, environment, hpost]
    · rw [if_neg hstopping]
      exact .inr (.inl ⟨rfl, hon, fun h => absurd h hstopping⟩)
  · have hoff : session.isActive = false := by simpa using hon
    rw [dif_neg hon, dif_neg hon]
    cases event.startZone zoneId with
    | none => exact .inl hoff
    | some z =>
        have hworld := world_start uuids decoding vehicleId z session n l
        rcases postWithRetry_start uuids decoding vehicleId z n.attempts l.store n.timestamp with
          ⟨k, s, resp, -, -, -, hid, hpost⟩ | ⟨e, s, -, hpost⟩
        · -- the session that the adaptor gets to know of was made last
          have heffect : startSession (environment uuids decoding n) session vehicleId z l.store =
              ⟨session.start resp.sessionId z n.startTime
                  ⟨resp.rate.rateType, resp.rate.amount, resp.rate.currency⟩,
                (handleStart uuids (.ok ⟨vehicleId, z, n.timestamp⟩) s).2,
                [.startSession vehicleId z (.ok resp),
                  .setBool signalSessionActive true n.published], .ok resp⟩ := by
            simp [startSession, environment, hpost]
          have hnew : ∃ st, (handleStart uuids (.ok ⟨vehicleId, z, n.timestamp⟩) s).2.sessions
              (uuids.gen s.created) = some st ∧ st.status = "active" :=
            ⟨_, Function.update_self .., rfl⟩
          refine .inr (.inr ?_)
          dsimp only
          rw [heffect] at hworld ⊢
          intro h
          rw [← hworld]
          rw [← hid] at hnew
          exact hnew
        · refine .inl ?_
          simp [Effect.forget, Effect.map, startSession, environment, hpost, hoff]

variable (uuids decoding vehicleId zoneId) in
/-- The operator knows the active session after an event. -/
theorem known_processEvent {session : Session} (event : SessionEvent) (n : Network) {l : Ledger}
    (hknown : Known session l) :
    Known
      (processEvent (environment uuids decoding n) vehicleId zoneId session event l.store).session
      ((requestsOf vehicleId zoneId session event n).foldl (Ledger.serve uuids) l) := by
  rcases session_processEvent uuids decoding vehicleId zoneId event n hknown with
    hoff | ⟨hsame, -, -⟩ | hactive
  · exact (knownActive_of_inactive hoff _).known
  · rw [hsame]
    exact fun h => Ledger.known_foldl (hknown h)
  · exact hactive.known

variable (uuids decoding vehicleId zoneId) in
/-- The operator has the session as an active one after an event, if a reply to a stop arrives or
none is lost. -/
theorem knownActive_processEvent {session : Session} {event : SessionEvent} {n : Network}
    {l : Ledger} (hactive : KnownActive session l)
    (hstop : session.isActive = true → event.isStop = true → StopSafe n.attempts) :
    KnownActive
      (processEvent (environment uuids decoding n) vehicleId zoneId session event l.store).session
      ((requestsOf vehicleId zoneId session event n).foldl (Ledger.serve uuids) l) := by
  rcases session_processEvent uuids decoding vehicleId zoneId event n hactive.known with
    hoff | ⟨hsame, hon, hunanswered⟩ | hafter
  · exact knownActive_of_inactive hoff _
  · rw [hsame, requestsOf, dif_pos hon]
    by_cases hstopping : event.isStop = true
    · rw [if_pos hstopping, arrivals_of_stopSafe (hstop hon hstopping) (hunanswered hstopping)]
      exact hactive
    · rw [if_neg hstopping]
      exact hactive
  · exact hafter

/-- **One event spoils no bill**, if the sessions there are were not started later. -/
theorem steadyRun_requestsOf {session : Session} {event : SessionEvent} {n : Network} {l : Ledger}
    (hactive : KnownActive session l) (hdated : l.DatedBy n.timestamp) :
    SteadyRun uuids l (requestsOf vehicleId zoneId session event n) := by
  rw [requestsOf]
  split
  · next hon =>
      split
      · obtain ⟨s, hs, hstatus⟩ := hactive hon
        have hstoppable : l.Stoppable (activeId session hon) n.timestamp := by
          refine ⟨s, hs, fun _ => hdated _ s hs, fun hstopped => ?_⟩
          rw [hstatus] at hstopped
          exact absurd hstopped (by decide)
        exact steadyRun_of_stoppable (fun r hr => eq_of_mem_arrivals hr) hstoppable
      · exact trivial
  · split
    · exact steadyRun_of_starts fun r hr => eq_of_mem_arrivals hr
    · exact trivial

/-! ### Every run -/

variable (uuids decoding vehicleId zoneId)

/-- The requests that arrive in a run. -/
def requestsThroughout : Session → Store → List (SessionEvent × Network) → List Request
  | _, _, [] => []
  | session, store, (event, n) :: events =>
      let effect := processEvent (environment uuids decoding n) vehicleId zoneId session event store
      requestsOf vehicleId zoneId session event n ++
        requestsThroughout effect.session effect.world events

/-- A reply to every stop of a run arrives, or none is lost. -/
def StopsSafe : Session → Store → List (SessionEvent × Network) → Prop
  | _, _, [] => True
  | session, store, (event, n) :: events =>
      let effect := processEvent (environment uuids decoding n) vehicleId zoneId session event store
      (session.isActive = true → event.isStop = true → StopSafe n.attempts) ∧
        StopsSafe effect.session effect.world events

/-- The operator after a run. -/
def storeAfter (store : Store) (steps : List (Step Store)) : Store :=
  (steps.getLast?.map fun s => s.effect.world).getD store

theorem storeAfter_cons (store : Store) (s : Step Store) (steps : List (Step Store)) :
    storeAfter store (s :: steps) = storeAfter s.effect.world steps := by
  rw [storeAfter, storeAfter, List.getLast?_cons]
  cases steps.getLast? <;> rfl

theorem startsBy_of_mem_requestsOf {session : Session} {event : SessionEvent} {n : Network}
    {r : Request} {timestamp : Int64} (h : r ∈ requestsOf vehicleId zoneId session event n)
    (hle : n.timestamp ≤ timestamp) : r.StartsBy timestamp := by
  rw [requestsOf] at h
  split at h
  · split at h
    · rw [eq_of_mem_arrivals h]
      trivial
    · cases h
  · split at h
    · rw [eq_of_mem_arrivals h]
      exact hle
    · cases h

/-- **The operator after a run** has served the requests that have arrived. -/
theorem world_runEventLoop (events : List (SessionEvent × Network)) :
    ∀ {session : Session} {l : Ledger}, Known session l →
      storeAfter l.store (runEventLoop vehicleId zoneId session l.store
        (events.map (behind uuids decoding))) =
          ((requestsThroughout uuids decoding vehicleId zoneId session l.store events).foldl
            (Ledger.serve uuids) l).store := by
  induction events with
  | nil => exact fun _ => rfl
  | cons p events ih =>
      obtain ⟨event, n⟩ := p
      intro session l hknown
      have hworld := world_processEvent uuids decoding vehicleId zoneId event n hknown
      rw [List.map_cons, behind, runEventLoop, storeAfter_cons, requestsThroughout,
        List.foldl_append]
      dsimp only
      rw [hworld]
      exact ih (known_processEvent uuids decoding vehicleId zoneId event n hknown)

/-- The requests of a run spoil no bill. -/
theorem steadyRun_requestsThroughout (events : List (SessionEvent × Network)) :
    ∀ {session : Session} {l : Ledger}, KnownActive session l →
      (∀ p ∈ events, l.DatedBy p.2.timestamp) →
      events.Pairwise (fun p q => p.2.timestamp ≤ q.2.timestamp) →
      StopsSafe uuids decoding vehicleId zoneId session l.store events →
        SteadyRun uuids l
          (requestsThroughout uuids decoding vehicleId zoneId session l.store events) := by
  induction events with
  | nil => exact fun _ _ _ _ => trivial
  | cons p events ih =>
      obtain ⟨event, n⟩ := p
      intro session l hactive hdated hclock hstops
      obtain ⟨hlater, hclock⟩ := List.pairwise_cons.1 hclock
      obtain ⟨hstop, hstops⟩ := hstops
      rw [world_processEvent uuids decoding vehicleId zoneId event n hactive.known] at hstops
      rw [requestsThroughout, steadyRun_append,
        world_processEvent uuids decoding vehicleId zoneId event n hactive.known]
      refine ⟨steadyRun_requestsOf hactive (hdated _ List.mem_cons_self), ?_⟩
      exact ih (knownActive_processEvent uuids decoding vehicleId zoneId hactive hstop)
        (fun q hq => Ledger.DatedBy.foldl
          (fun r hr => startsBy_of_mem_requestsOf vehicleId zoneId hr (hlater q hq))
          (hdated q (List.mem_cons_of_mem _ hq))) hclock hstops

/-- **The bills of a run.**  The operator has served the requests of the adaptor that have arrived;
and if the adaptor's clock does not go backwards and a reply to every stop arrives or none is lost,
every session is billed to the first stop that has arrived for it, and no request changes a bill. -/
theorem sound_billing_of_run (events : List (SessionEvent × Network)) :
    storeAfter newStore
        (runEventLoop vehicleId zoneId .new newStore (events.map (behind uuids decoding))) =
      (ledgerAfter uuids
        (requestsThroughout uuids decoding vehicleId zoneId .new newStore events)).store ∧
      (events.Pairwise (fun p q => p.2.timestamp ≤ q.2.timestamp) →
        StopsSafe uuids decoding vehicleId zoneId .new newStore events →
          SoundBilling uuids
            (requestsThroughout uuids decoding vehicleId zoneId .new newStore events)) := by
  have hactive : KnownActive .new newLedger := knownActive_of_inactive rfl _
  have hdated : ∀ p ∈ events, newLedger.DatedBy p.2.timestamp := by
    rintro p - id session ⟨⟩
  exact ⟨world_runEventLoop uuids decoding vehicleId zoneId events hactive.known,
    fun hclock hstops => (steadyRun_requestsThroughout uuids decoding vehicleId zoneId events
      hactive hdated hclock hstops).soundBilling⟩

/-- A session is started and stopped, and the first reply to each request is lost. -/
def retriedEvents : List (SessionEvent × Network) :=
  [(.lockChanged true, losesFirstReply), (.lockChanged false, losesFirstReply)]

theorem sound_billing_of_run_retried :
    (requestsThroughout unaryUuids readReplies "DEMO-VIN-001" "zone-demo-1" .new newStore
        retriedEvents).length = 4 ∧
      storeAfter newStore (runEventLoop "DEMO-VIN-001" "zone-demo-1" .new newStore
          (retriedEvents.map (behind unaryUuids readReplies))) =
        (ledgerAfter unaryUuids (requestsThroughout unaryUuids readReplies "DEMO-VIN-001"
          "zone-demo-1" .new newStore retriedEvents)).store ∧
      SoundBilling unaryUuids (requestsThroughout unaryUuids readReplies "DEMO-VIN-001"
        "zone-demo-1" .new newStore retriedEvents) := by
  have hstop : StopSafe losesFirstReply.attempts := .inl ⟨1, by decide, rfl⟩
  have hclock : retriedEvents.Pairwise fun p q => p.2.timestamp ≤ q.2.timestamp := by decide
  obtain ⟨hstore, hsound⟩ := sound_billing_of_run unaryUuids readReplies "DEMO-VIN-001"
    "zone-demo-1" retriedEvents
  exact ⟨by decide +kernel, hstore,
    hsound hclock ⟨fun _ _ => hstop, fun _ _ => hstop, trivial⟩⟩

end ParkingOperatorAdaptor
