/-
**Agreement of the adaptor and the operator on the active session.**

The adaptor retries a start that may have been handled, and the operator starts another session each
time; a start that is given up may leave sessions behind, and a stop that is given up may have
stopped the session.  Repeating a stop does no harm.

So adaptor and operator agree at every point at which the event loop is idle exactly if no reply to
a start is lost, and no stop of which a reply is lost fails altogether.

Main definitions:

* `ParkingOperatorAdaptor.Agrees` — the operator's active sessions of the vehicle are the adaptor's;
* `ParkingOperatorAdaptor.AgreesThroughout` — they are after every event of a run;
* `ParkingOperatorAdaptor.Harmless` — the network behaves as is needed while an event is handled.

Main results:

* `ParkingOperatorAdaptor.agrees_start_iff`, `ParkingOperatorAdaptor.agrees_stop_iff` — one call;
* `ParkingOperatorAdaptor.agrees_iff` — one event;
* `ParkingOperatorAdaptor.sessions_agree_iff` — every run;
* `ParkingOperatorAdaptor.two_sessions_started` — one lock event that starts two sessions.
-/

import ParkingFeeService.AdaptorAutomaton
import ParkingFeeService.OperatorClient
import Mathlib.Data.Set.Basic

set_option relaxedAutoImplicit false
set_option autoImplicit false

namespace ParkingOperatorAdaptor

open ParkingOperator (Store Uuids newStore RequestError handleStart handleStop)

/-! ### Agreement -/

/-- The id of the active session, as a set. -/
def Session.activeIds (session : Session) : Set String :=
  if h : session.isActive = true then {activeId session h} else ∅

/-- The operator's active sessions of the vehicle are the adaptor's. -/
def Agrees (vehicleId : String) (session : Session) (store : Store) : Prop :=
  store.activeFor vehicleId = session.activeIds

variable (uuids : Uuids) (decoding : ReplyDecoding) (vehicleId zoneId : String)

/-- An event that is handled behind a network. -/
def behind (p : SessionEvent × Network) : SessionEvent × Environment Store :=
  (p.1, environment uuids decoding p.2)

/-- Adaptor and operator agree after every event of the run. -/
def AgreesThroughout (session : Session) (store : Store) (events : List (SessionEvent × Network)) :
    Prop :=
  ∀ s ∈ runEventLoop vehicleId zoneId session store (events.map (behind uuids decoding)),
    Agrees vehicleId s.effect.session s.effect.world

/-! ### The behaviour of the network -/

/-- The `k`-th attempt is made, if the requests that arrive are answered with success. -/
def Made (attempts : ℕ → Delivery) (k : ℕ) : Prop :=
  k ≤ maxRetries ∧ ∀ j < k, attempts j ≠ .delivered

/-- None of the first `k` replies is lost. -/
def NoneLost (attempts : ℕ → Delivery) (k : ℕ) : Prop :=
  ∀ j < k, ∀ e, attempts j ≠ .replyLost e

/-- No reply is lost. -/
def StartSafe (attempts : ℕ → Delivery) : Prop :=
  ∀ k e, Made attempts k → attempts k ≠ .replyLost e

/-- A reply arrives, or none is lost. -/
def StopSafe (attempts : ℕ → Delivery) : Prop :=
  (∃ k ≤ maxRetries, attempts k = .delivered) ∨ NoneLost attempts (maxRetries + 1)

/-- The network behaves as is needed: no reply is lost if the event starts a session, and one
arrives or none is lost if the event stops one. -/
def Harmless (session : Session) (event : SessionEvent) (n : Network) : Prop :=
  (session.isActive = false → (event.startZone zoneId).isSome = true → StartSafe n.attempts) ∧
    (session.isActive = true → event.isStop = true → StopSafe n.attempts)

/-- The network behaves as is needed throughout a run. -/
def HarmlessThroughout : Session → Store → List (SessionEvent × Network) → Prop
  | _, _, [] => True
  | session, store, (event, n) :: events =>
      let effect := processEvent (environment uuids decoding n) vehicleId zoneId session event store
      Harmless zoneId session event n ∧ HarmlessThroughout effect.session effect.world events

/-! ### One attempt -/

section

variable {α β : Type} {handle : Store → Except RequestError α × Store} {decode : α → β}
  {d : Delivery} {s s' : Store}

theorem post_eq_ok {r : β} (h : post handle decode d s = (.ok r, s')) :
    d = .delivered ∧ ∃ resp, handle s = (.ok resp, s') ∧ decode resp = r := by
  cases d with
  | requestLost e => cases h
  | replyLost e => cases h
  | delivered =>
      refine ⟨rfl, ?_⟩
      rcases hs : handle s with ⟨result, s₁⟩
      cases result with
      | ok resp =>
          simp only [post, hs] at h
          cases h
          exact ⟨resp, rfl, rfl⟩
      | error e => simp [post, hs] at h

theorem post_eq_error {e : String} (h : post handle decode d s = (.error e, s')) :
    (d = .requestLost e ∧ s' = s) ∨ (d = .replyLost e ∧ s' = (handle s).2) ∨
      (d = .delivered ∧ ∃ err, (handle s).1 = .error err) := by
  cases d with
  | requestLost e' =>
      cases h
      exact .inl ⟨rfl, rfl⟩
  | replyLost e' =>
      cases h
      exact .inr (.inl ⟨rfl, rfl⟩)
  | delivered =>
      rcases hs : handle s with ⟨result, s₁⟩
      cases result with
      | ok resp => simp [post, hs] at h
      | error err => exact .inr (.inr ⟨rfl, err, rfl⟩)

end

theorem noneLost_succ_iff {attempts : ℕ → Delivery} {k : ℕ} :
    NoneLost attempts (k + 1) ↔ NoneLost attempts k ∧ ∀ e, attempts k ≠ .replyLost e :=
  Nat.forall_lt_succ_right

/-! ### Starting a session -/

/-- What is left at the operator by the first `k` attempts of a start, none of which was answered:
sessions with the next ids, none exactly if no reply was lost. -/
structure AfterStarts (attempts : ℕ → Delivery) (s₀ : Store) (k : ℕ) (s : Store) : Prop where
  unanswered : ∀ j < k, attempts j ≠ .delivered
  le_created : s₀.created ≤ s.created
  created_eq_iff : s.created = s₀.created ↔ NoneLost attempts k
  activeFor : s.activeFor vehicleId =
    s₀.activeFor vehicleId ∪ {id | ∃ i, s₀.created ≤ i ∧ i < s.created ∧ uuids.gen i = id}

variable {uuids decoding vehicleId zoneId}

theorem afterStarts_zero (attempts : ℕ → Delivery) (s₀ : Store) :
    AfterStarts uuids vehicleId attempts s₀ 0 s₀ := by
  refine ⟨by simp, le_rfl, by simp [NoneLost], ?_⟩
  have hnone : ∀ i, s₀.created ≤ i → i < s₀.created → False := by omega
  ext id
  simp only [Set.mem_union, Set.mem_ofPred_eq]
  constructor
  · exact .inl
  · rintro (h | ⟨i, hle, hlt, -⟩)
    · exact h
    · exact (hnone i hle hlt).elim

/-- One more session is started. -/
theorem AfterStarts.activeFor_handleStart {attempts : ℕ → Delivery} {s₀ s : Store} {k : ℕ}
    (h : AfterStarts uuids vehicleId attempts s₀ k s) (timestamp : Int64) :
    (handleStart uuids (.ok ⟨vehicleId, zoneId, timestamp⟩) s).2.activeFor vehicleId =
      s₀.activeFor vehicleId ∪
        {id | ∃ i, s₀.created ≤ i ∧ i < s.created + 1 ∧ uuids.gen i = id} := by
  have hle := h.le_created
  rw [ParkingOperator.activeFor_handleStart ⟨vehicleId, zoneId, timestamp⟩, h.activeFor]
  ext id
  simp only [Set.mem_insert_iff, Set.mem_union, Set.mem_ofPred_eq]
  constructor
  · rintro (rfl | hold | ⟨i, hi, hlt, rfl⟩)
    · exact .inr ⟨s.created, hle, by omega, rfl⟩
    · exact .inl hold
    · exact .inr ⟨i, hi, by omega, rfl⟩
  · rintro (hold | ⟨i, hi, hlt, rfl⟩)
    · exact .inr (.inl hold)
    · rcases Nat.lt_succ_iff_lt_or_eq.1 hlt with hlt | rfl
      · exact .inr (.inr ⟨i, hi, hlt, rfl⟩)
      · exact .inl rfl

/-- An attempt that fails leaves a session exactly if its reply is lost. -/
theorem AfterStarts.succ {attempts : ℕ → Delivery} {s₀ s s' : Store} {k : ℕ} {e : String}
    {timestamp : Int64} (h : AfterStarts uuids vehicleId attempts s₀ k s)
    (hpost : post (handleStart uuids (.ok ⟨vehicleId, zoneId, timestamp⟩)) decoding.start
      (attempts k) s = (.error e, s')) :
    AfterStarts uuids vehicleId attempts s₀ (k + 1) s' := by
  have hunanswered (hne : attempts k ≠ .delivered) : ∀ j < k + 1, attempts j ≠ .delivered :=
    Nat.forall_lt_succ_right.2 ⟨h.unanswered, hne⟩
  -- the request is lost, or its reply is, or a start is refused, which does not happen
  rcases post_eq_error hpost with ⟨hd, rfl⟩ | ⟨hd, rfl⟩ | ⟨hd, err, herr⟩
  · refine ⟨hunanswered (by simp [hd]), h.le_created, ?_, h.activeFor⟩
    rw [noneLost_succ_iff, h.created_eq_iff]
    simp [hd]
  · have hle := h.le_created
    refine ⟨hunanswered (by simp [hd]), ?_, ?_, h.activeFor_handleStart timestamp⟩
    · rw [ParkingOperator.created_handleStart]
      omega
    · rw [noneLost_succ_iff, ParkingOperator.created_handleStart]
      refine iff_of_false (by omega) ?_
      rintro ⟨-, hnot⟩
      exact hnot e hd
  · cases herr

variable (uuids decoding vehicleId zoneId) in
/-- The outcome of a start: the sessions that the operator has started, and the one that the adaptor
gets to know of, if any. -/
theorem postWithRetry_start (attempts : ℕ → Delivery) (s₀ : Store) (timestamp : Int64) :
    (∃ k s resp, Made attempts k ∧ attempts k = .delivered ∧
        AfterStarts uuids vehicleId attempts s₀ k s ∧ resp.sessionId = uuids.gen s.created ∧
        postWithRetry (handleStart uuids (.ok ⟨vehicleId, zoneId, timestamp⟩)) decoding.start
          attempts s₀ =
            (.ok resp, (handleStart uuids (.ok ⟨vehicleId, zoneId, timestamp⟩) s).2)) ∨
      ∃ e s, AfterStarts uuids vehicleId attempts s₀ (maxRetries + 1) s ∧
        postWithRetry (handleStart uuids (.ok ⟨vehicleId, zoneId, timestamp⟩)) decoding.start
          attempts s₀ = (.error e, s) := by
  rcases retry_rule (fun k s e s' h hpost => AfterStarts.succ h hpost) maxRetries
      (afterStarts_zero attempts s₀) with ⟨k, s, r, s', hk, hI, hpost, hretry⟩ | ⟨e, s, hretry, hI⟩
  · obtain ⟨hd, resp, hhandle, hdecode⟩ := post_eq_ok hpost
    refine .inl ⟨k, s, r, ⟨hk, hI.unanswered⟩, hd, hI, ?_, ?_⟩
    · rw [← hdecode, decoding.start_sessionId]
      cases hhandle
      rfl
    · rw [postWithRetry, hretry, hhandle]
  · exact .inr ⟨_, s, hI, by rw [postWithRetry, hretry]⟩

theorem noneLost_iff_startSafe_of_delivered {attempts : ℕ → Delivery} {k : ℕ}
    (hmade : Made attempts k) (hd : attempts k = .delivered) :
    NoneLost attempts k ↔ StartSafe attempts := by
  constructor
  · rintro h j e ⟨hj, hunanswered⟩
    -- before the answer none is lost, and after it no attempt is made
    rcases Nat.lt_trichotomy j k with hlt | rfl | hgt
    · exact h j hlt e
    · simp [hd]
    · exact absurd hd (hunanswered k hgt)
  · intro h j hj e
    have hjmade : Made attempts j :=
      ⟨hj.le.trans hmade.1, fun i hi => hmade.2 i (hi.trans hj)⟩
    exact h j e hjmade

theorem noneLost_iff_startSafe_of_unanswered {attempts : ℕ → Delivery}
    (hun : ∀ j < maxRetries + 1, attempts j ≠ .delivered) :
    NoneLost attempts (maxRetries + 1) ↔ StartSafe attempts := by
  constructor
  · rintro h k e ⟨hk, -⟩
    exact h k (by omega) e
  · intro h j hj e
    have hmade : Made attempts j := ⟨by omega, fun i hi => hun i (by omega)⟩
    exact h j e hmade

/-- The ids given from one count to another are a single one. -/
theorem ids_eq_singleton_iff {c c' : ℕ} (hle : c ≤ c') :
    {id | ∃ i, c ≤ i ∧ i < c' + 1 ∧ uuids.gen i = id} = ({uuids.gen c'} : Set String) ↔
      c' = c := by
  constructor
  · intro h
    -- the first id of the range is in the set, and ids are different from each other
    have hmem : uuids.gen c ∈ ({uuids.gen c'} : Set String) :=
      h ▸ ⟨c, le_rfl, by omega, rfl⟩
    exact (uuids.injective hmem).symm
  · rintro rfl
    ext id
    constructor
    · rintro ⟨i, hi, hlt, rfl⟩
      have hic : i = c' := by omega
      rw [hic]
      rfl
    · rintro rfl
      exact ⟨c', le_rfl, by omega, rfl⟩

/-- No id is given from one count to another. -/
theorem ids_eq_empty_iff {c c' : ℕ} (hle : c ≤ c') :
    {id | ∃ i, c ≤ i ∧ i < c' ∧ uuids.gen i = id} = (∅ : Set String) ↔ c' = c := by
  constructor
  · intro h
    by_contra hne
    have hmem : uuids.gen c ∈ (∅ : Set String) := h ▸ ⟨c, le_rfl, by omega, rfl⟩
    exact hmem
  · rintro rfl
    refine Set.eq_empty_of_forall_notMem ?_
    rintro id ⟨i, hi, hlt, -⟩
    omega

theorem activeIds_of_inactive {session : Session} (h : session.isActive = false) :
    session.activeIds = ∅ := by
  simp [Session.activeIds, h]

/-- **A start leads to agreement** exactly if none of its replies is lost. -/
theorem agrees_start_iff {session : Session} {store : Store} (n : Network)
    (hoff : session.isActive = false) (hagrees : Agrees vehicleId session store) :
    Agrees vehicleId (startSession (environment uuids decoding n) session vehicleId zoneId
        store).session (startSession (environment uuids decoding n) session vehicleId zoneId
        store).world ↔ StartSafe n.attempts := by
  have hempty : store.activeFor vehicleId = ∅ := hagrees.trans (activeIds_of_inactive hoff)
  rcases postWithRetry_start uuids decoding vehicleId zoneId n.attempts store n.timestamp with
    ⟨k, s, resp, hmade, hd, hI, hid, hpost⟩ | ⟨e, s, hI, hpost⟩
  · have heffect : startSession (environment uuids decoding n) session vehicleId zoneId store =
        ⟨session.start resp.sessionId zoneId n.startTime
            ⟨resp.rate.rateType, resp.rate.amount, resp.rate.currency⟩,
          (handleStart uuids (.ok ⟨vehicleId, zoneId, n.timestamp⟩) s).2,
          [.startSession vehicleId zoneId (.ok resp),
            .setBool signalSessionActive true n.published], .ok resp⟩ := by
      simp [startSession, environment, hpost]
    rw [heffect, Agrees, hI.activeFor_handleStart, hempty, Set.empty_union]
    have hactive : (session.start resp.sessionId zoneId n.startTime
        ⟨resp.rate.rateType, resp.rate.amount, resp.rate.currency⟩).activeIds =
          {uuids.gen s.created} := by
      rw [← hid]
      rfl
    rw [hactive, ids_eq_singleton_iff hI.le_created, hI.created_eq_iff,
      noneLost_iff_startSafe_of_delivered hmade hd]
  · have heffect : startSession (environment uuids decoding n) session vehicleId zoneId store =
        ⟨session, s, [.startSession vehicleId zoneId (.error e)], .error e⟩ := by
      simp [startSession, environment, hpost]
    rw [heffect, Agrees, hI.activeFor, hempty, Set.empty_union, activeIds_of_inactive hoff,
      ids_eq_empty_iff hI.le_created, hI.created_eq_iff,
      noneLost_iff_startSafe_of_unanswered hI.unanswered]

/-! ### Stopping the session -/

/-- What the first `k` attempts of a stop, none of which was answered, have done at the operator:
the session is still active exactly if no reply was lost. -/
structure AfterStops (vehicleId : String) (attempts : ℕ → Delivery) (sessionId : String) (k : ℕ)
    (s : Store) : Prop where
  unanswered : ∀ j < k, attempts j ≠ .delivered
  known : (s.sessions sessionId).isSome = true
  activeFor : (NoneLost attempts k ∧ s.activeFor vehicleId = {sessionId}) ∨
    (¬ NoneLost attempts k ∧ s.activeFor vehicleId = ∅)

/-- Whatever was done before, a stop request that is handled leaves no active session. -/
theorem AfterStops.activeFor_handleStop {attempts : ℕ → Delivery} {sessionId : String} {k : ℕ}
    {s : Store} (h : AfterStops vehicleId attempts sessionId k s) (timestamp : Int64) :
    (handleStop (.ok ⟨sessionId, timestamp⟩) s).2.activeFor vehicleId = ∅ := by
  rw [ParkingOperator.activeFor_handleStop ⟨sessionId, timestamp⟩ vehicleId h.known]
  rcases h.activeFor with ⟨-, hactive⟩ | ⟨-, hactive⟩
  · rw [hactive, Set.sdiff_self]
  · rw [hactive, Set.empty_sdiff]

/-- An attempt that fails stops the session exactly if its reply is lost. -/
theorem AfterStops.succ {attempts : ℕ → Delivery} {sessionId : String} {k : ℕ} {s s' : Store}
    {e : String} {timestamp : Int64} (h : AfterStops vehicleId attempts sessionId k s)
    (hpost : post (handleStop (.ok ⟨sessionId, timestamp⟩)) decoding.stop (attempts k) s =
      (.error e, s')) : AfterStops vehicleId attempts sessionId (k + 1) s' := by
  have hunanswered (hne : attempts k ≠ .delivered) : ∀ j < k + 1, attempts j ≠ .delivered :=
    Nat.forall_lt_succ_right.2 ⟨h.unanswered, hne⟩
  rcases post_eq_error hpost with ⟨hd, rfl⟩ | ⟨hd, rfl⟩ | ⟨-, err, herr⟩
  · have hlost : NoneLost attempts (k + 1) ↔ NoneLost attempts k := by
      rw [noneLost_succ_iff]
      simp [hd]
    refine ⟨hunanswered (by simp [hd]), h.known, ?_⟩
    rw [hlost]
    exact h.activeFor
  · have hlost : ¬ NoneLost attempts (k + 1) := fun hnone => hnone k (by omega) e hd
    exact ⟨hunanswered (by simp [hd]), ParkingOperator.isSome_handleStop h.known,
      .inr ⟨hlost, h.activeFor_handleStop timestamp⟩⟩
  · obtain ⟨resp, hok⟩ := ParkingOperator.handleStop_of_known ⟨sessionId, timestamp⟩ h.known
    rw [hok] at herr
    cases herr

variable (decoding) in
/-- The outcome of a stop of the only active session. -/
theorem postWithRetry_stop {attempts : ℕ → Delivery} {sessionId : String} {s₀ : Store}
    (h : AfterStops vehicleId attempts sessionId 0 s₀) (timestamp : Int64) :
    (∃ k s resp, k ≤ maxRetries ∧ attempts k = .delivered ∧ s.activeFor vehicleId = ∅ ∧
        postWithRetry (handleStop (.ok ⟨sessionId, timestamp⟩)) decoding.stop attempts s₀ =
          (.ok resp, s)) ∨
      ∃ e s, AfterStops vehicleId attempts sessionId (maxRetries + 1) s ∧
        postWithRetry (handleStop (.ok ⟨sessionId, timestamp⟩)) decoding.stop attempts s₀ =
          (.error e, s) := by
  rcases retry_rule (fun k s e s' h hpost => AfterStops.succ h hpost) maxRetries h with
    ⟨k, s, r, s', hk, hI, hpost, hretry⟩ | ⟨e, s, hretry, hI⟩
  · obtain ⟨hd, resp, hhandle, -⟩ := post_eq_ok hpost
    refine .inl ⟨k, s', r, hk, hd, ?_, by rw [postWithRetry, hretry]⟩
    have hs' : s' = (handleStop (.ok ⟨sessionId, timestamp⟩) s).2 := by rw [hhandle]
    rw [hs']
    exact hI.activeFor_handleStop timestamp
  · exact .inr ⟨_, s, hI, by rw [postWithRetry, hretry]⟩

theorem activeIds_of_active {session : Session} (h : session.isActive = true) :
    session.activeIds = {activeId session h} := by
  simp [Session.activeIds, h]

/-- **A stop leads to agreement** exactly if one of its replies arrives or none is lost. -/
theorem agrees_stop_iff {session : Session} {store : Store} (n : Network)
    (hon : session.isActive = true) (hagrees : Agrees vehicleId session store) :
    Agrees vehicleId (stopSession (environment uuids decoding n) session (activeId session hon)
        store).session (stopSession (environment uuids decoding n) session
        (activeId session hon) store).world ↔ StopSafe n.attempts := by
  have hone : store.activeFor vehicleId = {activeId session hon} :=
    hagrees.trans (activeIds_of_active hon)
  have hzero : AfterStops vehicleId n.attempts (activeId session hon) 0 store := by
    refine ⟨by simp, ?_, .inl ⟨by simp [NoneLost], hone⟩⟩
    obtain ⟨st, hst, -⟩ : activeId session hon ∈ store.activeFor vehicleId := by
      rw [hone]
      rfl
    simp [hst]
  rcases postWithRetry_stop decoding hzero n.timestamp with
    ⟨k, s, resp, hk, hd, hempty, hpost⟩ | ⟨e, s, hI, hpost⟩
  · have heffect : stopSession (environment uuids decoding n) session (activeId session hon)
        store = ⟨session.stop.2, s,
          [.stopSession (activeId session hon) (.ok resp),
            .setBool signalSessionActive false n.published], .ok resp⟩ := by
      simp [stopSession, environment, hpost]
    rw [heffect, Agrees, hempty, activeIds_of_inactive (Session.isActive_stop session)]
    exact iff_of_true rfl (.inl ⟨k, hk, hd⟩)
  · have heffect : stopSession (environment uuids decoding n) session (activeId session hon)
        store = ⟨session, s, [.stopSession (activeId session hon) (.error e)], .error e⟩ := by
      simp [stopSession, environment, hpost]
    -- the call has failed, so no reply has arrived
    have hsafe : StopSafe n.attempts ↔ NoneLost n.attempts (maxRetries + 1) := by
      refine or_iff_right ?_
      rintro ⟨k, hk, hd⟩
      exact hI.unanswered k (by omega) hd
    rw [heffect, Agrees, activeIds_of_active hon, hsafe]
    rcases hI.activeFor with ⟨hnone, hactive⟩ | ⟨hlost, hactive⟩
    · exact iff_of_true hactive hnone
    · refine iff_of_false ?_ hlost
      rw [hactive]
      exact (Set.singleton_ne_empty _).symm

/-! ### One event -/

theorem agrees_congr {R R' : Type} {e : Effect Store R} {f : Effect Store R'}
    (h : e.forget = f.forget) :
    Agrees vehicleId e.session e.world ↔ Agrees vehicleId f.session f.world := by
  have hsession : e.session = f.session := congrArg Effect.session h
  have hworld : e.world = f.world := congrArg Effect.world h
  rw [hsession, hworld]

variable (uuids decoding zoneId) in
/-- **From agreement, an event leads to agreement** exactly if the network behaves as is needed. -/
theorem agrees_iff {session : Session} {store : Store} (hagrees : Agrees vehicleId session store)
    (event : SessionEvent) (n : Network) :
    Agrees vehicleId
        (processEvent (environment uuids decoding n) vehicleId zoneId session event store).session
        (processEvent (environment uuids decoding n) vehicleId zoneId session event store).world ↔
      Harmless zoneId session event n := by
  have hforget :=
    forget_processEvent (environment uuids decoding n) vehicleId zoneId session event store
  by_cases hon : session.isActive = true
  · rw [dif_pos hon] at hforget
    cases hstop : event.isStop with
    | true =>
        rw [if_pos hstop] at hforget
        rw [agrees_congr hforget]
        refine (agrees_stop_iff n hon hagrees).trans ?_
        simp [Harmless, hon, hstop]
    | false =>
        rw [if_neg (by simp [hstop])] at hforget
        rw [agrees_congr (f := .idle session store ()) hforget]
        exact iff_of_true hagrees (by simp [Harmless, hon, hstop])
  · have hoff : session.isActive = false := by simpa using hon
    rw [dif_neg hon] at hforget
    cases hzone : event.startZone zoneId with
    | some z =>
        rw [hzone] at hforget
        rw [agrees_congr hforget]
        refine (agrees_start_iff n hoff hagrees).trans ?_
        simp [Harmless, hoff, hzone]
    | none =>
        rw [hzone] at hforget
        rw [agrees_congr (f := .idle session store ()) hforget]
        exact iff_of_true hagrees (by simp [Harmless, hoff, hzone])

/-! ### Every run -/

variable (uuids decoding vehicleId zoneId)

theorem agreesThroughout_of_agrees (events : List (SessionEvent × Network)) :
    ∀ {session : Session} {store : Store}, Agrees vehicleId session store →
      (AgreesThroughout uuids decoding vehicleId zoneId session store events ↔
        HarmlessThroughout uuids decoding vehicleId zoneId session store events) := by
  induction events with
  | nil => simp [AgreesThroughout, HarmlessThroughout, runEventLoop]
  | cons p events ih =>
      obtain ⟨event, n⟩ := p
      intro session store hagrees
      have hone := agrees_iff uuids decoding zoneId hagrees event n
      rw [AgreesThroughout, List.map_cons, behind, runEventLoop, List.forall_mem_cons,
        HarmlessThroughout, hone]
      refine and_congr_right fun hharmless => ?_
      exact ih (hone.2 hharmless)

/-- **Adaptor and operator agree whenever the event loop is idle** exactly if the network behaves as
is needed at every event. -/
theorem sessions_agree_iff (events : List (SessionEvent × Network)) :
    AgreesThroughout uuids decoding vehicleId zoneId .new newStore events ↔
      HarmlessThroughout uuids decoding vehicleId zoneId .new newStore events :=
  agreesThroughout_of_agrees uuids decoding vehicleId zoneId events
    ((ParkingOperator.activeFor_newStore vehicleId).trans (activeIds_of_inactive rfl).symm)

/-- Ids of increasing length. -/
def unaryUuids : Uuids where
  gen n := String.ofList (List.replicate n '0')
  injective := by
    intro m n h
    have hlist := congrArg String.toList h
    have hlength := congrArg List.length hlist
    simpa using hlength

/-- The number two and a half. -/
def twoAndAHalf : F64 := .finite false (5 * 2 ^ 50) (-51) (by decide)

/-- A reading of the replies, of which the amounts are those of the operator's only rate. -/
def readReplies : ReplyDecoding where
  start resp := ⟨resp.sessionId, resp.status, ⟨resp.rate.rateType, twoAndAHalf, resp.rate.currency⟩⟩
  stop resp := ⟨resp.sessionId, resp.status, resp.duration, twoAndAHalf, resp.currency⟩
  start_sessionId _ := rfl

/-- A network that loses the first reply. -/
def losesFirstReply : Network where
  attempts k := if k = 0 then .replyLost "connection closed" else .delivered
  timestamp := 1700000000
  startTime := 1700000001
  published := .ok ()

/-- **A lock event starts two sessions**, if the reply to the first attempt is lost. -/
theorem two_sessions_started :
    ¬ ∀ (uuids : Uuids) (decoding : ReplyDecoding) (vehicleId zoneId : String)
      (events : List (SessionEvent × Network)),
        AgreesThroughout uuids decoding vehicleId zoneId .new newStore events := by
  intro hall
  have hagrees : Store.activeFor _ "DEMO-VIN-001" = Session.activeIds _ :=
    hall unaryUuids readReplies "DEMO-VIN-001" "zone-demo-1"
      [(.lockChanged true, losesFirstReply)] _ (List.mem_singleton_self _)
  -- the session of the attempt whose reply was lost is active, and is not the adaptor's
  have hfirst : unaryUuids.gen 0 ∈ Session.activeIds _ := hagrees.subset ⟨_, rfl, rfl, rfl⟩
  have hsame : unaryUuids.gen 0 = unaryUuids.gen 1 := hfirst
  exact absurd hsame (by decide)

end ParkingOperatorAdaptor
