/-
**The reply to StartSession.**

A call of `StartSession` makes its reply of the status that it asks for after its manual start has
succeeded.  In the meantime an unlock or a manual stop may end the session: the reply then carries
the record of a session that another event has started since, or none, and with it a start time that
is not that of the session.

As long as no session is stopped while a call is on its way from its successful start to its status,
the record stays the one that its own start has made, and the reply describes it.

Main definitions:

* `ParkingOperatorAdaptor.stops`, `ParkingOperatorAdaptor.StartsUndisturbed` — the side condition on
  the steps;
* `ParkingOperatorAdaptor.Handled.Starts` — the event that started a session for a call;
* `ParkingOperatorAdaptor.Answering` — the invariant.

Main results:

* `ParkingOperatorAdaptor.start_reply_of_other_session` — a session stopped before the status;
* `ParkingOperatorAdaptor.start_reply_describes_session` — the reply under the side condition.
-/

import ParkingFeeService.AdaptorGrpc

set_option relaxedAutoImplicit false
set_option autoImplicit false

namespace ParkingOperatorAdaptor

variable {W : Type} {vehicleId zoneId : String}

/-! ### The side condition -/

/-- Handling the event stops the session: one is active, and the operator stops it. -/
def stops (env : Environment W) (session : Session) (event : SessionEvent) (w : W) : Bool :=
  event.isStop && session.state.any fun st =>
    st.active && (env.operator.stopSession st.sessionId w).1.isOk

/-- The operator's answer to the start of a call that has not got its status yet. -/
def Phase.started : Phase → Option StartResponse
  | .answered (.manualStart (.ok resp)) => some resp
  | .sendingStatus resp => some resp
  | .waitingStatus resp => some resp
  | _ => none

/-- The step does not stop a session while a call is between its successful start and its
status. -/
def StartsUndisturbed (s : Server W) : Action W → Prop
  | .finish env => ∀ m ∈ s.busy, stops env s.session m.event s.world = true →
      ∀ c ∈ s.calls, c.phase.started.isSome = false
  | _ => True

instance (s : Server W) : (a : Action W) → Decidable (StartsUndisturbed s a)
  | .finish env => inferInstanceAs (Decidable (∀ m ∈ s.busy,
      stops env s.session m.event s.world = true → ∀ c ∈ s.calls, c.phase.started.isSome = false))
  | .call _ | .lockChanged _ | .send _ | .recv | .resume _ | .cancel _ => isTrue trivial

/-! ### What an event does to the session -/

variable (env : Environment W)

theorem session_stopSession_of_error {session : Session} (sessionId : String) {w : W}
    (h : (env.operator.stopSession sessionId w).1.isOk = false) :
    (stopSession env session sessionId w).session = session := by
  rw [stopSession]
  revert h
  obtain ⟨res, w₁⟩ := env.operator.stopSession sessionId w
  intro h
  cases res with
  | ok resp => cases h
  | error e => rfl

/-- While a session is active, only an event that stops it changes the record. -/
theorem session_processEvent_of_active {session : Session} {event : SessionEvent} {w : W}
    (hactive : session.isActive = true) (hstop : stops env session event w = false) :
    (processEvent env vehicleId zoneId session event w).session = session := by
  have hforget := congrArg Effect.session
    (forget_processEvent env vehicleId zoneId session event w)
  rw [dif_pos hactive] at hforget
  refine hforget.trans ?_
  by_cases hev : event.isStop = true
  · rw [if_pos hev]
    obtain ⟨state⟩ := session
    cases state with
    | none => cases hactive
    | some st =>
        have hst : st.active = true := hactive
        refine session_stopSession_of_error env st.sessionId ?_
        simpa [stops, hev, hst] using hstop
  · rw [if_neg hev]
    rfl

/-- The event started a session for a call: the operator call that was made for it has succeeded,
and the record is made of it. -/
structure Handled.Starts (vehicleId zone : String) (resp : StartResponse) (rec : SessionState)
    (h : Handled W) : Prop where
  event : h.step.event = .manualStart zone
  inactive : h.step.session.isActive = false
  call : .startSession vehicleId zone (.ok resp) ∈ h.step.effect.calls
  operator : ∃ w₁, h.step.env.operator.startSession vehicleId zone h.step.world = (.ok resp, w₁) ∧
    rec = ⟨resp.sessionId, zone, h.step.env.unixTimestamp w₁,
      ⟨resp.rate.rateType, resp.rate.amount, resp.rate.currency⟩, true⟩
  recorded : h.step.effect.session.status = some rec

/-- A manual start that succeeds. -/
theorem starts_of_result {session : Session} {zone : String} {w : W} {resp : StartResponse}
    (sender : Option ℕ)
    (h : (processEvent env vehicleId zoneId session (.manualStart zone) w).result =
      some (.manualStart (.ok resp))) :
    ∃ rec, Handled.Starts vehicleId zone resp rec ⟨sender, ⟨.manualStart zone, env, session, w,
      processEvent env vehicleId zoneId session (.manualStart zone) w⟩⟩ := by
  by_cases hactive : session.isActive = true
  · simp [processEvent, processManualStart, hactive, Effect.idle, Effect.map] at h
  · rcases hres : env.operator.startSession vehicleId zone w with ⟨res, w₁⟩
    cases res with
    | ok resp' =>
        have heq : resp' = resp := by
          simpa [processEvent, processManualStart, hactive, startSession, hres, Effect.map,
            manualResult] using h
        subst heq
        refine ⟨_, rfl, by simpa using hactive, ?_, ⟨w₁, hres, rfl⟩, ?_⟩
        · simp [processEvent, processManualStart, hactive, startSession, hres, Effect.map]
        · simp [processEvent, processManualStart, hactive, startSession, hres, Effect.map,
            Session.status, Session.start]
    | error e =>
        simp [processEvent, processManualStart, hactive, startSession, hres, Effect.map,
          manualResult] at h

/-! ### The invariant -/

/-- The call started the session of the record. -/
def StartedFor (vehicleId : String) (log : List (Handled W)) (i : ℕ) (zone : String)
    (resp : StartResponse) (rec : SessionState) : Prop :=
  ∃ h ∈ log, h.sender = some i ∧ h.Starts vehicleId zone resp rec

/-- What holds of a call at every point: from its successful start to its status, the record is the
one of its own start; the status that it gets is that record; and its response is made of it. -/
structure RpcCall.Sound (vehicleId : String) (log : List (Handled W)) (session : Session) (i : ℕ)
    (c : RpcCall) : Prop where
  started : ∀ zone resp, c.rpc = .startSession zone → c.phase.started = some resp →
    ∃ rec, StartedFor vehicleId log i zone resp rec ∧ session.status = some rec
  asked : ∀ zone resp reply, c.rpc = .startSession zone → c.phase = .answeredStatus resp reply →
    ∃ rec, StartedFor vehicleId log i zone resp rec ∧ reply = .status (some rec)
  done : ∀ zone response, c.rpc = .startSession zone → c.phase = .finished (.ok response) →
    ∃ resp rec, StartedFor vehicleId log i zone resp rec ∧
      response = .session ⟨resp.sessionId, true, rec.startTime, zone⟩

/-- The event that a call sends with each of its reply channels. -/
def Rpc.eventWith (rpc : Rpc) : Round → SessionEvent
  | .first => rpc.event
  | .status => .queryStatus

/-- The event of a message is one that its call sends. -/
def Message.Fits (rpcs : List Rpc) (m : Message) : Prop :=
  ∀ i round, m.reply = some (i, round) →
    ∃ rpc, rpcs[i]? = some rpc ∧ m.event = rpc.eventWith round

/-- The calls in their order. -/
def Server.rpcs (s : Server W) : List Rpc := s.calls.map RpcCall.rpc

/-- The messages fit their calls, and what holds of a call holds of all. -/
structure Answering (vehicleId : String) (s : Server W) : Prop where
  queued : ∀ m ∈ s.queue, m.Fits s.rpcs
  busy : ∀ m, s.busy = some m → m.Fits s.rpcs
  sound : ∀ i (c : RpcCall), s.calls[i]? = some c → c.Sound vehicleId s.log s.session i

theorem answering_init (w₀ : W) : Answering vehicleId (Server.init w₀) := by
  refine ⟨fun m hm => ?_, fun m hm => ?_, fun i c hc => ?_⟩
  · cases hm
  · cases hm
  · simp [Server.init] at hc

/-! ### The steps -/

theorem StartedFor.append {log : List (Handled W)} {i : ℕ} {zone : String} {resp : StartResponse}
    {rec : SessionState} (h : StartedFor vehicleId log i zone resp rec) (more : List (Handled W)) :
    StartedFor vehicleId (log ++ more) i zone resp rec := by
  obtain ⟨e, he, hs⟩ := h
  exact ⟨e, List.mem_append_left _ he, hs⟩

theorem Message.Fits.append {rpcs : List Rpc} {m : Message} (h : m.Fits rpcs) (more : List Rpc) :
    m.Fits (rpcs ++ more) := by
  intro i round hm
  obtain ⟨rpc, hrpc, hev⟩ := h i round hm
  obtain ⟨hi, rfl⟩ := List.getElem?_eq_some_iff.1 hrpc
  exact ⟨_, by rw [List.getElem?_append_left hi, List.getElem?_eq_getElem hi], hev⟩

/-- Calls change their phase only. -/
theorem rpcs_modify (calls : List RpcCall) (i : ℕ) {f : RpcCall → RpcCall}
    (hf : ∀ c, (f c).rpc = c.rpc) :
    (calls.modify i f).map RpcCall.rpc = calls.map RpcCall.rpc := by
  refine List.ext_getElem? fun j => ?_
  rw [List.getElem?_map, List.getElem?_modify, List.getElem?_map]
  split
  · cases calls[j]? with
    | none => rfl
    | some c => exact congrArg some (hf c)
  · cases calls[j]? <;> rfl

@[simp] theorem rpcs_move (s : Server W) (i : ℕ) (phase : Phase) : (s.move i phase).rpcs = s.rpcs :=
  rpcs_modify s.calls i fun _ => rfl

@[simp] theorem receive_rpc (round : Round) (reply : Reply) (c : RpcCall) :
    (c.receive round reply).rpc = c.rpc := by
  rw [RpcCall.receive.eq_def]
  split <;> rfl

theorem rpcs_deliver (calls : List RpcCall) (m : Message) (reply : Option Reply) :
    (deliver calls m reply).map RpcCall.rpc = calls.map RpcCall.rpc := by
  rw [deliver.eq_def]
  split
  · exact rpcs_modify calls _ fun c => receive_rpc _ _ c
  · rfl

/-- A call moves to a phase of which what has to hold does. -/
theorem Answering.move {s : Server W} (h : Answering vehicleId s) {i : ℕ} {phase : Phase}
    (hphase : ∀ c, s.calls[i]? = some c →
      RpcCall.Sound vehicleId s.log s.session i ⟨c.rpc, phase⟩) :
    Answering vehicleId (s.move i phase) := by
  refine ⟨?_, ?_, fun j c hc => ?_⟩
  · rw [rpcs_move]
    exact h.queued
  · rw [rpcs_move]
    exact h.busy
  · rw [Server.move, List.getElem?_modify] at hc
    split at hc
    · next hij =>
        obtain ⟨c₀, hc₀, rfl⟩ := Option.map_eq_some_iff.1 hc
        subst hij
        exact hphase c₀ hc₀
    · exact h.sound j c (by simpa using hc)

/-- A message that fits gets into the channel. -/
theorem Answering.push {s : Server W} (h : Answering vehicleId s) {m : Message}
    (hm : m.Fits s.rpcs) : Answering vehicleId { s with queue := s.queue ++ [m] } := by
  refine ⟨fun m' hm' => ?_, h.busy, h.sound⟩
  rcases List.mem_append.1 hm' with hm' | hm'
  · exact h.queued m' hm'
  · rw [List.mem_singleton.1 hm']
    exact hm

section Phases

variable {log : List (Handled W)} {session : Session} {i : ℕ} {c : RpcCall} {rpc : Rpc}

/-- What has to hold of a call that has not got its status. -/
theorem sound_of_started (hasked : ∀ resp reply, c.phase ≠ .answeredStatus resp reply)
    (hdone : ∀ response, c.phase ≠ .finished (.ok response))
    (h : ∀ zone resp, c.rpc = .startSession zone → c.phase.started = some resp →
      ∃ rec, StartedFor vehicleId log i zone resp rec ∧ session.status = some rec) :
    c.Sound vehicleId log session i :=
  ⟨h, fun _ resp reply _ hph => absurd hph (hasked resp reply),
    fun _ response _ hph => absurd hph (hdone response)⟩

/-- Nothing has to hold of a call before its start succeeds, or after it has failed or is
cancelled. -/
theorem sound_of_silent (hstarted : c.phase.started = none)
    (hasked : ∀ resp reply, c.phase ≠ .answeredStatus resp reply)
    (hdone : ∀ response, c.phase ≠ .finished (.ok response)) :
    c.Sound vehicleId log session i := by
  refine sound_of_started hasked hdone fun zone resp _ hph => ?_
  rw [hstarted] at hph
  cases hph

/-- What has to hold of a call when its status has come. -/
theorem sound_answeredStatus {resp : StartResponse} {reply : Reply}
    (h : ∀ zone, rpc = .startSession zone →
      ∃ rec, StartedFor vehicleId log i zone resp rec ∧ reply = .status (some rec)) :
    RpcCall.Sound vehicleId log session i ⟨rpc, .answeredStatus resp reply⟩ := by
  refine ⟨fun zone resp' _ hph => ?_, fun zone resp' reply' hrpc hph => ?_,
    fun zone response _ hph => ?_⟩
  · cases hph
  · cases hph
    exact h zone hrpc
  · cases hph

/-- What has to hold of a call that has returned its response. -/
theorem sound_finished {result : Except RpcError RpcResponse}
    (h : ∀ zone response, rpc = .startSession zone → result = .ok response →
      ∃ resp rec, StartedFor vehicleId log i zone resp rec ∧
        response = .session ⟨resp.sessionId, true, rec.startTime, zone⟩) :
    RpcCall.Sound vehicleId log session i ⟨rpc, .finished result⟩ := by
  refine ⟨fun zone resp _ hph => ?_, fun zone resp reply _ hph => ?_,
    fun zone response hrpc hph => ?_⟩
  · cases hph
  · cases hph
  · exact h zone response hrpc (Phase.finished.inj hph)

end Phases

/-- The first reply to a start ends the call only if the start has failed. -/
theorem response_startSession_ne_ok (zone : String) (reply : Reply) (response : RpcResponse) :
    (Rpc.startSession zone).response reply ≠ .ok response := by
  rw [Rpc.response.eq_def]
  split <;> simp_all

/-- Where a call is after a reply has been delivered. -/
theorem getElem?_deliver {calls : List RpcCall} {m : Message} {reply : Option Reply} {i : ℕ}
    {c' : RpcCall} (h : (deliver calls m reply)[i]? = some c') :
    ∃ c, calls[i]? = some c ∧ (c' = c ∨
      ∃ round r, m.reply = some (i, round) ∧ reply = some r ∧ c' = c.receive round r) := by
  rw [deliver.eq_def] at h
  split at h
  · next j round r hm =>
      rw [List.getElem?_modify] at h
      split at h
      · next hij =>
          obtain ⟨c, hc, rfl⟩ := Option.map_eq_some_iff.1 h
          subst hij
          exact ⟨c, hc, .inr ⟨round, r, hm, rfl, rfl⟩⟩
      · exact ⟨c', by simpa using h, .inl rfl⟩
  · exact ⟨c', h, .inl rfl⟩

/-- What holds of a call goes on to hold while an event is handled. -/
theorem RpcCall.Sound.handle (zoneId : String) {s : Server W} {m : Message}
    {env : Environment W} {i : ℕ} {c : RpcCall} (h : c.Sound vehicleId s.log s.session i)
    (hc : c ∈ s.calls) (hb : s.busy = some m) (hguard : StartsUndisturbed s (.finish env)) :
    c.Sound vehicleId (s.handle vehicleId zoneId m env).log
      (s.handle vehicleId zoneId m env).session i := by
  refine ⟨fun zone resp hrpc hph => ?_, fun zone resp reply hrpc hph => ?_,
    fun zone response hrpc hph => ?_⟩
  · obtain ⟨rec, hfor, hstatus⟩ := h.started zone resp hrpc hph
    refine ⟨rec, hfor.append _, ?_⟩
    -- the record is of an active session, which the event does not stop
    have hstop : stops env s.session m.event s.world = false := by
      by_contra hstop
      have hnone := hguard m hb (by simpa using hstop) c hc
      rw [hph] at hnone
      cases hnone
    have hactive : s.session.isActive = true := by
      obtain ⟨e, -, -, hstarts⟩ := hfor
      obtain ⟨w₁, -, rfl⟩ := hstarts.operator
      rw [Session.status] at hstatus
      rw [Session.isActive, hstatus]
      rfl
    exact (congrArg Session.status (session_processEvent_of_active env hactive hstop)).trans hstatus
  · obtain ⟨rec, hfor, hreply⟩ := h.asked zone resp reply hrpc hph
    exact ⟨rec, hfor.append _, hreply⟩
  · obtain ⟨resp, rec, hfor, hresponse⟩ := h.done zone response hrpc hph
    exact ⟨resp, rec, hfor.append _, hresponse⟩

/-- A reply that comes is the one that the phase of the call asks for. -/
theorem RpcCall.Sound.receive {s : Server W} {m : Message} {env : Environment W} {i : ℕ}
    {c : RpcCall} {round : Round} {r : Reply} (h : c.Sound vehicleId s.log s.session i)
    (hafter : c.Sound vehicleId (s.handle vehicleId zoneId m env).log
      (s.handle vehicleId zoneId m env).session i)
    (hm : m.reply = some (i, round))
    (hev : m.event = c.rpc.eventWith round)
    (hr : (processEvent env vehicleId zoneId s.session m.event s.world).result = some r) :
    (c.receive round r).Sound vehicleId (s.handle vehicleId zoneId m env).log
      (s.handle vehicleId zoneId m env).session i := by
  obtain ⟨rpc, phase⟩ := c
  cases round with
  | first =>
      cases phase with
      | waiting =>
          refine sound_of_started (by simp [RpcCall.receive]) (by simp [RpcCall.receive])
            fun zone resp hrpc hph => ?_
          obtain rfl : rpc = .startSession zone := hrpc
          obtain rfl : r = .manualStart (.ok resp) := by
            simp only [RpcCall.receive] at hph
            rw [Phase.started.eq_def] at hph
            split at hph <;> simp_all
          obtain ⟨event, reply⟩ := m
          obtain rfl : event = .manualStart zone := hev
          obtain rfl : reply = some (i, .first) := hm
          obtain ⟨rec, hstarts⟩ := starts_of_result env (some i) hr
          exact ⟨rec, ⟨_, List.mem_append_right _ List.mem_cons_self, rfl, hstarts⟩,
            hstarts.recorded⟩
      | sending | answered | sendingStatus | waitingStatus | answeredStatus | finished
      | cancelled => exact hafter
  | status =>
      cases phase with
      | waitingStatus resp =>
          refine sound_answeredStatus fun zone hrpc => ?_
          obtain ⟨rec, hfor, hstatus⟩ := h.started zone resp hrpc rfl
          rw [show m.event = .queryStatus from hev] at hr
          cases hr
          exact ⟨rec, hfor.append _, congrArg Reply.status hstatus⟩
      | sending | waiting | answered | sendingStatus | answeredStatus | finished
      | cancelled => exact hafter

/-- What holds of a call goes on to hold when it goes on with a reply. -/
theorem RpcCall.Sound.resume {log : List (Handled W)} {session : Session} {i : ℕ} {c : RpcCall}
    {phase : Phase} (h : c.Sound vehicleId log session i) (hr : c.resume = some phase) :
    RpcCall.Sound vehicleId log session i ⟨c.rpc, phase⟩ := by
  rw [RpcCall.resume.eq_def] at hr
  split at hr
  · next zone resp =>
      cases hr
      exact sound_of_started (by simp) (by simp) h.started
  · next rpc reply _ =>
      cases hr
      refine sound_finished fun zone response hrpc hresult => ?_
      obtain rfl : rpc = .startSession zone := hrpc
      exact absurd hresult (response_startSession_ne_ok zone reply response)
  · next zone resp state =>
      cases hr
      refine sound_finished fun zone' response hrpc hresult => ?_
      obtain ⟨rec, hfor, hreply⟩ := h.asked zone' resp (.status state) hrpc rfl
      refine ⟨resp, rec, hfor, ?_⟩
      obtain ⟨e, -, -, hstarts⟩ := hfor
      obtain ⟨w₁, -, rfl⟩ := hstarts.operator
      cases hreply
      cases hresult
      rfl
  · cases hr

/-- Every step that meets the side condition keeps the invariant. -/
theorem Answering.step {s s' : Server W} {a : Action W} (h : Answering vehicleId s)
    (hguard : StartsUndisturbed s a) (hstep : s.step vehicleId zoneId a = some s') :
    Answering vehicleId s' := by
  cases moves_of_step hstep with
  | call rpc =>
      refine ⟨fun m hm => ?_, fun m hm => ?_, fun i c hc => ?_⟩
      · rw [Server.rpcs, List.map_append]
        exact (h.queued m hm).append _
      · rw [Server.rpcs, List.map_append]
        exact (h.busy m hm).append _
      · rw [List.getElem?_append] at hc
        split at hc
        · exact h.sound i c hc
        · rw [List.mem_singleton.1 (List.mem_of_getElem? hc)]
          exact sound_of_silent rfl (by simp) (by simp)
  | lockChanged isLocked =>
      refine h.push fun i round hm => ?_
      cases hm
  | send i rpc hc =>
      refine (h.push fun j round hm => ?_).move fun c _ => sound_of_silent rfl (by simp) (by simp)
      cases hm
      exact ⟨rpc, by rw [Server.rpcs, List.getElem?_map, hc]; rfl, rfl⟩
  | sendStatus i rpc resp hc =>
      refine (h.push fun j round hm => ?_).move fun c hc' => ?_
      · cases hm
        exact ⟨rpc, by rw [Server.rpcs, List.getElem?_map, hc]; rfl, rfl⟩
      · obtain rfl : ⟨rpc, .sendingStatus resp⟩ = c := Option.some.inj (hc.symm.trans hc')
        exact sound_of_started (by simp) (by simp) (h.sound i _ hc).started
  | recv m queue _ hq =>
      refine ⟨fun m' hm' => ?_, fun m' hm' => ?_, h.sound⟩
      · exact h.queued m' (hq ▸ List.mem_cons_of_mem m hm')
      · cases hm'
        exact h.queued m (hq ▸ List.mem_cons_self)
  | finish env m hb =>
      have hrpcs : (s.handle vehicleId zoneId m env).rpcs = s.rpcs := rpcs_deliver s.calls m _
      refine ⟨fun m' hm' => ?_, fun m' hm' => ?_, fun i c' hc' => ?_⟩
      · rw [hrpcs]
        exact h.queued m' hm'
      · cases hm'
      · obtain ⟨c, hc, hcases⟩ := getElem?_deliver hc'
        have hafter := (h.sound i c hc).handle zoneId (List.mem_of_getElem? hc) hb hguard
        rcases hcases with rfl | ⟨round, r, hm, hr, rfl⟩
        · exact hafter
        · obtain ⟨rpc, hrpc, hev⟩ := h.busy m hb i round hm
          rw [Server.rpcs, List.getElem?_map, hc] at hrpc
          cases hrpc
          exact (h.sound i c hc).receive hafter hm hev hr
  | resume i c phase hc hr =>
      refine h.move fun c' hc' => ?_
      obtain rfl : c = c' := Option.some.inj (hc.symm.trans hc')
      exact (h.sound i c hc).resume hr
  | cancel i => exact h.move fun c _ => sound_of_silent rfl (by simp) (by simp)

/-! ### The reply -/

/-- **The reply to a start describes the session that it started**, in every run in which no session
is stopped while a call is between its successful start and its status: it carries the session id of
the operator call that was made for it, the zone asked for, and the start time of the record. -/
theorem start_reply_describes_session {w₀ : W} {s : Server W}
    (h : Lts.Reach (Lts.restrict (Server.step vehicleId zoneId) StartsUndisturbed)
      (Server.init w₀) s) {i : ℕ} {zone : String} {response : RpcResponse}
    (hc : s.calls[i]? = some ⟨.startSession zone, .finished (.ok response)⟩) :
    ∃ resp rec, StartedFor vehicleId s.log i zone resp rec ∧
      response = .session ⟨resp.sessionId, true, rec.startTime, zone⟩ := by
  have hinv : Answering vehicleId s := by
    refine h.invariant (answering_init w₀) fun s a s' hs hstep => ?_
    obtain ⟨hguard, hstep⟩ := Lts.restrict_eq_some_iff.1 hstep
    exact hs.step hguard hstep
  exact (hinv.sound i _ hc).done zone response rfl rfl

/-! ### Two runs -/

/-- The successful response of a call. -/
def RpcCall.okResponse : RpcCall → Option RpcResponse
  | ⟨_, .finished (.ok response)⟩ => some response
  | _ => none

theorem eq_of_okResponse {c : RpcCall} {rpc : Rpc} {response : RpcResponse} (hrpc : c.rpc = rpc)
    (h : c.okResponse = some response) : c = ⟨rpc, .finished (.ok response)⟩ := by
  rw [RpcCall.okResponse.eq_def] at h
  split at h
  · cases h
    cases hrpc
    rfl
  · cases h

/-- An operator that answers every start with the given session and every stop with success, at a
given time. -/
def environmentAt (sessionId : String) (time : Int64) : Environment Unit where
  operator :=
    { startSession := fun _ _ w =>
        (.ok ⟨sessionId, "active", ⟨"per_hour", .round .binary64 false 5 0, "EUR"⟩⟩, w)
      stopSession := fun id w => (.ok ⟨id, "completed", 60, .round .binary64 false 5 0, "EUR"⟩, w) }
  broker := { setBool := fun _ _ w => (.ok (), w) }
  unixTimestamp := fun _ => time

/-- A call starts the session `s-1` in the zone `z-1`. -/
def startsFirst : List (Action Unit) :=
  [.call (.startSession "z-1"), .send 0, .recv, .finish (environmentAt "s-1" 100)]

/-- The call asks for the status and returns. -/
def asksStatus : List (Action Unit) :=
  [.resume 0, .send 0, .recv, .finish (environmentAt "s-1" 101), .resume 0]

/-- The vehicle is unlocked and locked again, which starts the session `s-2`. -/
def unlocksAndLocks : List (Action Unit) :=
  [.lockChanged false, .lockChanged true, .recv, .finish (environmentAt "s-2" 150), .recv,
    .finish (environmentAt "s-2" 200)]

/-- Without interference the reply is that of `s-1`. -/
theorem start_reply_alone :
    ∃ s, Lts.run (Lts.restrict (Server.step "v-1" "z-0") StartsUndisturbed) (Server.init ())
        (startsFirst ++ asksStatus) = some s ∧
      ∃ resp rec, StartedFor "v-1" s.log 0 "z-1" resp rec ∧
        RpcResponse.session ⟨"s-1", true, 100, "z-1"⟩ =
          .session ⟨resp.sessionId, true, rec.startTime, "z-1"⟩ := by
  have hrun : (Lts.run (Lts.restrict (Server.step "v-1" "z-0") StartsUndisturbed)
      (Server.init ()) (startsFirst ++ asksStatus)).map (fun s => decide (∃ c ∈ s.calls[0]?,
        c.rpc = .startSession "z-1" ∧
          c.okResponse = some (.session ⟨"s-1", true, 100, "z-1"⟩))) = some true := by decide
  obtain ⟨s, hs, hd⟩ := Option.map_eq_some_iff.1 hrun
  obtain ⟨c, hc, hrpc, hresponse⟩ := of_decide_eq_true hd
  rw [eq_of_okResponse hrpc hresponse] at hc
  exact ⟨s, hs, start_reply_describes_session (Lts.reach_of_run hs) hc⟩

/-- **A session stopped before the status is asked for**: the reply to the start of `s-1` in `z-1`
carries the data of `s-2`, which the lock event has started in `z-0`. -/
theorem start_reply_of_other_session :
    ¬ ∀ (vehicleId zoneId : String) (s : Server Unit),
      Lts.Reach (Server.step vehicleId zoneId) (Server.init ()) s →
        ∀ (i : ℕ) (zone : String) (response : RpcResponse),
          s.calls[i]? = some ⟨.startSession zone, .finished (.ok response)⟩ →
            ∃ resp rec, StartedFor vehicleId s.log i zone resp rec ∧
              response = .session ⟨resp.sessionId, true, rec.startTime, zone⟩ := by
  intro hall
  have hrun : (Lts.run (Server.step "v-1" "z-0") (Server.init ())
      (startsFirst ++ unlocksAndLocks ++ asksStatus)).map (fun s => decide (∃ c ∈ s.calls[0]?,
        c.rpc = .startSession "z-1" ∧
          c.okResponse = some (.session ⟨"s-2", true, 200, "z-0"⟩))) = some true := by decide
  obtain ⟨s, hs, hd⟩ := Option.map_eq_some_iff.1 hrun
  obtain ⟨c, hc, hrpc, hresponse⟩ := of_decide_eq_true hd
  rw [eq_of_okResponse hrpc hresponse] at hc
  obtain ⟨resp, rec, -, heq⟩ := hall "v-1" "z-0" s (Lts.reach_of_run hs) 0 "z-1" _ hc
  have hzone : "z-0" = "z-1" := congrArg SessionStatus.zoneId (RpcResponse.session.inj heq)
  exact absurd hzone (by decide)

end ParkingOperatorAdaptor
