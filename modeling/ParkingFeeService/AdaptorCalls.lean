/-
**The calls of the adaptor, as their clients see them.**

Many clients call the gRPC server at the same time, lock events come in between, and a client may go
away at any moment.  Behind the one event channel all of this is put into an order.

Every call that has returned was handled by the event loop between its arrival and its return, once,
or twice if it is a start that succeeded: then the status is asked for at a second point.  Its
response is made of the replies that the loop gave there, in the one sequential run that the log is;
and a call that returned before another one arrived was handled before it.

No call is kept waiting.  Whatever the steps of the server are, in whatever order, there are only so
many of them, and when none is left every call has returned.

Main definitions:

* `ParkingOperatorAdaptor.Explains` — what a response is made of;
* `ParkingOperatorAdaptor.Tracks`, `ParkingOperatorAdaptor.Tracked` — a call, its messages in flight
  and its entries of the log;
* `ParkingOperatorAdaptor.Timed` — the server with the times at which things happened;
* `ParkingOperatorAdaptor.Server.work` — a bound on the steps that are left.

Main results:

* `ParkingOperatorAdaptor.Tracked.step`, `ParkingOperatorAdaptor.Ordered.step` — every step keeps
  the invariants;
* `ParkingOperatorAdaptor.calls_linearize` — the order of the calls;
* `ParkingOperatorAdaptor.calls_return` — every call returns.
-/

import ParkingFeeService.AdaptorStartReply

set_option relaxedAutoImplicit false
set_option autoImplicit false

namespace ParkingOperatorAdaptor

variable {W : Type} {vehicleId zoneId : String}

/-! ### Replies and responses -/

/-- The reply is of the kind that the call waits for. -/
def Rpc.Takes : Rpc → Reply → Prop
  | .startSession _, .manualStart _ | .stopSession, .manualStop _ | .getStatus, .status _
  | .getRate, .rate _ => True
  | _, _ => False

/-- The loop replies to the event of every call, and with a reply of the right kind. -/
theorem exists_result (env : Environment W) (session : Session) (rpc : Rpc) (w : W) :
    ∃ r, (processEvent env vehicleId zoneId session rpc.event w).result = some r ∧ rpc.Takes r := by
  cases rpc <;> exact ⟨_, rfl, trivial⟩

/-- The events that were handled for a call explain its response: the first reply ends it, unless
it is a start that has succeeded; then the response is made of the status at a second point. -/
inductive Explains (rpc : Rpc) : List (Step W) → Except RpcError RpcResponse → Prop
  | once (st : Step W) (r : Reply) (hev : st.event = rpc.event)
      (hr : st.effect.result = some r) (htakes : rpc.Takes r)
      (hfail : ∀ resp, r ≠ .manualStart (.ok resp)) : Explains rpc [st] (rpc.response r)
  | started (zone : String) (hrpc : rpc = .startSession zone) (st st' : Step W)
      (resp : StartResponse) (hev : st.event = .manualStart zone)
      (hr : st.effect.result = some (.manualStart (.ok resp))) (hev' : st'.event = .queryStatus) :
      Explains rpc [st, st'] (.ok (.session (startStatus zone resp st'.session.status)))

/-! ### What is in flight for a call -/

/-- The message is from the call. -/
def Message.isFrom (i : ℕ) (m : Message) : Bool := m.reply.map Prod.fst = some i

/-- The messages of a call that have not been handled yet. -/
def Server.pending (s : Server W) (i : ℕ) : List Message :=
  (s.busy.toList ++ s.queue).filter (Message.isFrom i)

/-- The events that were handled for a call. -/
def Server.entries (s : Server W) (i : ℕ) : List (Step W) :=
  (s.log.filter fun h => h.sender = some i).map Handled.step

/-- The call is at this point with these messages in flight and these entries. -/
inductive Tracks (i : ℕ) (rpc : Rpc) : List Message → List (Step W) → Phase → Prop
  | sending : Tracks i rpc [] [] .sending
  | waiting : Tracks i rpc [⟨rpc.event, some (i, .first)⟩] [] .waiting
  | answered (st : Step W) (r : Reply) (hev : st.event = rpc.event)
      (hr : st.effect.result = some r) (htakes : rpc.Takes r) :
      Tracks i rpc [] [st] (.answered r)
  | sendingStatus (zone : String) (hrpc : rpc = .startSession zone) (st : Step W)
      (resp : StartResponse) (hev : st.event = .manualStart zone)
      (hr : st.effect.result = some (.manualStart (.ok resp))) :
      Tracks i rpc [] [st] (.sendingStatus resp)
  | waitingStatus (zone : String) (hrpc : rpc = .startSession zone) (st : Step W)
      (resp : StartResponse) (hev : st.event = .manualStart zone)
      (hr : st.effect.result = some (.manualStart (.ok resp))) :
      Tracks i rpc [⟨.queryStatus, some (i, .status)⟩] [st] (.waitingStatus resp)
  | answeredStatus (zone : String) (hrpc : rpc = .startSession zone) (st st' : Step W)
      (resp : StartResponse) (hev : st.event = .manualStart zone)
      (hr : st.effect.result = some (.manualStart (.ok resp))) (hev' : st'.event = .queryStatus) :
      Tracks i rpc [] [st, st'] (.answeredStatus resp (.status st'.session.status))
  | finished (entries : List (Step W)) (result : Except RpcError RpcResponse)
      (h : Explains rpc entries result) : Tracks i rpc [] entries (.finished result)
  | cancelled (pending : List Message) (entries : List (Step W)) :
      Tracks i rpc pending entries .cancelled

/-- Every call is tracked, and there is nothing of calls that have not arrived. -/
structure Tracked (s : Server W) : Prop where
  calls : ∀ i c, s.calls[i]? = some c → Tracks i c.rpc (s.pending i) (s.entries i) c.phase
  others : ∀ i, s.calls[i]? = none → s.pending i = [] ∧ s.entries i = []

theorem tracked_init (w₀ : W) : Tracked (Server.init w₀) := by
  refine ⟨fun i c hc => ?_, fun i _ => ⟨rfl, rfl⟩⟩
  simp [Server.init] at hc

/-! ### The steps -/

section Steps

variable {s : Server W} {i j : ℕ} {c : RpcCall} {m : Message}

theorem getElem?_move_self (h : s.calls[i]? = some c) (phase : Phase) :
    (s.move i phase).calls[i]? = some ⟨c.rpc, phase⟩ := by
  rw [Server.move, List.getElem?_modify_eq, h]
  rfl

theorem getElem?_move_of_ne (h : j ≠ i) (phase : Phase) :
    (s.move i phase).calls[j]? = s.calls[j]? :=
  List.getElem?_modify_ne _ _ (Ne.symm h)

/-- A message gets into the channel. -/
theorem pending_push (s : Server W) (m : Message) (j : ℕ) :
    Server.pending { s with queue := s.queue ++ [m] } j =
      s.pending j ++ [m].filter (Message.isFrom j) := by
  simp only [Server.pending, List.filter_append, List.append_assoc]

/-- The message that is taken out of the channel stays in flight. -/
theorem pending_recv {queue : List Message} (hb : s.busy = none) (hq : s.queue = m :: queue)
    (j : ℕ) : Server.pending { s with busy := some m, queue := queue } j = s.pending j := by
  simp only [Server.pending, hb, hq, Option.toList_some, Option.toList_none, List.singleton_append,
    List.nil_append]

theorem filter_isFrom_self (event : SessionEvent) (round : Round) (i : ℕ) :
    [Message.mk event (some (i, round))].filter (Message.isFrom i) =
      [⟨event, some (i, round)⟩] := by
  simp [Message.isFrom]

theorem filter_isFrom_of_ne (event : SessionEvent) (round : Round) (h : j ≠ i) :
    [Message.mk event (some (i, round))].filter (Message.isFrom j) = [] := by
  simp [Message.isFrom, Ne.symm h]

/-- A step that concerns one call leaves the others tracked. -/
theorem Tracked.change {s' : Server W} (h : Tracked s) (hc : s'.calls[i]? = some c)
    (hself : Tracks i c.rpc (s'.pending i) (s'.entries i) c.phase)
    (hothers : ∀ j, j ≠ i → s'.calls[j]? = s.calls[j]? ∧ s'.pending j = s.pending j ∧
      s'.entries j = s.entries j) : Tracked s' := by
  refine ⟨fun j c' hc' => ?_, fun j hj => ?_⟩
  · by_cases hji : j = i
    · subst hji
      rw [hc] at hc'
      cases hc'
      exact hself
    · obtain ⟨hcalls, hpending, hentries⟩ := hothers j hji
      rw [hpending, hentries]
      exact h.calls j c' (hcalls ▸ hc')
  · by_cases hji : j = i
    · subst hji
      rw [hc] at hj
      cases hj
    · obtain ⟨hcalls, hpending, hentries⟩ := hothers j hji
      rw [hpending, hentries]
      exact h.others j (hcalls ▸ hj)

/-- A call moves on its own. -/
theorem Tracked.move (h : Tracked s) (hc : s.calls[i]? = some c) {phase : Phase}
    (hself : Tracks i c.rpc (s.pending i) (s.entries i) phase) : Tracked (s.move i phase) :=
  h.change (getElem?_move_self hc phase) hself
    fun _ hj => ⟨getElem?_move_of_ne hj phase, rfl, rfl⟩

/-- A call sends a message. -/
theorem Tracked.send (h : Tracked s) (hc : s.calls[i]? = some c) (event : SessionEvent)
    (round : Round) {phase : Phase}
    (hself : Tracks i c.rpc (s.pending i ++ [⟨event, some (i, round)⟩]) (s.entries i) phase) :
    Tracked (Server.move { s with queue := s.queue ++ [⟨event, some (i, round)⟩] } i phase) := by
  refine h.change (getElem?_move_self (s := { s with queue := _ }) hc phase) ?_ fun j hj =>
    ⟨getElem?_move_of_ne hj phase, ?_, rfl⟩
  · have hpending := pending_push s ⟨event, some (i, round)⟩ i
    rw [filter_isFrom_self] at hpending
    exact hpending ▸ hself
  · have hpending := pending_push s ⟨event, some (i, round)⟩ j
    rw [filter_isFrom_of_ne event round hj, List.append_nil] at hpending
    exact hpending

/-- The entries of a call after an event. -/
theorem entries_handle (s : Server W) (m : Message) (env : Environment W) (j : ℕ) :
    (s.handle vehicleId zoneId m env).entries j = s.entries j ++
      if m.reply.map Prod.fst = some j then
        [⟨m.event, env, s.session, s.world,
          processEvent env vehicleId zoneId s.session m.event s.world⟩]
      else [] := by
  simp only [Server.entries, Server.handle, List.filter_append, List.map_append]
  split
  · next h => simp [h]
  · next h => simp [h]

/-- The messages in flight after an event: the one that the loop is at was the first. -/
theorem pending_handle (hb : s.busy = some m) (env : Environment W) (j : ℕ) :
    s.pending j = [m].filter (Message.isFrom j) ++
      (s.handle vehicleId zoneId m env).pending j := by
  simp only [Server.pending, Server.handle, hb, Option.toList_some, Option.toList_none,
    List.filter_append, List.nil_append]

/-- A reply gets to no other call. -/
theorem getElem?_deliver_of_ne {calls : List RpcCall} (hm : m.reply.map Prod.fst ≠ some j)
    (reply : Option Reply) : (deliver calls m reply)[j]? = calls[j]? := by
  rw [deliver.eq_def]
  split
  · next i round r hreply =>
      rw [hreply] at hm
      exact List.getElem?_modify_ne _ _ fun hij => hm (congrArg some hij)
  · rfl

/-- A reply gets to the call that the event is from. -/
theorem getElem?_deliver_self {calls : List RpcCall} {round : Round} {r : Reply}
    (hc : calls[i]? = some c) (event : SessionEvent) :
    (deliver calls ⟨event, some (i, round)⟩ (some r))[i]? = some (c.receive round r) := by
  have hmodify := List.getElem?_modify_eq (RpcCall.receive round r) i calls
  rw [hc] at hmodify
  exact hmodify

/-- The event of a call is handled: the call gets the reply, unless its client has gone. -/
theorem Tracks.handle {calls : List RpcCall} {round : Round} {pending : List Message}
    {entries : List (Step W)} (env : Environment W) (session : Session) (w : W)
    (hc : calls[i]? = some c) (hm : m.reply = some (i, round))
    (h : Tracks i c.rpc (m :: pending) entries c.phase) :
    ∃ c', (deliver calls m (processEvent env vehicleId zoneId session m.event w).result)[i]? =
        some c' ∧
      Tracks i c'.rpc pending (entries ++ [⟨m.event, env, session, w,
        processEvent env vehicleId zoneId session m.event w⟩]) c'.phase := by
  obtain ⟨rpc, phase⟩ := c
  cases h with
  | waiting =>
      obtain ⟨r, hr, htakes⟩ := @exists_result W vehicleId zoneId env session rpc w
      cases hm
      rw [hr]
      exact ⟨_, getElem?_deliver_self hc rpc.event, .answered _ r rfl hr htakes⟩
  | waitingStatus zone hrpc st resp hev hr =>
      cases hm
      exact ⟨_, getElem?_deliver_self hc .queryStatus,
        .answeredStatus zone hrpc st ⟨.queryStatus, env, session, w, _⟩ resp hev hr rfl⟩
  | cancelled =>
      cases hres : (processEvent env vehicleId zoneId session m.event w).result with
      | none =>
          refine ⟨⟨rpc, .cancelled⟩, ?_, .cancelled _ _⟩
          simpa [deliver] using hc
      | some r =>
          obtain ⟨event, reply⟩ := m
          cases hm
          refine ⟨_, getElem?_deliver_self hc event, ?_⟩
          cases round <;> exact .cancelled _ _

/-- The loop handles an event. -/
theorem Tracked.handle (h : Tracked s) (hb : s.busy = some m) (env : Environment W) :
    Tracked (s.handle vehicleId zoneId m env) := by
  have hpending := @pending_handle W vehicleId zoneId s m hb env
  have hentries := @entries_handle W vehicleId zoneId s m env
  rcases hreply : m.reply with - | ⟨i, round⟩
  · -- an event of the lock forwarder
    have hnone : ∀ j, [m].filter (Message.isFrom j) = [] := fun j => by
      simp [Message.isFrom, hreply]
    refine ⟨fun j c hc => ?_, fun j hj => ?_⟩
    · have hc' : s.calls[j]? = some c :=
        (getElem?_deliver_of_ne (by simp [hreply]) _).symm.trans hc
      have htracks := h.calls j c hc'
      rw [hpending, hnone, List.nil_append] at htracks
      rw [hentries, hreply, if_neg (by simp), List.append_nil]
      exact htracks
    · have hj' : s.calls[j]? = none :=
        (getElem?_deliver_of_ne (by simp [hreply]) _).symm.trans hj
      obtain ⟨hpend, hents⟩ := h.others j hj'
      rw [hpending, hnone, List.nil_append] at hpend
      rw [hentries, hreply, if_neg (by simp), List.append_nil]
      exact ⟨hpend, hents⟩
  · have hself : [m].filter (Message.isFrom i) = [m] := by simp [Message.isFrom, hreply]
    cases hc : s.calls[i]? with
    | none =>
        have hpend := (h.others i hc).1
        rw [hpending, hself] at hpend
        cases hpend
    | some c =>
        have htracks := h.calls i c hc
        rw [hpending, hself, List.singleton_append] at htracks
        obtain ⟨c', hc', htracks'⟩ :=
          @Tracks.handle W vehicleId zoneId i c m _ round _ _ env s.session s.world hc hreply
            htracks
        refine h.change (i := i) hc' ?_ fun j hj => ⟨?_, ?_, ?_⟩
        · rw [hentries, hreply, Option.map_some, if_pos rfl]
          exact htracks'
        · exact getElem?_deliver_of_ne (by simpa [hreply] using Ne.symm hj) _
        · have hother : [m].filter (Message.isFrom j) = [] := by
            simp [Message.isFrom, hreply, Ne.symm hj]
          rw [hpending, hother, List.nil_append]
        · rw [hentries, hreply, if_neg (by simpa using Ne.symm hj), List.append_nil]

/-- How a call goes on with a reply. -/
theorem resume_cases {phase : Phase} (h : c.resume = some phase) :
    (∃ zone resp, c = ⟨.startSession zone, .answered (.manualStart (.ok resp))⟩ ∧
        phase = .sendingStatus resp) ∨
      (∃ rpc reply, c = ⟨rpc, .answered reply⟩ ∧ phase = .finished (rpc.response reply) ∧
        ∀ zone resp, rpc = .startSession zone → reply ≠ .manualStart (.ok resp)) ∨
      ∃ zone resp state, c = ⟨.startSession zone, .answeredStatus resp (.status state)⟩ ∧
        phase = .finished (.ok (.session (startStatus zone resp state))) := by
  rw [RpcCall.resume.eq_def] at h
  split at h
  · next zone resp =>
      cases h
      exact .inl ⟨zone, resp, rfl, rfl⟩
  · next rpc reply hne =>
      cases h
      refine .inr (.inl ⟨rpc, reply, rfl, rfl, fun zone resp hrpc hreply => ?_⟩)
      exact hne zone resp hrpc hreply
  · next zone resp state =>
      cases h
      exact .inr (.inr ⟨zone, resp, state, rfl, rfl⟩)
  · cases h

/-- A call that goes on with a reply stays tracked. -/
theorem Tracks.resume {pending : List Message} {entries : List (Step W)} {phase : Phase}
    (h : Tracks i c.rpc pending entries c.phase) (hr : c.resume = some phase) :
    Tracks i c.rpc pending entries phase := by
  rcases resume_cases hr with ⟨zone, resp, rfl, rfl⟩ | ⟨rpc, reply, rfl, rfl, hfail⟩ |
    ⟨zone, resp, state, rfl, rfl⟩
  · cases h with
    | answered st _ hev hres _ => exact .sendingStatus zone rfl st resp hev hres
  · cases h with
    | answered st _ hev hres htakes =>
        refine .finished _ _ (.once st reply hev hres htakes fun resp hreply => ?_)
        subst hreply
        cases rpc with
        | startSession zone => exact hfail zone resp rfl rfl
        | stopSession | getStatus | getRate => exact htakes
  · cases h with
    | answeredStatus zone' hrpc st st' _ hev hres hev' =>
        cases hrpc
        exact .finished _ _ (.started zone rfl st st' resp hev hres hev')

theorem Tracks.of_finished {rpc : Rpc} {pending : List Message} {entries : List (Step W)}
    {result : Except RpcError RpcResponse} (h : Tracks i rpc pending entries (.finished result)) :
    pending = [] ∧ Explains rpc entries result := by
  cases h with
  | finished _ _ hexplains => exact ⟨rfl, hexplains⟩

/-- **Every step keeps the calls tracked.** -/
theorem Tracked.step {s' : Server W} {a : Action W} (h : Tracked s)
    (hstep : s.step vehicleId zoneId a = some s') : Tracked s' := by
  cases moves_of_step hstep with
  | call rpc =>
      obtain ⟨hpending, hentries⟩ := h.others s.calls.length (List.getElem?_eq_none le_rfl)
      refine h.change (i := s.calls.length) (c := ⟨rpc, .sending⟩) ?_ ?_ fun j hj => ⟨?_, rfl, rfl⟩
      · simp
      · change Tracks _ _ (s.pending _) (s.entries _) _
        rw [hpending, hentries]
        exact .sending
      · rcases Nat.lt_or_gt_of_ne hj with hlt | hgt
        · exact List.getElem?_append_left hlt
        · have hlen : (s.calls ++ [RpcCall.mk rpc .sending]).length ≤ j := by
            rw [List.length_append, List.length_singleton]
            exact hgt
          exact (List.getElem?_eq_none hlen).trans (List.getElem?_eq_none (Nat.le_of_lt hgt)).symm
  | lockChanged isLocked =>
      refine ⟨fun j c hc => ?_, fun j hj => ?_⟩
      · rw [pending_push]
        exact (List.append_nil (s.pending j)).symm ▸ h.calls j c hc
      · rw [pending_push]
        exact (List.append_nil (s.pending j)).symm ▸ h.others j hj
  | send i rpc hc =>
      have htracks := h.calls i _ hc
      refine h.send hc rpc.event .first ?_
      generalize s.pending i = pending at htracks ⊢
      generalize s.entries i = entries at htracks ⊢
      cases htracks
      exact .waiting
  | sendStatus i rpc resp hc =>
      have htracks := h.calls i _ hc
      refine h.send hc .queryStatus .status ?_
      generalize s.pending i = pending at htracks ⊢
      generalize s.entries i = entries at htracks ⊢
      cases htracks with
      | sendingStatus zone hrpc st _ hev hr => exact .waitingStatus zone hrpc st resp hev hr
  | recv m queue hb hq =>
      refine ⟨fun j c hc => ?_, fun j hj => ?_⟩
      · rw [pending_recv hb hq]
        exact h.calls j c hc
      · rw [pending_recv hb hq]
        exact h.others j hj
  | finish env m hb => exact h.handle hb env
  | resume i c phase hc hr => exact h.move hc ((h.calls i c hc).resume hr)
  | cancel i =>
      cases hc : s.calls[i]? with
      | some c => exact h.move hc (.cancelled _ _)
      | none =>
          rw [Server.move, List.modify_eq_self (List.getElem?_eq_none_iff.1 hc)]
          exact h

end Steps

/-! ### The order of the calls -/

/-- The server with a clock that ticks at every step: when each call arrived, which call returned
when, and when each entry of the log was handled. -/
structure Timed (W : Type) where
  server : Server W
  now : ℕ
  arrived : List ℕ
  returned : List (ℕ × ℕ)
  handled : List ℕ

/-- An adaptor that has just started. -/
def Timed.init (w₀ : W) : Timed W := ⟨Server.init w₀, 0, [], [], []⟩

/-- The call returns with this step. -/
def returns (s' : Server W) : Action W → Option ℕ
  | .resume i =>
      match s'.calls[i]? with
      | some ⟨_, .finished _⟩ => some i
      | _ => none
  | _ => none

/-- A call arrives with this step. -/
def Action.arrives : Action W → Bool
  | .call _ => true
  | _ => false

/-- An event is handled with this step. -/
def Action.handles : Action W → Bool
  | .finish _ => true
  | _ => false

/-- One step. -/
def Timed.step (vehicleId zoneId : String) (t : Timed W) (a : Action W) : Option (Timed W) :=
  (t.server.step vehicleId zoneId a).map fun s' =>
    { server := s'
      now := t.now + 1
      arrived := t.arrived ++ if a.arrives then [t.now] else []
      returned := t.returned ++ ((returns s' a).map fun i => (i, t.now)).toList
      handled := t.handled ++ if a.handles then [t.now] else [] }

/-- The call that an entry of the log is from. -/
def Server.senderAt (s : Server W) (k : ℕ) : Option ℕ := (s.log[k]?).bind Handled.sender

/-- The call has returned, or its client has gone. -/
def Phase.isOver : Phase → Bool
  | .finished _ | .cancelled => true
  | _ => false

/-- The call is over and nothing of it is in flight. -/
def Server.Gone (s : Server W) (i : ℕ) : Prop :=
  s.pending i = [] ∧ ∃ c, s.calls[i]? = some c ∧ c.phase.isOver = true

section Gone

variable {s : Server W} {i j : ℕ} {c : RpcCall}

/-- A call that moves is another one. -/
theorem Server.Gone.ne (h : s.Gone i) (hc : s.calls[j]? = some c) (hover : c.phase.isOver = false) :
    i ≠ j := by
  rintro rfl
  obtain ⟨-, c', hc', hover'⟩ := h
  rw [hc] at hc'
  cases hc'
  rw [hover] at hover'
  cases hover'

theorem Server.Gone.move (h : s.Gone i) (hne : i ≠ j) (phase : Phase) :
    (s.move j phase).Gone i := by
  obtain ⟨hpending, hcall⟩ := h
  refine ⟨hpending, ?_⟩
  rw [getElem?_move_of_ne hne]
  exact hcall

/-- A message that is not from the call gets into the channel. -/
theorem Server.Gone.push (h : s.Gone i) {m : Message} (hm : [m].filter (Message.isFrom i) = []) :
    Server.Gone { s with queue := s.queue ++ [m] } i := by
  refine ⟨?_, h.2⟩
  rw [pending_push, h.1, hm]
  rfl

theorem isOver_of_resume {phase : Phase} (hr : c.resume = some phase) :
    c.phase.isOver = false := by
  rcases resume_cases hr with ⟨zone, resp, rfl, rfl⟩ | ⟨rpc, reply, rfl, rfl, -⟩ |
    ⟨zone, resp, state, rfl, rfl⟩ <;> rfl

/-- A call that is gone stays so. -/
theorem Server.Gone.step {s' : Server W} {a : Action W} (h : s.Gone i)
    (hstep : s.step vehicleId zoneId a = some s') : s'.Gone i := by
  cases moves_of_step hstep with
  | call rpc =>
      obtain ⟨hpending, c, hc, hover⟩ := h
      refine ⟨hpending, c, ?_, hover⟩
      obtain ⟨hi, -⟩ := List.getElem?_eq_some_iff.1 hc
      exact (List.getElem?_append_left hi).trans hc
  | lockChanged isLocked => exact h.push rfl
  | send j rpc hc =>
      have hne := h.ne hc rfl
      exact (h.push (filter_isFrom_of_ne _ _ hne)).move hne _
  | sendStatus j rpc resp hc =>
      have hne := h.ne hc rfl
      exact (h.push (filter_isFrom_of_ne _ _ hne)).move hne _
  | recv m queue hb hq =>
      refine ⟨?_, h.2⟩
      rw [pending_recv hb hq]
      exact h.1
  | finish env m hb =>
      obtain ⟨hpending, c, hc, hover⟩ := h
      rw [@pending_handle W vehicleId zoneId s m hb env, List.append_eq_nil_iff] at hpending
      obtain ⟨hm, hpending⟩ := hpending
      refine ⟨hpending, c, ?_, hover⟩
      rw [← hc]
      refine getElem?_deliver_of_ne (fun hfrom => ?_) _
      simp [Message.isFrom, hfrom] at hm
  | resume j c phase hc hr => exact h.move (h.ne hc (isOver_of_resume hr)) phase
  | cancel j =>
      by_cases hij : i = j
      · subst hij
        obtain ⟨hpending, c, hc, -⟩ := h
        exact ⟨hpending, _, getElem?_move_self hc .cancelled, rfl⟩
      · exact h.move hij _

end Gone

/-- The times are those of what has happened: a call arrives before its events are handled, and when
it has returned nothing of it is in flight any more. -/
structure Ordered (t : Timed W) : Prop where
  arrived : t.arrived.length = t.server.calls.length
  handled : t.handled.length = t.server.log.length
  past : (∀ x ∈ t.arrived, x < t.now) ∧ ∀ y ∈ t.handled, y < t.now
  increasing : t.handled.Pairwise (· < ·)
  after : ∀ k i x y, t.server.senderAt k = some i → t.handled[k]? = some y →
    t.arrived[i]? = some x → x < y
  before : ∀ k i x y, t.server.senderAt k = some i → t.handled[k]? = some y →
    (i, x) ∈ t.returned → y < x
  gone : ∀ i x, (i, x) ∈ t.returned → t.server.Gone i

theorem ordered_init (w₀ : W) : Ordered (Timed.init w₀) := by
  refine ⟨rfl, rfl, ⟨by simp [Timed.init], by simp [Timed.init]⟩, List.Pairwise.nil, ?_, ?_, ?_⟩
  · intro k i x y hk
    simp [Timed.init, Server.init, Server.senderAt] at hk
  · intro k i x y hk
    simp [Timed.init, Server.init, Server.senderAt] at hk
  · intro i x hx
    simp [Timed.init] at hx

section Ordered

variable {t : Timed W} {s' : Server W}

/-- The entries of the log are from calls that have arrived. -/
theorem Tracked.lt_of_senderAt {s : Server W} {k i : ℕ} (h : Tracked s)
    (hk : s.senderAt k = some i) : i < s.calls.length := by
  by_contra hge
  obtain ⟨x, hx, hsender⟩ := Option.bind_eq_some_iff.1 hk
  have hnone := (h.others i (List.getElem?_eq_none (Nat.le_of_not_lt hge))).2
  have hmem : x.step ∈ s.entries i :=
    List.mem_map_of_mem (List.mem_filter.2 ⟨List.mem_of_getElem? hx, by simpa using hsender⟩)
  rw [hnone] at hmem
  cases hmem

/-- Nothing but the clock goes on. -/
theorem Ordered.tick (h : Ordered t) (hgone : ∀ i, t.server.Gone i → s'.Gone i)
    (hcalls : s'.calls.length = t.server.calls.length) (hlog : s'.log = t.server.log) :
    Ordered ⟨s', t.now + 1, t.arrived, t.returned, t.handled⟩ := by
  refine ⟨h.arrived.trans hcalls.symm, h.handled.trans (by rw [hlog]),
    ⟨fun x hx => Nat.lt_succ_of_lt (h.past.1 x hx), fun y hy => Nat.lt_succ_of_lt (h.past.2 y hy)⟩,
    h.increasing, fun k i x y hk => ?_, fun k i x y hk => ?_, fun i x hx => hgone i (h.gone i x hx)⟩
  · rw [Server.senderAt, hlog] at hk
    exact h.after k i x y hk
  · rw [Server.senderAt, hlog] at hk
    exact h.before k i x y hk

/-- A call arrives: none of its events has been handled. -/
theorem Ordered.call (h : Ordered t) (htracked : Tracked t.server)
    (hgone : ∀ i, t.server.Gone i → s'.Gone i)
    (hcalls : s'.calls.length = t.server.calls.length + 1) (hlog : s'.log = t.server.log) :
    Ordered ⟨s', t.now + 1, t.arrived ++ [t.now], t.returned, t.handled⟩ := by
  refine ⟨?_, h.handled.trans (by rw [hlog]), ⟨fun x hx => ?_, fun y hy =>
    Nat.lt_succ_of_lt (h.past.2 y hy)⟩, h.increasing, fun k i x y hk hy hx => ?_,
    fun k i x y hk => ?_, fun i x hx => hgone i (h.gone i x hx)⟩
  · rw [List.length_append, h.arrived, hcalls, List.length_singleton]
  · rcases List.mem_append.1 hx with hx | hx
    · exact Nat.lt_succ_of_lt (h.past.1 x hx)
    · rw [List.mem_singleton.1 hx]
      exact Nat.lt_succ_self t.now
  · rw [Server.senderAt, hlog] at hk
    rw [List.getElem?_append_left (h.arrived ▸ htracked.lt_of_senderAt hk)] at hx
    exact h.after k i x y hk hy hx
  · rw [Server.senderAt, hlog] at hk
    exact h.before k i x y hk

/-- The entry that is new is from the call of the event. -/
theorem senderAt_handle {s : Server W} {m : Message} {env : Environment W} {k i : ℕ}
    (h : (s.handle vehicleId zoneId m env).senderAt k = some i) :
    k < s.log.length ∧ s.senderAt k = some i ∨
      k = s.log.length ∧ m.reply.map Prod.fst = some i := by
  obtain ⟨x, hx, hsender⟩ := Option.bind_eq_some_iff.1 h
  rcases Nat.lt_trichotomy k s.log.length with hlt | rfl | hgt
  · rw [Server.handle, List.getElem?_append_left hlt] at hx
    exact .inl ⟨hlt, Option.bind_eq_some_iff.2 ⟨x, hx, hsender⟩⟩
  · rw [Server.handle, List.getElem?_concat_length] at hx
    cases hx
    exact .inr ⟨rfl, hsender⟩
  · have hlen : (s.handle vehicleId zoneId m env).log.length ≤ k := by
      rw [Server.handle, List.length_append, List.length_singleton]
      exact hgt
    rw [List.getElem?_eq_none hlen] at hx
    cases hx

/-- An event is handled: its call has arrived before, and it is not over. -/
theorem Ordered.handle (h : Ordered t) {m : Message} (hb : t.server.busy = some m)
    {env : Environment W} (hs' : s' = t.server.handle vehicleId zoneId m env)
    (hgone : ∀ i, t.server.Gone i → s'.Gone i)
    (hcalls : s'.calls.length = t.server.calls.length) :
    Ordered ⟨s', t.now + 1, t.arrived, t.returned, t.handled ++ [t.now]⟩ := by
  have hold : ∀ {k y : ℕ}, k < t.server.log.length → (t.handled ++ [t.now])[k]? = some y →
      t.handled[k]? = some y := by
    intro k y hk hy
    rwa [List.getElem?_append_left (h.handled.symm ▸ hk)] at hy
  have hnew : ∀ {y : ℕ}, (t.handled ++ [t.now])[t.server.log.length]? = some y → y = t.now := by
    intro y hy
    rw [← h.handled, List.getElem?_concat_length] at hy
    exact (Option.some.inj hy).symm
  subst hs'
  refine ⟨h.arrived.trans hcalls.symm, ?_, ⟨fun x hx => Nat.lt_succ_of_lt (h.past.1 x hx),
    fun y hy => ?_⟩, ?_, fun k i x y hk hy hx => ?_, fun k i x y hk hy hx => ?_,
    fun i x hx => hgone i (h.gone i x hx)⟩
  · rw [List.length_append, h.handled, Server.handle, List.length_append]
    rfl
  · rcases List.mem_append.1 hy with hy | hy
    · exact Nat.lt_succ_of_lt (h.past.2 y hy)
    · rw [List.mem_singleton.1 hy]
      exact Nat.lt_succ_self t.now
  · refine List.pairwise_append.2 ⟨h.increasing, List.pairwise_singleton _ _, fun x hx y hy => ?_⟩
    rw [List.mem_singleton.1 hy]
    exact h.past.2 x hx
  · rcases senderAt_handle hk with ⟨hlt, hk⟩ | ⟨rfl, -⟩
    · exact h.after k i x y hk (hold hlt hy) hx
    · rw [hnew hy]
      exact h.past.1 x (List.mem_of_getElem? hx)
  · rcases senderAt_handle hk with ⟨hlt, hk⟩ | ⟨rfl, hfrom⟩
    · exact h.before k i x y hk (hold hlt hy) hx
    · -- the event would be in flight after the return of its call
      obtain ⟨hpending, -⟩ := h.gone i x hx
      rw [@pending_handle W vehicleId zoneId t.server m hb env] at hpending
      simp [Message.isFrom, hfrom] at hpending

/-- A call returns: the events that were handled for it were handled before. -/
theorem Ordered.return (h : Ordered t) {i : ℕ} (hi : s'.Gone i)
    (hgone : ∀ j, t.server.Gone j → s'.Gone j)
    (hcalls : s'.calls.length = t.server.calls.length) (hlog : s'.log = t.server.log) :
    Ordered ⟨s', t.now + 1, t.arrived, t.returned ++ [(i, t.now)], t.handled⟩ := by
  have htick := h.tick hgone hcalls hlog
  refine ⟨htick.arrived, htick.handled, htick.past, htick.increasing, htick.after,
    fun k j x y hk hy hx => ?_, fun j x hx => ?_⟩
  · rcases List.mem_append.1 hx with hx | hx
    · exact htick.before k j x y hk hy hx
    · cases List.mem_singleton.1 hx
      exact h.past.2 y (List.mem_of_getElem? hy)
  · rcases List.mem_append.1 hx with hx | hx
    · exact htick.gone j x hx
    · cases List.mem_singleton.1 hx
      exact hi

@[simp] theorem length_calls_move (s : Server W) (i : ℕ) (phase : Phase) :
    (s.move i phase).calls.length = s.calls.length := List.length_modify ..

theorem length_deliver (calls : List RpcCall) (m : Message) (reply : Option Reply) :
    (deliver calls m reply).length = calls.length := by
  rw [deliver.eq_def]
  split
  · exact List.length_modify ..
  · rfl

/-- A call that has returned has nothing in flight. -/
theorem Tracked.gone_of_finished {s : Server W} (h : Tracked s) {i : ℕ} {rpc : Rpc}
    {result : Except RpcError RpcResponse} (hc : s.calls[i]? = some ⟨rpc, .finished result⟩) :
    s.Gone i :=
  ⟨(h.calls i _ hc).of_finished.1, _, hc, rfl⟩

/-- Every entry of the log has its time. -/
theorem Ordered.exists_time (h : Ordered t) {k i : ℕ} (hk : t.server.senderAt k = some i) :
    ∃ y, t.handled[k]? = some y := by
  obtain ⟨x, hx, -⟩ := Option.bind_eq_some_iff.1 hk
  obtain ⟨hlt, -⟩ := List.getElem?_eq_some_iff.1 hx
  exact ⟨_, List.getElem?_eq_getElem (h.handled.symm ▸ hlt)⟩

/-- Times increase along the log. -/
theorem Ordered.lt_of_lt (h : Ordered t) {k l u v : ℕ} (hu : t.handled[k]? = some u)
    (hv : t.handled[l]? = some v) (huv : u < v) : k < l := by
  obtain ⟨hk, rfl⟩ := List.getElem?_eq_some_iff.1 hu
  obtain ⟨hl, rfl⟩ := List.getElem?_eq_some_iff.1 hv
  by_contra hge
  rcases Nat.lt_or_eq_of_le (Nat.le_of_not_lt hge) with hlt | rfl
  · exact Nat.lt_asymm huv (List.pairwise_iff_getElem.1 h.increasing l k hl hk hlt)
  · exact Nat.lt_irrefl _ huv

/-- **Every step keeps the order.** -/
theorem Ordered.step {t' : Timed W} {a : Action W} (h : Ordered t) (htracked : Tracked t.server)
    (hstep : t.step vehicleId zoneId a = some t') : Ordered t' := by
  obtain ⟨s', hs', rfl⟩ := Option.map_eq_some_iff.1 hstep
  have hgone : ∀ i, t.server.Gone i → s'.Gone i := fun i hi => hi.step hs'
  have htracked' := htracked.step hs'
  cases moves_of_step hs' with
  | call rpc =>
      simpa [returns, Action.arrives, Action.handles] using
        h.call htracked hgone List.length_append rfl
  | lockChanged isLocked =>
      simpa [returns, Action.arrives, Action.handles] using h.tick hgone rfl rfl
  | send i rpc hc | sendStatus i rpc resp hc =>
      simpa [returns, Action.arrives, Action.handles] using
        h.tick hgone (length_calls_move _ i _) rfl
  | recv m queue hb hq =>
      simpa [returns, Action.arrives, Action.handles] using h.tick hgone rfl rfl
  | finish env m hb =>
      simpa [returns, Action.arrives, Action.handles] using
        h.handle hb rfl hgone (length_deliver t.server.calls m _)
  | resume i c phase hc hr =>
      have hlen := length_calls_move t.server i phase
      have hi := getElem?_move_self hc phase
      cases phase with
      | finished result =>
          simpa [returns, Action.arrives, Action.handles, hi] using
            h.return (htracked'.gone_of_finished hi) hgone hlen rfl
      | sending | waiting | answered | sendingStatus | waitingStatus | answeredStatus | cancelled =>
          simpa [returns, Action.arrives, Action.handles, hi] using h.tick hgone hlen rfl
  | cancel i =>
      simpa [returns, Action.arrives, Action.handles] using
        h.tick hgone (length_calls_move _ i _) rfl

end Ordered

/-- A call that has returned with a step had returned before, or the step is its own. -/
theorem finished_of_step {s s' : Server W} {a : Action W} {i : ℕ} {rpc : Rpc}
    {result : Except RpcError RpcResponse} (hstep : s.step vehicleId zoneId a = some s')
    (hc : s'.calls[i]? = some ⟨rpc, .finished result⟩) :
    s.calls[i]? = some ⟨rpc, .finished result⟩ ∨ returns s' a = some i := by
  -- a call that moves to another phase is not the one
  have hmove : ∀ {j : ℕ} {phase : Phase}, (∀ result, phase ≠ .finished result) →
      (s.move j phase).calls[i]? = some ⟨rpc, .finished result⟩ →
        s.calls[i]? = some ⟨rpc, .finished result⟩ := by
    intro j phase hphase hc
    by_cases hij : i = j
    · subst hij
      rw [Server.move, List.getElem?_modify_eq] at hc
      obtain ⟨c, -, heq⟩ := Option.map_eq_some_iff.1 hc
      cases heq
      exact absurd rfl (hphase result)
    · rwa [getElem?_move_of_ne hij] at hc
  cases moves_of_step hstep with
  | call rpc' =>
      rw [List.getElem?_append] at hc
      split at hc
      · exact .inl hc
      · have hsending := List.mem_singleton.1 (List.mem_of_getElem? hc)
        cases hsending
  | lockChanged | recv => exact .inl hc
  | send j rpc' _ => exact .inl (hmove (by simp) hc)
  | sendStatus j rpc' resp _ => exact .inl (hmove (by simp) hc)
  | cancel j => exact .inl (hmove (by simp) hc)
  | finish env m hb =>
      obtain ⟨c, hc₀, heq | ⟨round, r, -, -, heq⟩⟩ := getElem?_deliver hc
      · rw [← heq] at hc₀
        exact .inl hc₀
      · rw [RpcCall.receive.eq_def] at heq
        split at heq
        · cases heq
        · cases heq
        · rw [← heq] at hc₀
          exact .inl hc₀
  | resume j c phase hc₀ hr =>
      by_cases hij : i = j
      · subst hij
        exact .inr (by simp [returns, hc])
      · rw [getElem?_move_of_ne hij] at hc
        exact .inl hc

/-- The state of the server behind the clock. -/
theorem reach_server {w₀ : W} {t : Timed W}
    (h : Lts.Reach (Timed.step vehicleId zoneId) (Timed.init w₀) t) :
    Lts.Reach (Server.step vehicleId zoneId) (Server.init w₀) t.server := by
  refine h.invariant (I := fun t => Lts.Reach (Server.step vehicleId zoneId) (Server.init w₀)
    t.server) .refl fun t a t' ht hstep => ?_
  obtain ⟨s', hs', rfl⟩ := Option.map_eq_some_iff.1 hstep
  exact ht.tail a hs'

theorem tracked_of_reach {w₀ : W} {s : Server W}
    (h : Lts.Reach (Server.step vehicleId zoneId) (Server.init w₀) s) : Tracked s :=
  h.invariant (tracked_init w₀) fun _ _ _ hs hstep => hs.step hstep

/-- Every call that has returned has its time. -/
theorem recorded_of_reach {w₀ : W} {t : Timed W}
    (h : Lts.Reach (Timed.step vehicleId zoneId) (Timed.init w₀) t) :
    ∀ i rpc result, t.server.calls[i]? = some ⟨rpc, .finished result⟩ →
      ∃ y, (i, y) ∈ t.returned := by
  refine h.invariant (I := fun t => ∀ i rpc result,
    t.server.calls[i]? = some ⟨rpc, .finished result⟩ → ∃ y, (i, y) ∈ t.returned) ?_
    fun t a t' ht hstep i rpc result hc => ?_
  · intro i rpc result hc
    simp [Timed.init, Server.init] at hc
  · obtain ⟨s', hs', rfl⟩ := Option.map_eq_some_iff.1 hstep
    rcases finished_of_step hs' hc with hc₀ | hreturns
    · obtain ⟨y, hy⟩ := ht i rpc result hc₀
      exact ⟨y, List.mem_append_left _ hy⟩
    · exact ⟨t.now, List.mem_append_right _ (by simp [hreturns])⟩

/-- The calls take effect one after the other, in the order of the log. -/
structure Linearized (vehicleId zoneId : String) (w₀ : W) (t : Timed W) : Prop where
  /-- the log is a run of the event loop -/
  run : t.server.log.map Handled.step = runEventLoop vehicleId zoneId .new w₀ t.server.events
  /-- the events that were handled for a call explain its response -/
  explained : ∀ i rpc result, t.server.calls[i]? = some ⟨rpc, .finished result⟩ →
    Explains rpc (t.server.entries i) result ∧
      ∃ x y, t.arrived[i]? = some x ∧ (i, y) ∈ t.returned
  /-- they were handled between the arrival and the return of the call -/
  within : ∀ k i x y, t.server.senderAt k = some i → t.handled[k]? = some y →
    (t.arrived[i]? = some x → x < y) ∧ ((i, x) ∈ t.returned → y < x)
  /-- a call that had returned when another one arrived was handled before it -/
  realTime : ∀ i j k l x y, (i, x) ∈ t.returned → t.arrived[j]? = some y → x < y →
    t.server.senderAt k = some i → t.server.senderAt l = some j → k < l

/-- **The calls are linearizable, event by event**, whatever calls, lock events and cancellations
there are, and however the operator and the broker answer. -/
theorem calls_linearize {w₀ : W} {t : Timed W}
    (h : Lts.Reach (Timed.step vehicleId zoneId) (Timed.init w₀) t) :
    Linearized vehicleId zoneId w₀ t := by
  have hserver := reach_server h
  have htracked := tracked_of_reach hserver
  have hboth : Tracked t.server ∧ Ordered t := by
    refine h.invariant (I := fun t => Tracked t.server ∧ Ordered t)
      ⟨tracked_init w₀, ordered_init w₀⟩ fun t a t' ht hstep => ?_
    obtain ⟨s', hs', heq⟩ := Option.map_eq_some_iff.1 hstep
    refine ⟨?_, ht.2.step ht.1 hstep⟩
    cases heq
    exact ht.1.step hs'
  obtain ⟨-, hordered⟩ := hboth
  have hwithin : ∀ k i x y, t.server.senderAt k = some i → t.handled[k]? = some y →
      (t.arrived[i]? = some x → x < y) ∧ ((i, x) ∈ t.returned → y < x) := fun k i x y hk hy =>
    ⟨hordered.after k i x y hk hy, hordered.before k i x y hk hy⟩
  refine ⟨steps_log hserver, fun i rpc result hc => ⟨(htracked.calls i _ hc).of_finished.2, ?_⟩,
    hwithin, fun i j k l x y hx hy hxy hk hl => ?_⟩
  · obtain ⟨hi, -⟩ := List.getElem?_eq_some_iff.1 hc
    obtain ⟨y, hy⟩ := recorded_of_reach h i rpc result hc
    exact ⟨_, y, List.getElem?_eq_getElem (hordered.arrived.symm ▸ hi), hy⟩
  · -- the times at which the two were handled are in this order, and times increase along the log
    obtain ⟨u, hu⟩ := hordered.exists_time hk
    obtain ⟨v, hv⟩ := hordered.exists_time hl
    have huv : u < v :=
      ((hwithin k i x u hk hu).2 hx).trans (hxy.trans ((hwithin l j y v hl hv).1 hy))
    exact hordered.lt_of_lt hu hv huv

/-- A start and a stop at the same time: the stop is handled between the two events of the start. -/
def startsAndStops : List (Action Unit) :=
  startsFirst ++
    [.call .stopSession, .send 1, .recv, .finish (environmentAt "s-1" 50), .resume 1] ++ asksStatus

/-- Both calls return, and the start is told that there is no session in the record any more. -/
theorem calls_linearize_startsAndStops :
    ∃ t, Lts.run (Timed.step "v-1" "z-0") (Timed.init ()) startsAndStops = some t ∧
      t.server.calls.map (fun c => decide (c.okResponse.isSome = true)) = [true, true] ∧
      t.returned = [(1, 8), (0, 13)] ∧ Linearized "v-1" "z-0" () t := by
  have hrun : (Lts.run (Timed.step "v-1" "z-0") (Timed.init ()) startsAndStops).map (fun t =>
      decide (t.server.calls.map (fun c => decide (c.okResponse.isSome = true)) = [true, true] ∧
        t.returned = [(1, 8), (0, 13)])) = some true := by
    decide
  obtain ⟨t, ht, hdec⟩ := Option.map_eq_some_iff.1 hrun
  obtain ⟨hcalls, hreturned⟩ := of_decide_eq_true hdec
  exact ⟨t, ht, hcalls, hreturned, calls_linearize (Lts.reach_of_run ht)⟩

/-! ### Every call returns -/

/-- A step that the server takes on its own. -/
def Action.isOwn : Action W → Bool
  | .send _ | .recv | .finish _ | .resume _ => true
  | .call _ | .lockChanged _ | .cancel _ => false

/-- How far a call is from its end; sending a message makes two steps of work for the loop. -/
def Phase.work : Phase → ℕ
  | .sending => 10
  | .waiting => 7
  | .answered _ => 6
  | .sendingStatus _ => 5
  | .waitingStatus _ => 2
  | .answeredStatus _ _ => 1
  | .finished _ | .cancelled => 0

/-- The steps that are left, at most. -/
def Server.work (s : Server W) : ℕ :=
  (s.calls.map fun c => c.phase.work).sum + 2 * s.queue.length + s.busy.toList.length

/-- What a change at one position does to a sum. -/
theorem sum_modify {α : Type*} (weight : α → ℕ) (f : α → α) :
    ∀ {l : List α} {i : ℕ} {a : α}, l[i]? = some a →
      ((l.modify i f).map weight).sum + weight a = (l.map weight).sum + weight (f a) := by
  intro l
  induction l with
  | nil => intro i a h; cases h
  | cons b l ih =>
      intro i a h
      cases i with
      | zero =>
          cases h
          simp only [List.modify_zero_cons, List.map_cons, List.sum_cons]
          omega
      | succ i =>
          have htail := ih h
          simp only [List.modify_succ_cons, List.map_cons, List.sum_cons]
          omega

/-- A call that moves closer to its end. -/
theorem work_move {s : Server W} {i : ℕ} {c : RpcCall} (hc : s.calls[i]? = some c) (phase : Phase) :
    (s.move i phase).work + c.phase.work = s.work + phase.work := by
  have hsum : ((s.move i phase).calls.map fun c => c.phase.work).sum + c.phase.work =
      (s.calls.map fun c => c.phase.work).sum + phase.work :=
    sum_modify (fun c => c.phase.work) (fun c => ⟨c.rpc, phase⟩) hc
  have hqueue : (s.move i phase).queue = s.queue := rfl
  have hbusy : (s.move i phase).busy = s.busy := rfl
  rw [Server.work, Server.work, hqueue, hbusy]
  omega

/-- A message that gets into the channel is to be taken out and to be handled. -/
theorem work_push (s : Server W) (m : Message) :
    Server.work { s with queue := s.queue ++ [m] } = s.work + 2 := by
  simp only [Server.work, List.length_append, List.length_singleton]
  omega

theorem work_receive_le (round : Round) (r : Reply) (c : RpcCall) :
    (c.receive round r).phase.work ≤ c.phase.work := by
  obtain ⟨rpc, phase⟩ := c
  cases round <;> cases phase <;> simp [RpcCall.receive, Phase.work]

/-- A reply that is delivered makes no work. -/
theorem work_deliver_le (calls : List RpcCall) (m : Message) (reply : Option Reply) :
    ((deliver calls m reply).map fun c => c.phase.work).sum ≤
      (calls.map fun c => c.phase.work).sum := by
  rw [deliver.eq_def]
  split
  · next i round r hm =>
      cases hc : calls[i]? with
      | none => rw [List.modify_eq_self (List.getElem?_eq_none_iff.1 hc)]
      | some c =>
          have hsum := sum_modify (fun c : RpcCall => c.phase.work) (RpcCall.receive round r) hc
          have hle := work_receive_le round r c
          omega
  · exact le_rfl

theorem work_resume_lt {c : RpcCall} {phase : Phase} (hr : c.resume = some phase) :
    phase.work < c.phase.work := by
  rcases resume_cases hr with ⟨zone, resp, rfl, rfl⟩ | ⟨rpc, reply, rfl, rfl, -⟩ |
    ⟨zone, resp, state, rfl, rfl⟩ <;> simp [Phase.work]

/-- **Every step of the server leaves less to do.** -/
theorem work_step_lt {s s' : Server W} {a : Action W} (hown : a.isOwn = true)
    (hstep : s.step vehicleId zoneId a = some s') : s'.work < s.work := by
  cases moves_of_step hstep with
  | call | lockChanged | cancel => cases hown
  | send i rpc hc =>
      have hpush := work_push s ⟨rpc.event, some (i, .first)⟩
      have hmove := @work_move W { s with queue := s.queue ++ [⟨rpc.event, some (i, .first)⟩] } i _
        hc .waiting
      simp only [Phase.work] at hmove
      omega
  | sendStatus i rpc resp hc =>
      have hpush := work_push s ⟨.queryStatus, some (i, .status)⟩
      have hmove := @work_move W { s with queue := s.queue ++ [⟨.queryStatus, some (i, .status)⟩] }
        i _ hc (.waitingStatus resp)
      simp only [Phase.work] at hmove
      omega
  | recv m queue hb hq =>
      simp only [Server.work, hb, hq, Option.toList_some, Option.toList_none, List.length_cons,
        List.length_nil]
      omega
  | finish env m hb =>
      have hle := work_deliver_le s.calls m
        (processEvent env vehicleId zoneId s.session m.event s.world).result
      simp only [Server.work, Server.handle, hb, Option.toList_some, Option.toList_none,
        List.length_cons, List.length_nil]
      omega
  | resume i c phase hc hr =>
      have hmove := work_move hc phase
      have hlt := work_resume_lt hr
      omega

/-- The steps of the server, when no more calls and lock events come. -/
abbrev stepOwn (vehicleId zoneId : String) : Server W → Action W → Option (Server W) :=
  Lts.restrict (Server.step vehicleId zoneId) fun _ a => a.isOwn = true

/-- The client of the call waits for its response. -/
def Server.Attends (s : Server W) (i : ℕ) (rpc : Rpc) : Prop :=
  ∃ c, s.calls[i]? = some c ∧ c.rpc = rpc ∧ c.phase ≠ .cancelled

theorem Server.Attends.move {s : Server W} {i j : ℕ} {rpc : Rpc} {phase : Phase}
    (h : s.Attends i rpc) (hphase : phase ≠ .cancelled) : (s.move j phase).Attends i rpc := by
  obtain ⟨c, hc, hrpc, hne⟩ := h
  by_cases hij : i = j
  · subst hij
    exact ⟨_, getElem?_move_self hc phase, hrpc, hphase⟩
  · exact ⟨c, (getElem?_move_of_ne hij phase).trans hc, hrpc, hne⟩

/-- A call goes on with every reply. -/
theorem exists_resume (rpc : Rpc) (r : Reply) :
    ∃ phase, RpcCall.resume ⟨rpc, .answered r⟩ = some phase := by
  rw [RpcCall.resume.eq_def]
  split
  · exact ⟨_, rfl⟩
  · exact ⟨_, rfl⟩
  · exact ⟨_, rfl⟩
  · next hne _ => exact absurd rfl (hne rpc r)

theorem receive_ne_cancelled {c : RpcCall} {round : Round} {r : Reply}
    (h : c.phase ≠ .cancelled) : (c.receive round r).phase ≠ .cancelled := by
  obtain ⟨rpc, phase⟩ := c
  cases round <;> cases phase <;> simp_all [RpcCall.receive]

/-- The server does not give up a call. -/
theorem Server.Attends.step {s s' : Server W} {a : Action W} {i : ℕ} {rpc : Rpc}
    (h : s.Attends i rpc) (hown : a.isOwn = true)
    (hstep : s.step vehicleId zoneId a = some s') : s'.Attends i rpc := by
  cases moves_of_step hstep with
  | call | lockChanged | cancel => cases hown
  | send j rpc' hc => exact Server.Attends.move (s := { s with queue := _ }) h (by simp)
  | sendStatus j rpc' resp hc => exact Server.Attends.move (s := { s with queue := _ }) h (by simp)
  | recv m queue hb hq => exact h
  | finish env m hb =>
      obtain ⟨c, hc, hrpc, hne⟩ := h
      by_cases hm : m.reply.map Prod.fst = some i
      · obtain ⟨event, reply⟩ := m
        obtain ⟨⟨_, round⟩, rfl, rfl⟩ := Option.map_eq_some_iff.1 hm
        cases hres : (processEvent env vehicleId zoneId s.session event s.world).result with
        | none => exact ⟨c, by simpa [Server.handle, hres, deliver] using hc, hrpc, hne⟩
        | some r =>
            have hself := @getElem?_deliver_self _ _ s.calls round r hc event
            rw [← hres] at hself
            exact ⟨_, hself, (receive_rpc round r c).trans hrpc, receive_ne_cancelled hne⟩
      · exact ⟨c, (getElem?_deliver_of_ne hm _).trans hc, hrpc, hne⟩
  | resume j c phase hc hr =>
      refine h.move fun hphase => ?_
      rcases resume_cases hr with ⟨zone, resp, -, heq⟩ | ⟨rpc, reply, -, heq, -⟩ |
        ⟨zone, resp, state, -, heq⟩
      all_goals
        rw [hphase] at heq
        cases heq

/-- An operator that cannot be reached. -/
def Environment.down : Environment W where
  operator :=
    { startSession := fun _ _ w => (.error (.requestFailed "unreachable"), w)
      stopSession := fun _ w => (.error (.requestFailed "unreachable"), w) }
  broker := { setBool := fun _ _ w => (.ok (), w) }
  unixTimestamp := fun _ => 0

/-- **A server that cannot go on has nothing left to do.** -/
theorem over_of_stuck {s : Server W} (h : Tracked s)
    (hstuck : ∀ a, stepOwn vehicleId zoneId s a = none) :
    s.busy = none ∧ s.queue = [] ∧ ∀ c ∈ s.calls, c.phase.isOver = true := by
  have hnone : ∀ {a : Action W}, a.isOwn = true →
      ¬ (s.step vehicleId zoneId a).isSome = true := by
    intro a hown hsome
    obtain ⟨s', hstep⟩ := Option.isSome_iff_exists.1 hsome
    have heq : stepOwn vehicleId zoneId s a = some s' := Lts.restrict_eq_some_iff.2 ⟨hown, hstep⟩
    rw [hstuck a] at heq
    cases heq
  have hbusy : s.busy = none := by
    by_contra hb
    obtain ⟨m, hb⟩ := Option.ne_none_iff_exists'.1 hb
    exact hnone (a := .finish .down) rfl (by simp [Server.step, hb])
  have hqueue : s.queue = [] := by
    by_contra hq
    obtain ⟨m, queue, hq⟩ := List.exists_cons_of_ne_nil hq
    exact hnone (a := .recv) rfl (by simp [Server.step, hbusy, hq])
  have hpending : ∀ i, s.pending i = [] := fun i => by
    rw [Server.pending, hbusy, hqueue]
    rfl
  have hroom : s.queue.length < eventChannelCapacity := by
    rw [hqueue]
    decide
  refine ⟨hbusy, hqueue, fun c hmem => ?_⟩
  obtain ⟨i, hc⟩ := List.mem_iff_getElem?.1 hmem
  have htracks := h.calls i c hc
  obtain ⟨rpc, phase⟩ := c
  rw [hpending] at htracks
  generalize s.entries i = entries at htracks
  cases htracks with
  | finished | cancelled => rfl
  | sending | sendingStatus =>
      exact absurd (by simp [Server.step, hc, Server.enqueue, hroom]) (hnone (a := .send i) rfl)
  | answered st r =>
      obtain ⟨phase, hr⟩ := exists_resume rpc r
      exact absurd (by simp [Server.step, hc, hr]) (hnone (a := .resume i) rfl)
  | answeredStatus zone hrpc st st' resp =>
      subst hrpc
      exact absurd (by simp [Server.step, hc, RpcCall.resume]) (hnone (a := .resume i) rfl)

/-- **Every call returns.**  From every state the server takes at most so many steps on its own, in
whatever order and however the operator and the broker answer; and when it can take no more, every
call whose client has waited has got its response. -/
theorem calls_return {w₀ : W} {s s' : Server W} {as : List (Action W)}
    (h : Lts.Reach (Server.step vehicleId zoneId) (Server.init w₀) s)
    (hrun : Lts.run (stepOwn vehicleId zoneId) s as = some s') :
    as.length ≤ s.work ∧ ((∀ a, stepOwn vehicleId zoneId s' a = none) →
      ∀ i rpc, s.Attends i rpc → ∃ result, s'.calls[i]? = some ⟨rpc, .finished result⟩) := by
  refine ⟨?_, fun hstuck i rpc hattends => ?_⟩
  · refine Lts.length_le_of_measure Server.work (fun s a s' hstep => ?_) hrun
    obtain ⟨hown, hstep⟩ := Lts.restrict_eq_some_iff.1 hstep
    exact work_step_lt hown hstep
  · have hreach := Lts.reach_of_run hrun
    have htracked : Tracked s' := hreach.invariant (tracked_of_reach h) fun _ _ _ hs hstep =>
      hs.step (Lts.restrict_eq_some_iff.1 hstep).2
    obtain ⟨⟨_, phase⟩, hc, rfl, hne⟩ : s'.Attends i rpc :=
      hreach.invariant (I := fun s => s.Attends i rpc) hattends fun _ _ _ hs hstep =>
        hs.step (Lts.restrict_eq_some_iff.1 hstep).1 (Lts.restrict_eq_some_iff.1 hstep).2
    obtain ⟨-, -, hover⟩ := over_of_stuck htracked hstuck
    have hphase := hover _ (List.mem_of_getElem? hc)
    cases phase with
    | finished result => exact ⟨result, hc⟩
    | cancelled => exact absurd rfl hne
    | sending | waiting | answered | sendingStatus | waitingStatus | answeredStatus => cases hphase

/-- Two clients ask at the same time. -/
def twoCalls : List (Action Unit) := [.call (.startSession "z-1"), .call .getStatus]

/-- The steps of the server that answer both. -/
def answersBoth : List (Action Unit) :=
  [.send 1, .send 0, .recv, .finish (environmentAt "s-1" 10), .recv, .resume 1,
    .finish (environmentAt "s-1" 20), .resume 0, .send 0, .recv, .finish (environmentAt "s-1" 30),
    .resume 0]

theorem calls_return_twoCalls :
    ∃ s s', Lts.run (Server.step "v-1" "z-0") (Server.init ()) twoCalls = some s ∧
      Lts.run (stepOwn "v-1" "z-0") s answersBoth = some s' ∧ answersBoth.length ≤ s.work ∧
      ((∀ a, stepOwn "v-1" "z-0" s' a = none) →
        ∀ i rpc, s.Attends i rpc → ∃ result, s'.calls[i]? = some ⟨rpc, .finished result⟩) := by
  have hrun : ((Lts.run (Server.step "v-1" "z-0") (Server.init ()) twoCalls).bind fun s =>
      Lts.run (stepOwn "v-1" "z-0") s answersBoth).isSome = true := by
    decide
  obtain ⟨s', hs'⟩ := Option.isSome_iff_exists.1 hrun
  obtain ⟨s, hs, hs'⟩ := Option.bind_eq_some_iff.1 hs'
  exact ⟨s, s', hs, hs', calls_return (Lts.reach_of_run hs) hs'⟩

end ParkingOperatorAdaptor
