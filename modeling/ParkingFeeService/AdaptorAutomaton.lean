/-
**The event loop as a two-state automaton.**

Seen from outside, the adaptor is inactive or holds the session that it started last: a successful
start takes it from the first state to the second, a successful stop back, and nothing else moves
it.  The calls it makes are those of this automaton, whatever the operator and the broker answer.

Main definitions:

* `ParkingOperatorAdaptor.Started`, `ParkingOperatorAdaptor.Session.abs` — the states;
* `ParkingOperatorAdaptor.toggles` — the moves among the calls;
* `ParkingOperatorAdaptor.Step.Conforms` — what the automaton promises of an event.

Main results:

* `ParkingOperatorAdaptor.run_toggles_processEvent` — one event is a run of the automaton;
* `ParkingOperatorAdaptor.run_toggles_runEventLoop` — so is every run of the loop;
* `ParkingOperatorAdaptor.runEventLoop_conforms` — what holds of every event of every run.
-/

import ParkingFeeService.AdaptorEventLoop
import ParkingFeeService.Toggle

set_option relaxedAutoImplicit false
set_option autoImplicit false

namespace ParkingOperatorAdaptor

variable {W : Type}

/-! ### The automaton -/

/-- What is known of a session that was started. -/
structure Started where
  sessionId : String
  zoneId : String
  rate : Rate
  deriving DecidableEq

/-- The move of the automaton that a call is: a successful start or stop. -/
def Call.toggle : Call → Option (Toggle Started)
  | .startSession _ zoneId (.ok resp) =>
      some (.on ⟨resp.sessionId, zoneId,
        ⟨resp.rate.rateType, resp.rate.amount, resp.rate.currency⟩⟩)
  | .stopSession _ (.ok _) => some .off
  | _ => none

/-- The moves among a list of calls. -/
def toggles (calls : List Call) : List (Toggle Started) := calls.filterMap Call.toggle

@[simp] theorem toggles_append (calls calls' : List Call) :
    toggles (calls ++ calls') = toggles calls ++ toggles calls' :=
  List.filterMap_append

/-- The most recent successful start. -/
def lastStart (calls : List Call) : Option Started := Toggle.lastOn (toggles calls)

/-- The most recent successful start, unless a successful stop has followed. -/
def openStart (calls : List Call) : Option Started := Toggle.last (toggles calls)

/-- The session as a state of the automaton. -/
def Session.abs (s : Session) : Option Started :=
  s.state.map fun st => ⟨st.sessionId, st.zoneId, st.rate⟩

/-- A record that is kept is that of an active session. -/
def Session.Kept (s : Session) : Prop := ∀ st, s.state = some st → st.active = true

/-- The session is the record of the started session, or there is none. -/
def Session.Records (s : Session) : Option Started → Prop
  | some started => ∃ startTime, s.status =
      some ⟨started.sessionId, started.zoneId, startTime, started.rate, true⟩
  | none => s.status = none

/-! ### What is promised -/

/-- The event has nothing to do: it is a query, or is to start a session while one is active, or to
stop it while none is. -/
def SessionEvent.IsNoOp (event : SessionEvent) (zoneId : String) (session : Session) : Prop :=
  ((event.startZone zoneId).isSome = true → session.isActive = true) ∧
    (event.isStop = true → session.isActive = false)

/-- What holds of an event that is handled after the calls of `history`. -/
structure Step.Conforms (vehicleId zoneId : String) (history : List Call) (s : Step W) : Prop where
  /-- A start is called for while no session is active, in the zone that the event says. -/
  start : ∀ v z result, .startSession v z result ∈ s.effect.calls →
    s.session.isActive = false ∧ v = vehicleId ∧ s.event.startZone zoneId = some z
  /-- A stop is called for while a session is active, with the id of the last one started. -/
  stop : ∀ sessionId result, .stopSession sessionId result ∈ s.effect.calls →
    s.session.isActive = true ∧ (lastStart history).map Started.sessionId = some sessionId
  /-- Afterwards the record is that of the last session started, if it has not been stopped. -/
  status : s.effect.session.Records (openStart (history ++ s.effect.calls))
  /-- Without a successful start or stop the session is unchanged. -/
  failed : (∀ c ∈ s.effect.calls, c.toggle = none) → s.effect.session = s.session
  /-- An event with nothing to do calls nothing and changes nothing. -/
  noOp : s.event.IsNoOp zoneId s.session → s.effect.calls = [] ∧ s.effect.session = s.session
  /-- The broker has no influence on the session. -/
  broker : ∀ broker : BrokerOps W,
    (processEvent { s.env with broker := broker } vehicleId zoneId s.session s.event
      s.world).session = s.effect.session

/-- All steps of a run after the calls of `history` conform. -/
def AllConform (vehicleId zoneId : String) : List Call → List (Step W) → Prop
  | _, [] => True
  | history, s :: steps => s.Conforms vehicleId zoneId history ∧
      AllConform vehicleId zoneId (history ++ s.effect.calls) steps

/-- The calls of a run. -/
def callsOf (steps : List (Step W)) : List Call := steps.flatMap fun s => s.effect.calls

/-! ### One event -/

variable (env : Environment W)

theorem Session.Kept.isActive_iff {s : Session} (h : s.Kept) :
    s.isActive = true ↔ s.abs.isSome = true := by
  obtain ⟨state⟩ := s
  cases state with
  | none => simp [isActive, abs]
  | some st => simp [isActive, abs, h st rfl]

theorem Session.Kept.records {s : Session} (h : s.Kept) : s.Records s.abs := by
  obtain ⟨state⟩ := s
  cases state with
  | none => rfl
  | some st =>
      refine ⟨st.startTime, ?_⟩
      simp [status, ← h st rfl]

theorem abs_of_activeId {session : Session} (h : session.isActive = true) :
    session.abs.map Started.sessionId = some (activeId session h) := by
  obtain ⟨state⟩ := session
  cases state with
  | none => cases h
  | some st => rfl

/-- The two outcomes of starting a session. -/
theorem startSession_cases (session : Session) (vehicleId zoneId : String) (w : W) :
    (∃ resp published startTime,
      (startSession env session vehicleId zoneId w).session =
          session.start resp.sessionId zoneId startTime
            ⟨resp.rate.rateType, resp.rate.amount, resp.rate.currency⟩ ∧
        (startSession env session vehicleId zoneId w).calls =
          [.startSession vehicleId zoneId (.ok resp),
            .setBool signalSessionActive true published]) ∨
      ∃ e, (startSession env session vehicleId zoneId w).session = session ∧
        (startSession env session vehicleId zoneId w).calls =
          [.startSession vehicleId zoneId (.error e)] := by
  rw [startSession]
  obtain ⟨result, w₁⟩ := env.operator.startSession vehicleId zoneId w
  cases result with
  | ok resp => exact .inl ⟨resp, _, _, rfl, rfl⟩
  | error e => exact .inr ⟨e, rfl, rfl⟩

/-- The two outcomes of stopping the session. -/
theorem stopSession_cases (session : Session) (sessionId : String) (w : W) :
    (∃ resp published,
      (stopSession env session sessionId w).session = .new ∧
        (stopSession env session sessionId w).calls =
          [.stopSession sessionId (.ok resp), .setBool signalSessionActive false published]) ∨
      ∃ e, (stopSession env session sessionId w).session = session ∧
        (stopSession env session sessionId w).calls = [.stopSession sessionId (.error e)] := by
  rw [stopSession]
  obtain ⟨result, w₁⟩ := env.operator.stopSession sessionId w
  cases result with
  | ok resp => exact .inl ⟨resp, _, rfl, rfl⟩
  | error e => exact .inr ⟨e, rfl, rfl⟩

theorem mem_startSession_calls {session : Session} {vehicleId zoneId : String} {w : W} {c : Call}
    (h : c ∈ (startSession env session vehicleId zoneId w).calls) :
    (∃ result, c = .startSession vehicleId zoneId result) ∨
      ∃ published, c = .setBool signalSessionActive true published := by
  rcases startSession_cases env session vehicleId zoneId w with
    ⟨resp, published, -, -, hc⟩ | ⟨e, -, hc⟩
  · rw [hc, List.mem_cons, List.mem_singleton] at h
    exact h.imp (fun h => ⟨_, h⟩) fun h => ⟨_, h⟩
  · rw [hc, List.mem_singleton] at h
    exact .inl ⟨_, h⟩

theorem mem_stopSession_calls {session : Session} {sessionId : String} {w : W} {c : Call}
    (h : c ∈ (stopSession env session sessionId w).calls) :
    (∃ result, c = .stopSession sessionId result) ∨
      ∃ published, c = .setBool signalSessionActive false published := by
  rcases stopSession_cases env session sessionId w with ⟨resp, published, -, hc⟩ | ⟨e, -, hc⟩
  · rw [hc, List.mem_cons, List.mem_singleton] at h
    exact h.imp (fun h => ⟨_, h⟩) fun h => ⟨_, h⟩
  · rw [hc, List.mem_singleton] at h
    exact .inl ⟨_, h⟩

/-- An event does nothing, or starts a session while none is active, or stops the active one. -/
theorem processEvent_cases (vehicleId zoneId : String) (session : Session) (event : SessionEvent)
    (w : W) :
    (processEvent env vehicleId zoneId session event w).forget = .idle session w () ∨
      (∃ z, session.isActive = false ∧ event.startZone zoneId = some z ∧
        (processEvent env vehicleId zoneId session event w).forget =
          (startSession env session vehicleId z w).forget) ∨
      ∃ h : session.isActive = true, event.isStop = true ∧
        (processEvent env vehicleId zoneId session event w).forget =
          (stopSession env session (activeId session h) w).forget := by
  rw [forget_processEvent]
  by_cases h : session.isActive = true
  · rw [dif_pos h]
    cases hstop : event.isStop with
    | true => exact .inr (.inr ⟨h, rfl, by simp⟩)
    | false => exact .inl (by simp)
  · rw [dif_neg h]
    cases hzone : event.startZone zoneId with
    | none => exact .inl rfl
    | some z => exact .inr (.inl ⟨z, by simpa using h, rfl, rfl⟩)

/-- Effects that differ in the result only have the same session and calls. -/
theorem session_calls_of_forget {R R' : Type} {e : Effect W R} {f : Effect W R'}
    (h : e.forget = f.forget) : e.session = f.session ∧ e.calls = f.calls :=
  ⟨congrArg Effect.session h, congrArg Effect.calls h⟩

/-- **One event is a run of the automaton**, and keeps only records of active sessions. -/
theorem run_toggles_processEvent (vehicleId zoneId : String) {session : Session}
    (hkept : session.Kept) (event : SessionEvent) (w : W) :
    (processEvent env vehicleId zoneId session event w).session.Kept ∧
      Toggle.run session.abs (toggles (processEvent env vehicleId zoneId session event w).calls) =
        some (processEvent env vehicleId zoneId session event w).session.abs := by
  rcases processEvent_cases env vehicleId zoneId session event w with
    hidle | ⟨z, hinactive, -, hstart⟩ | ⟨hactive, -, hstop⟩
  · obtain ⟨hsession, hcalls⟩ := session_calls_of_forget (f := .idle session w ()) hidle
    rw [hsession, hcalls]
    exact ⟨hkept, rfl⟩
  · obtain ⟨hsession, hcalls⟩ := session_calls_of_forget hstart
    rw [hsession, hcalls]
    rcases startSession_cases env session vehicleId z w with
      ⟨resp, published, startTime, hs, hc⟩ | ⟨e, hs, hc⟩
    · -- none is active, so none is recorded: the start is a move from off to on
      have hoff : session.abs = none := by
        cases habs : session.abs with
        | none => rfl
        | some a =>
            have hactive := hkept.isActive_iff.2 (by simp [habs])
            rw [hinactive] at hactive
            cases hactive
      rw [hs, hc, hoff]
      refine ⟨?_, rfl⟩
      intro st hst
      cases hst
      rfl
    · rw [hs, hc]
      exact ⟨hkept, rfl⟩
  · obtain ⟨hsession, hcalls⟩ := session_calls_of_forget hstop
    rw [hsession, hcalls]
    rcases stopSession_cases env session (activeId session hactive) w with
      ⟨resp, published, hs, hc⟩ | ⟨e, hs, hc⟩
    · -- the active session is recorded: the stop is a move from on to off
      obtain ⟨started, hon⟩ := Option.isSome_iff_exists.1 (hkept.isActive_iff.1 hactive)
      rw [hs, hc, hon]
      refine ⟨?_, rfl⟩
      intro st hst
      cases hst
    · rw [hs, hc]
      exact ⟨hkept, rfl⟩

/-- The broker's answer comes after the session has changed. -/
theorem session_processEvent_broker (broker : BrokerOps W) (vehicleId zoneId : String)
    (session : Session) (event : SessionEvent) (w : W) :
    (processEvent { env with broker := broker } vehicleId zoneId session event w).session =
      (processEvent env vehicleId zoneId session event w).session := by
  have hstart : ∀ z, (startSession { env with broker := broker } session vehicleId z w).session =
      (startSession env session vehicleId z w).session := by
    intro z
    simp only [startSession]
    split <;> rfl
  have hstop : ∀ id, (stopSession { env with broker := broker } session id w).session =
      (stopSession env session id w).session := by
    intro id
    simp only [stopSession]
    split <;> rfl
  have hl := congrArg Effect.session
    (forget_processEvent { env with broker := broker } vehicleId zoneId session event w)
  have hr := congrArg Effect.session
    (forget_processEvent env vehicleId zoneId session event w)
  refine hl.trans (Eq.trans ?_ hr.symm)
  by_cases h : session.isActive = true
  · rw [dif_pos h, dif_pos h]
    cases event.isStop with
    | true => exact hstop _
    | false => rfl
  · rw [dif_neg h, dif_neg h]
    cases event.startZone zoneId with
    | none => rfl
    | some z => exact hstart z

/-- **Every event conforms**, if the session is the state that the calls so far lead to. -/
theorem conforms_processEvent (vehicleId zoneId : String) {session : Session} {history : List Call}
    (hkept : session.Kept) (hrun : Toggle.run none (toggles history) = some session.abs)
    (event : SessionEvent) (w : W) :
    Step.Conforms vehicleId zoneId history
      ⟨event, env, session, w, processEvent env vehicleId zoneId session event w⟩ := by
  obtain ⟨hkept', hrun'⟩ := run_toggles_processEvent env vehicleId zoneId hkept event w
  have hstatus : Session.Records (processEvent env vehicleId zoneId session event w).session
      (openStart (history ++ (processEvent env vehicleId zoneId session event w).calls)) := by
    have hall : Toggle.run none (toggles (history ++
        (processEvent env vehicleId zoneId session event w).calls)) =
          some (processEvent env vehicleId zoneId session event w).session.abs := by
      rw [toggles_append, Toggle.run_append, hrun]
      exact hrun'
    rw [openStart, ← Toggle.eq_last_of_run hall]
    exact hkept'.records
  have hbroker := fun broker =>
    session_processEvent_broker env broker vehicleId zoneId session event w
  rcases processEvent_cases env vehicleId zoneId session event w with
    hidle | ⟨z, hinactive, hzone, hstart⟩ | ⟨hactive, hstopping, hstop⟩
  · obtain ⟨hsession, hcalls⟩ := session_calls_of_forget (f := .idle session w ()) hidle
    exact ⟨by simp [hcalls, Effect.idle], by simp [hcalls, Effect.idle], hstatus,
      fun _ => hsession, fun _ => ⟨hcalls, hsession⟩, hbroker⟩
  · obtain ⟨hsession, hcalls⟩ := session_calls_of_forget hstart
    have hbusy : ¬ event.IsNoOp zoneId session := by
      rintro ⟨hnoop, -⟩
      rw [hnoop (by simp [hzone])] at hinactive
      cases hinactive
    refine ⟨?_, ?_, hstatus, ?_, fun h => absurd h hbusy, hbroker⟩
    · intro v z' result hmem
      rcases mem_startSession_calls env (hcalls ▸ hmem) with ⟨result', h⟩ | ⟨published, h⟩
      · cases h
        exact ⟨hinactive, rfl, hzone⟩
      · cases h
    · intro sessionId result hmem
      rcases mem_startSession_calls env (hcalls ▸ hmem) with ⟨result', h⟩ | ⟨published, h⟩ <;>
        cases h
    · intro hfailed
      rcases startSession_cases env session vehicleId z w with
        ⟨resp, published, startTime, hs, hc⟩ | ⟨e, hs, hc⟩
      · cases hfailed (.startSession vehicleId z (.ok resp)) (by simp [hcalls, hc])
      · exact hsession.trans hs
  · obtain ⟨hsession, hcalls⟩ := session_calls_of_forget hstop
    have hbusy : ¬ event.IsNoOp zoneId session := by
      rintro ⟨-, hnoop⟩
      rw [hnoop hstopping] at hactive
      cases hactive
    -- the record is the automaton's state, which is the last start of the history
    have hlast : (lastStart history).map Started.sessionId = some (activeId session hactive) := by
      obtain ⟨started, hon⟩ := Option.isSome_iff_exists.1 (hkept.isActive_iff.1 hactive)
      have hopen : Toggle.last (toggles history) = some started :=
        (Toggle.eq_last_of_run hrun).symm.trans hon
      rw [lastStart, Toggle.lastOn_of_last hopen, ← hon, abs_of_activeId]
    refine ⟨?_, ?_, hstatus, ?_, fun h => absurd h hbusy, hbroker⟩
    · intro v z result hmem
      rcases mem_stopSession_calls env (hcalls ▸ hmem) with ⟨result', h⟩ | ⟨published, h⟩ <;>
        cases h
    · intro sessionId result hmem
      rcases mem_stopSession_calls env (hcalls ▸ hmem) with ⟨result', h⟩ | ⟨published, h⟩
      · cases h
        exact ⟨hactive, hlast⟩
      · cases h
    · intro hfailed
      rcases stopSession_cases env session (activeId session hactive) w with
        ⟨resp, published, hs, hc⟩ | ⟨e, hs, hc⟩
      · cases hfailed (.stopSession (activeId session hactive) (.ok resp)) (by simp [hcalls, hc])
      · exact hsession.trans hs

/-! ### Every run -/

theorem kept_new : Session.new.Kept := by
  intro st h
  cases h

/-- **Every run of the loop is a run of the automaton.** -/
theorem run_toggles_runEventLoop (vehicleId zoneId : String)
    (events : List (SessionEvent × Environment W)) :
    ∀ {session : Session} {w : W}, session.Kept →
      ∃ started, Toggle.run session.abs
        (toggles (callsOf (runEventLoop vehicleId zoneId session w events))) = some started := by
  induction events with
  | nil => intro session w _; exact ⟨session.abs, rfl⟩
  | cons head events ih =>
      obtain ⟨event, env⟩ := head
      intro session w hkept
      obtain ⟨hkept', hrun⟩ := run_toggles_processEvent env vehicleId zoneId hkept event w
      obtain ⟨started, htail⟩ := ih (w := (processEvent env vehicleId zoneId session event w).world)
        hkept'
      refine ⟨started, ?_⟩
      rw [runEventLoop, callsOf, List.flatMap_cons, toggles_append, Toggle.run_append, hrun]
      exact htail

theorem allConform_runEventLoop (vehicleId zoneId : String)
    (events : List (SessionEvent × Environment W)) :
    ∀ {session : Session} {w : W} {history : List Call}, session.Kept →
      Toggle.run none (toggles history) = some session.abs →
        AllConform vehicleId zoneId history (runEventLoop vehicleId zoneId session w events) := by
  induction events with
  | nil => intro session w history _ _; trivial
  | cons head events ih =>
      obtain ⟨event, env⟩ := head
      intro session w history hkept hrun
      obtain ⟨hkept', hrun'⟩ := run_toggles_processEvent env vehicleId zoneId hkept event w
      refine ⟨conforms_processEvent env vehicleId zoneId hkept hrun event w, ih hkept' ?_⟩
      rw [toggles_append, Toggle.run_append, hrun]
      exact hrun'

/-- **The event loop refines the automaton**: in every run, every event conforms, and the successful
starts and stops alternate, beginning with a start. -/
theorem runEventLoop_conforms (vehicleId zoneId : String) (w : W)
    (events : List (SessionEvent × Environment W)) :
    AllConform vehicleId zoneId [] (runEventLoop vehicleId zoneId .new w events) ∧
      Toggle.Alternating true
        (toggles (callsOf (runEventLoop vehicleId zoneId .new w events))) := by
  refine ⟨allConform_runEventLoop vehicleId zoneId events kept_new rfl, ?_⟩
  obtain ⟨started, hrun⟩ := run_toggles_runEventLoop vehicleId zoneId events (w := w) kept_new
  exact Toggle.alternating_of_run hrun

end ParkingOperatorAdaptor
