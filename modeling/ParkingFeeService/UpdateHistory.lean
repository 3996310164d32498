/-
**The events are a log of the adapter map.**

The map and the broadcast channel are written by the same critical sections, so that the events
handed to the channel and the states stored tell the same story: from the state an entry was created
with, the events of its id lead, each from where the one before ended, to the state stored now.

A history is any sequence of operations, by whichever tasks, from a state manager that has just
started.  Whether the channel has a receiver is not looked at: the result of `send` is discarded,
and `sent` holds what was handed to it.

Main definitions:

* `UpdateService.Operation`, `UpdateService.History`, `UpdateService.replay`;
* `UpdateService.Leads` — a chain of events;
* `UpdateService.FaithfulLog` — what the events say about the map.

Main results:

* `UpdateService.leads_replay` — an entry that exists, followed to its removal or to the end;
* `UpdateService.faithfulLog_replay` — the log of every history is faithful.
-/

import ParkingFeeService.UpdateTasks

set_option relaxedAutoImplicit false
set_option autoImplicit false

namespace UpdateService

/-! ### Histories -/

/-- An operation of the state manager: a write, or one of the readings. -/
inductive Operation
  | write (w : Write)
  | getAdapter (adapterId : String)
  | listAdapters
  | getRunningAdapter
  | getOffloadCandidates (timeout : ℕ)
  deriving DecidableEq, Repr

/-- What an operation does to the map and to the events. -/
def Operation.apply (clk : Clock) (sm : StateManager) : Operation → StateManager
  | .write w => w.apply clk sm
  | .getAdapter _ | .listAdapters | .getRunningAdapter | .getOffloadCandidates _ => sm

/-- The events an operation emits. -/
def Operation.events (clk : Clock) (sm : StateManager) : Operation → List AdapterStateEvent
  | .write w => w.events clk sm
  | .getAdapter _ | .listAdapters | .getRunningAdapter | .getOffloadCandidates _ => []

/-- The operation is a write to the adapter. -/
def Operation.Writes (id : String) : Operation → Prop
  | .write w => w.target = id
  | .getAdapter _ | .listAdapters | .getRunningAdapter | .getOffloadCandidates _ => False

/-- The operation creates the adapter. -/
def Operation.Creates (id : String) : Operation → Prop
  | .write (.create entry) => entry.adapterId = id
  | _ => False

/-- Operations in the order of their critical sections, each with the clocks it reads. -/
abbrev History := List (Clock × Operation)

/-- The state manager after a history. -/
def replay (sm : StateManager) (ops : History) : StateManager :=
  ops.foldl (fun sm x => x.2.apply x.1 sm) sm

@[simp] theorem replay_nil (sm : StateManager) : replay sm [] = sm := rfl

@[simp] theorem replay_cons (sm : StateManager) (x : Clock × Operation) (ops : History) :
    replay sm (x :: ops) = replay (x.2.apply x.1 sm) ops := rfl

theorem replay_append (sm : StateManager) (ops ops' : History) :
    replay sm (ops ++ ops') = replay (replay sm ops) ops' := List.foldl_append ..

theorem sent_operation (clk : Clock) (sm : StateManager) (op : Operation) :
    (op.apply clk sm).sent = sm.sent ++ op.events clk sm := by
  cases op with
  | write w => exact sent_apply clk sm w
  | getAdapter | listAdapters | getRunningAdapter | getOffloadCandidates =>
      exact (List.append_nil _).symm

/-! ### The events of one adapter -/

/-- The events of an adapter, in order. -/
def eventsFor (id : String) (evs : List AdapterStateEvent) : List AdapterStateEvent :=
  evs.filter fun ev => ev.adapterId = id

theorem eventsFor_append (id : String) (evs evs' : List AdapterStateEvent) :
    eventsFor id (evs ++ evs') = eventsFor id evs ++ eventsFor id evs' := List.filter_append ..

/-- A write emits events of its own adapter only. -/
theorem adapterId_of_mem_events {clk : Clock} {sm : StateManager} {w : Write}
    {ev : AdapterStateEvent} (hev : ev ∈ w.events clk sm) : ev.adapterId = w.target := by
  cases w with
  | transition id st msg =>
      rw [Write.events, Option.mem_toList, Option.map_eq_some_iff] at hev
      obtain ⟨old, -, rfl⟩ := hev
      rfl
  | create entry | remove id => cases hev

/-- An operation that does not write to an adapter leaves its entry and its events alone. -/
theorem operation_of_not_writes (clk : Clock) (sm : StateManager) {op : Operation} {id : String}
    (h : ¬ op.Writes id) :
    (op.apply clk sm).getAdapter id = sm.getAdapter id ∧ eventsFor id (op.events clk sm) = [] := by
  cases op with
  | write w =>
      refine ⟨getAdapter_apply_of_ne clk sm fun hid => h hid.symm, ?_⟩
      refine List.filter_eq_nil_iff.2 fun ev hev hid => h ?_
      rw [Operation.Writes, ← adapterId_of_mem_events hev]
      exact of_decide_eq_true hid
  | getAdapter | listAdapters | getRunningAdapter | getOffloadCandidates => exact ⟨rfl, rfl⟩

theorem stateAt_of_not_writes (clk : Clock) (sm : StateManager) {op : Operation} {id : String}
    (h : ¬ op.Writes id) : (op.apply clk sm).stateAt id = sm.stateAt id := by
  rw [StateManager.stateAt, (operation_of_not_writes clk sm h).1, StateManager.stateAt]

/-! ### Chains of events -/

/-- The events lead from the first state to the second: the first event leaves the first state,
every other one the state that the one before entered, and the last one enters the second. -/
def Leads : AdapterState → List AdapterStateEvent → AdapterState → Prop
  | st, [], st' => st = st'
  | st, ev :: evs, st' => ev.oldState = st ∧ Leads ev.newState evs st'

@[simp] theorem leads_nil (st st' : AdapterState) : Leads st [] st' ↔ st = st' := Iff.rfl

@[simp] theorem leads_cons (st st' : AdapterState) (ev : AdapterStateEvent)
    (evs : List AdapterStateEvent) :
    Leads st (ev :: evs) st' ↔ ev.oldState = st ∧ Leads ev.newState evs st' := Iff.rfl

/-! ### Following one adapter -/

/-- The history removes the adapter. -/
def Removes (id : String) (ops : History) : Prop := ∃ x ∈ ops, x.2 = .write (.remove id)

/-- The history creates the adapter. -/
def Creates (id : String) (ops : History) : Prop := ∃ x ∈ ops, x.2.Creates id

/-- An unknown adapter that is not created stays unknown, and has no events. -/
theorem replay_of_unknown {id : String} {ops : History} (hc : ¬ Creates id ops) :
    ∀ {sm : StateManager}, sm.stateAt id = none →
      ∃ since, (replay sm ops).sent = sm.sent ++ since ∧ eventsFor id since = [] ∧
        (replay sm ops).stateAt id = none := by
  induction ops with
  | nil => intro sm h; exact ⟨[], by simp, rfl, h⟩
  | cons x ops ih =>
      obtain ⟨clk, op⟩ := x
      intro sm h
      have hop : ¬ op.Creates id := fun hop => hc ⟨_, List.mem_cons_self, hop⟩
      have hops : ¬ Creates id ops := fun ⟨y, hy, hop⟩ => hc ⟨y, List.mem_cons_of_mem _ hy, hop⟩
      have hone : (op.apply clk sm).stateAt id = none ∧ eventsFor id (op.events clk sm) = [] := by
        by_cases hw : op.Writes id
        · -- a transition or a removal of an unknown adapter
          match op, hw with
          | .write (.create entry), hw => exact absurd hw hop
          | .write (.transition id' st msg), hw =>
              obtain rfl : id' = id := hw
              simp [Operation.apply, Operation.events, Write.events, h, eventsFor]
          | .write (.remove id'), hw =>
              obtain rfl : id' = id := hw
              simp [Operation.apply, Operation.events, Write.events, eventsFor]
        · rw [stateAt_of_not_writes clk sm hw]
          exact ⟨h, (operation_of_not_writes clk sm hw).2⟩
      obtain ⟨since, hsent, hevs, hst⟩ := ih hops hone.1
      refine ⟨op.events clk sm ++ since, ?_, ?_, hst⟩
      · rw [replay_cons, hsent, sent_operation, List.append_assoc]
      · rw [eventsFor_append, hone.2, hevs, List.nil_append]

/-- An adapter in a state, followed through operations that do not create it: its events lead from
that state to the one it has at the end, or had when it was removed. -/
theorem leads_replay {id : String} {ops : History} (hc : ¬ Creates id ops) :
    ∀ {sm : StateManager} {st : AdapterState}, sm.stateAt id = some st →
      ∃ since last, (replay sm ops).sent = sm.sent ++ since ∧
        Leads st (eventsFor id since) last ∧
        (Removes id ops → (replay sm ops).stateAt id = none) ∧
        (¬ Removes id ops → (replay sm ops).stateAt id = some last) := by
  induction ops with
  | nil =>
      intro sm st h
      refine ⟨[], st, by simp, rfl, ?_, fun _ => h⟩
      rintro ⟨x, hx, -⟩
      cases hx
  | cons x ops ih =>
      obtain ⟨clk, op⟩ := x
      intro sm st h
      have hop : ¬ op.Creates id := fun hop => hc ⟨_, List.mem_cons_self, hop⟩
      have hops : ¬ Creates id ops := fun ⟨y, hy, hop⟩ => hc ⟨y, List.mem_cons_of_mem _ hy, hop⟩
      have hsent : ∀ since, (replay (op.apply clk sm) ops).sent = (op.apply clk sm).sent ++ since →
          (replay sm ((clk, op) :: ops)).sent = sm.sent ++ (op.events clk sm ++ since) := by
        intro since hs
        rw [replay_cons, hs, sent_operation, List.append_assoc]
      by_cases hrm : op = .write (.remove id)
      · -- from the removal on the adapter is unknown
        subst hrm
        obtain ⟨since, hs, hevs, hst⟩ :=
          replay_of_unknown hops (show ((Operation.write (.remove id)).apply clk sm).stateAt id =
            none by simp [Operation.apply])
        refine ⟨_, st, hsent since hs, ?_, fun _ => hst, ?_⟩
        · rw [eventsFor_append, hevs]
          rfl
        · intro hno
          exact absurd ⟨_, List.mem_cons_self, rfl⟩ hno
      · have hremoves : Removes id ((clk, op) :: ops) ↔ Removes id ops := by
          simp [Removes, hrm]
        rw [hremoves]
        by_cases hw : op.Writes id
        · match op, hw with
          | .write (.create entry), hw => exact absurd hw hop
          | .write (.remove id'), hw =>
              obtain rfl : id' = id := hw
              exact absurd rfl hrm
          | .write (.transition id' st' msg), hw =>
              obtain rfl : id' = id := hw
              have hone : ((Operation.write (.transition id' st' msg)).apply clk sm).stateAt id' =
                  some st' := by simp [Operation.apply, h]
              obtain ⟨since, last, hs, hlead, hrem, hkeep⟩ := ih hops hone
              refine ⟨_, last, hsent since hs, ?_, hrem, hkeep⟩
              -- the event leaves the state the adapter is in
              have hevs :
                  eventsFor id' ((Operation.write (.transition id' st' msg)).events clk sm) =
                    [⟨id', st, st', clk.unixSecs⟩] := by
                simp [Operation.events, Write.events, h, eventsFor]
              rw [eventsFor_append, hevs]
              exact ⟨rfl, hlead⟩
        · obtain ⟨since, last, hs, hlead, hrem, hkeep⟩ :=
            ih hops ((stateAt_of_not_writes clk sm hw).trans h)
          refine ⟨_, last, hsent since hs, ?_, hrem, hkeep⟩
          rw [eventsFor_append, (operation_of_not_writes clk sm hw).2, List.nil_append]
          exact hlead

/-! ### The log of a history -/

/-- The events of a history tell what is in the map. -/
structure FaithfulLog (ops : History) : Prop where
  /-- since the most recent creation of an adapter, its events lead from the state created to the
  state stored -/
  chain : ∀ before clk entry after, ops = before ++ (clk, .write (.create entry)) :: after →
    ¬ Creates entry.adapterId after →
      ∃ since last, (replay .new ops).sent = (replay .new before).sent ++ since ∧
        Leads entry.state (eventsFor entry.adapterId since) last ∧
        (Removes entry.adapterId after → (replay .new ops).getAdapter entry.adapterId = none) ∧
        (¬ Removes entry.adapterId after →
          ∃ e, (replay .new ops).getAdapter entry.adapterId = some e ∧ e.state = last)
  /-- an adapter that was never created is unknown and has no events -/
  uncreated : ∀ id, ¬ Creates id ops →
    (replay .new ops).getAdapter id = none ∧ eventsFor id (replay .new ops).sent = []
  /-- a transition of an unknown adapter fails, emits nothing and changes nothing -/
  unknown : ∀ clk id st msg, (replay .new ops).getAdapter id = none →
    (replay .new ops).transition clk id st msg =
        .error (.notFound ("adapter not found: " ++ id)) ∧
      (Operation.write (.transition id st msg)).apply clk (replay .new ops) = replay .new ops
  /-- an operation on another adapter, or a reading, leaves the entry and the events alone -/
  others : ∀ clk (op : Operation) id, ¬ op.Writes id →
    (op.apply clk (replay .new ops)).getAdapter id = (replay .new ops).getAdapter id ∧
      eventsFor id (op.apply clk (replay .new ops)).sent = eventsFor id (replay .new ops).sent

theorem getAdapter_eq_none_iff {sm : StateManager} {id : String} :
    sm.getAdapter id = none ↔ sm.stateAt id = none := Option.map_eq_none_iff.symm

/-- **The events are a faithful log of the map**, for every history. -/
theorem faithfulLog_replay (ops : History) : FaithfulLog ops := by
  refine ⟨?_, ?_, ?_, ?_⟩
  · rintro before clk entry after rfl hc
    have hcreated : ((Operation.write (.create entry)).apply clk (replay .new before)).stateAt
        entry.adapterId = some entry.state := by simp [Operation.apply]
    obtain ⟨since, last, hsent, hlead, hrem, hkeep⟩ := leads_replay hc hcreated
    rw [replay_append, replay_cons]
    refine ⟨since, last, ?_, hlead, fun h => getAdapter_eq_none_iff.2 (hrem h), fun h => ?_⟩
    · rw [hsent, sent_operation]
      simp [Operation.events, Write.events]
    · exact Option.map_eq_some_iff.1 (hkeep h)
  · intro id hc
    obtain ⟨since, hsent, hevs, hst⟩ := replay_of_unknown hc (StateManager.stateAt_new id)
    refine ⟨getAdapter_eq_none_iff.2 hst, ?_⟩
    rw [hsent]
    simpa [StateManager.new] using hevs
  · intro clk id st msg h
    exact ⟨StateManager.transition_of_none st msg h,
      StateManager.keepTransition_of_none st msg h⟩
  · intro clk op id h
    obtain ⟨hget, hevs⟩ := operation_of_not_writes clk (replay .new ops) h
    refine ⟨hget, ?_⟩
    rw [sent_operation, eventsFor_append, hevs, List.append_nil]

end UpdateService
