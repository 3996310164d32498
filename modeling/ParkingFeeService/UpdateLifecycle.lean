/-
**Lifecycle transitions.**

`transition` does not look at the state it leaves, so that an emitted event is an edge of the
documented state machine only if the state found is the one the writer expects.  Five kinds of task
write to one entry without excluding each other: an install call stopping it, an install task, a
monitor, a removal and an offload cycle.  Even a sequential use breaks the state machine: an install
call stops the running container of another adapter, and the monitor of that container then reports
a clean exit of an adapter that is already `stopped`.

Every task that is going to write something other than `error` *relies* on the state of the adapter
it will write to.  Two conditions on the steps make every event an edge: no step sets the state of
an adapter on which another task in flight relies, and podman reports a clean exit only while the
adapter is `running` (or unknown).

Main definitions:

* `UpdateService.AdapterState.edge` — the documented state machine;
* `UpdateService.Proc.needs` — the adapters a task relies on, with the state it expects;
* `UpdateService.Serialised` — the side condition on the steps;
* `UpdateService.Orderly` — the invariant.

Main results:

* `UpdateService.stopped_by_install_then_exits` — the sequential run that breaks the state machine;
* `UpdateService.edge_of_serialised` — every event is an edge under the side condition.
-/

import ParkingFeeService.UpdateSingleRunning

set_option relaxedAutoImplicit false
set_option autoImplicit false

namespace UpdateService

variable {P : Podman}

/-! ### The documented state machine -/

/-- The edges of the documented state machine. -/
def AdapterState.edge (old new : AdapterState) : Bool :=
  match old, new with
  | .unknown, .downloading => true
  | .downloading, .installing => true
  | .installing, .running => true
  | .running, .stopped => true
  | .stopped, .offloading => true
  | _, .error => true
  | _, _ => false

@[simp] theorem AdapterState.edge_error (old : AdapterState) : old.edge .error = true := by
  cases old <;> rfl

/-- The event is an edge of the documented state machine. -/
def AdapterStateEvent.Valid (ev : AdapterStateEvent) : Prop := ev.oldState.edge ev.newState = true

/-- The write, made in the given state of the map, follows an edge. -/
def Write.ValidIn (sm : StateManager) : Write → Prop
  | .transition id st _ => ∀ old, sm.stateAt id = some old → old.edge st = true
  | _ => True

/-- Every write of the list follows an edge when its turn comes. -/
def ValidFrom (clk : Clock) : StateManager → List Write → Prop
  | _, [] => True
  | sm, w :: ws => w.ValidIn sm ∧ ValidFrom clk (w.apply clk sm) ws

theorem validFrom_append {clk : Clock} {ws ws' : List Write} :
    ∀ {sm : StateManager}, ValidFrom clk sm (ws ++ ws') ↔
      ValidFrom clk sm ws ∧ ValidFrom clk (applyAll clk sm ws) ws' := by
  induction ws with
  | nil => intro sm; simp [ValidFrom]
  | cons w ws ih =>
      intro sm
      rw [List.cons_append, ValidFrom, ValidFrom, ih, and_assoc, applyAll_cons]

theorem valid_of_mem_events {clk : Clock} {sm : StateManager} {w : Write} (h : w.ValidIn sm)
    {ev : AdapterStateEvent} (hev : ev ∈ w.events clk sm) : ev.Valid := by
  cases w with
  | transition id st msg =>
      rw [Write.events, Option.mem_toList, Option.map_eq_some_iff] at hev
      obtain ⟨old, hold, rfl⟩ := hev
      exact h old hold
  | create entry | remove id => cases hev

/-- Writes that follow edges emit only edges. -/
theorem valid_sent_applyAll {clk : Clock} {ws : List Write} :
    ∀ {sm : StateManager}, (∀ ev ∈ sm.sent, ev.Valid) → ValidFrom clk sm ws →
      ∀ ev ∈ (applyAll clk sm ws).sent, ev.Valid := by
  induction ws with
  | nil => intro sm hsm _; exact hsm
  | cons w ws ih =>
      rintro sm hsm ⟨hw, hws⟩
      refine ih ?_ hws
      intro ev hev
      rw [sent_apply, List.mem_append] at hev
      rcases hev with hev | hev
      · exact hsm ev hev
      · exact valid_of_mem_events hw hev

/-! ### Relying on a state -/

/-- The adapter is unknown or in the given state. -/
def StateManager.Expects (sm : StateManager) (id : String) (st : AdapterState) : Prop :=
  sm.stateAt id = none ∨ sm.stateAt id = some st

instance (sm : StateManager) (id : String) (st : AdapterState) : Decidable (sm.Expects id st) :=
  inferInstanceAs (Decidable (sm.stateAt id = none ∨ sm.stateAt id = some st))

/-- A transition along an edge, from the expected state. -/
theorem validIn_of_expects {sm : StateManager} {id : String} {st st' : AdapterState}
    {msg : Option String} (h : sm.Expects id st) (hedge : st.edge st' = true) :
    (Write.transition id st' msg).ValidIn sm := by
  intro old hold
  rcases h with hnone | hsome
  · rw [hnone] at hold
    cases hold
  · rw [hsome] at hold
    cases hold
    exact hedge

/-- The adapters on whose state the next write of the task relies.  A write of `error` and a
deletion rely on nothing. -/
def Proc.needs : Proc → List (String × AdapterState)
  | ⟨.installStop _ _, some (.error _)⟩ => []
  | ⟨.installStop _ running, _⟩ => [(running.adapterId, .running)]
  | ⟨.installPull _, some (.error _)⟩ => []
  | ⟨.installPull job, _⟩ => [(job.adapterId, .downloading)]
  | ⟨.installInspect _, some (.error _)⟩ => []
  | ⟨.installInspect job, _⟩ => [(job.adapterId, .downloading)]
  | ⟨.installRun _, some (.error _)⟩ => []
  | ⟨.installRun job, _⟩ => [(job.adapterId, .installing)]
  | ⟨.monitorWait job, some (.ok code)⟩ => if code = 0 then [(job.adapterId, .running)] else []
  -- the candidate the cycle is at is only deleted or put into `error`
  | ⟨.offloadRm _ rest, _⟩ => rest.map fun c => (c.adapterId, .stopped)
  | ⟨.offloadRmi _ rest, _⟩ => rest.map fun c => (c.adapterId, .stopped)
  | _ => []

/-- Every adapter the task relies on is as it expects. -/
def Proc.Met (sm : StateManager) (p : Proc) : Prop := ∀ x ∈ p.needs, sm.Expects x.1 x.2

/-- The adapter whose state a write sets.  A deletion sets none. -/
def Write.sets : Write → Option String
  | .create entry => some entry.adapterId
  | .transition id _ _ => some id
  | .remove _ => none

/-- The adapters whose state a turn sets. -/
def Turn.sets (turn : Turn) : List String := turn.writes.filterMap Write.sets

/-- None of the tasks relies on one of the adapters. -/
def NoneRelies (procs : List Proc) (ids : List String) : Prop :=
  ∀ q ∈ procs, ∀ x ∈ q.needs, x.1 ∉ ids

instance (procs : List Proc) (ids : List String) : Decidable (NoneRelies procs ids) :=
  inferInstanceAs (Decidable (∀ q ∈ procs, ∀ x ∈ q.needs, x.1 ∉ ids))

/-- The adapters whose state the task sets when it is resumed. -/
def Proc.sets (p : Proc) : List String :=
  match p.reply with
  | some r => (p.task.resume r).sets
  | none => []

/-- If the answer is a clean exit of a monitored container, its adapter is running or unknown. -/
def Proc.ExitExpected (sm : StateManager) (p : Proc) (answer : Answer) : Prop :=
  match p.task with
  | .monitorWait job => answer = .exited 0 → sm.Expects job.adapterId .running
  | _ => True

instance (sm : StateManager) (p : Proc) (answer : Answer) :
    Decidable (p.ExitExpected sm answer) := by
  unfold Proc.ExitExpected; split <;> infer_instance

/-- No step sets the state of an adapter on which another task relies, and podman reports a clean
exit only of an adapter that is running or unknown. -/
def Serialised (w : World P) : Action P → Prop
  | .install job running => NoneRelies w.procs (installAdapter job running).sets
  | .offload candidates => NoneRelies w.procs (runOffloadCycle [] candidates).sets
  | .exec i answer => ∀ p ∈ w.procs[i]?, p.ExitExpected w.sm answer
  | .resume i => ∀ p ∈ w.procs[i]?, NoneRelies (w.procs.eraseIdx i) p.sets
  | _ => True

instance (w : World P) : (a : Action P) → Decidable (Serialised w a)
  | .install job running =>
      inferInstanceAs (Decidable (NoneRelies w.procs (installAdapter job running).sets))
  | .offload candidates =>
      inferInstanceAs (Decidable (NoneRelies w.procs (runOffloadCycle [] candidates).sets))
  | .exec i answer =>
      inferInstanceAs (Decidable (∀ p ∈ w.procs[i]?, p.ExitExpected w.sm answer))
  | .resume i =>
      inferInstanceAs (Decidable (∀ p ∈ w.procs[i]?, NoneRelies (w.procs.eraseIdx i) p.sets))
  | .remove _ | .env _ | .tick _ => isTrue trivial

/-- A write leaves an adapter it does not set as it was, or unknown. -/
theorem stateAt_apply_of_sets_ne (clk : Clock) (sm : StateManager) {w : Write} {id : String}
    (h : w.sets ≠ some id) :
    (w.apply clk sm).stateAt id = none ∨ (w.apply clk sm).stateAt id = sm.stateAt id := by
  rw [stateAt_apply]
  by_cases hid : id = w.target
  · cases w with
    | create entry => exact absurd (congrArg some hid.symm) h
    | transition id' st msg => exact absurd (congrArg some hid.symm) h
    | remove id' => exact .inl (if_pos hid)
  · exact .inr (if_neg hid)

theorem expects_applyAll (clk : Clock) {id : String} {st : AdapterState} {ws : List Write} :
    ∀ {sm : StateManager}, id ∉ ws.filterMap Write.sets → sm.Expects id st →
      (applyAll clk sm ws).Expects id st := by
  induction ws with
  | nil => intro sm _ h; exact h
  | cons w ws ih =>
      intro sm hid h
      have hw : w.sets ≠ some id := by
        intro hw
        exact hid (List.mem_filterMap.2 ⟨w, List.mem_cons_self, hw⟩)
      have hws : id ∉ ws.filterMap Write.sets := by
        intro hmem
        obtain ⟨w', hw', hset⟩ := List.mem_filterMap.1 hmem
        exact hid (List.mem_filterMap.2 ⟨w', List.mem_cons_of_mem _ hw', hset⟩)
      refine ih hws ?_
      rcases stateAt_apply_of_sets_ne clk sm hw with heq | heq
      · exact .inl heq
      · rw [StateManager.Expects, heq]
        exact h

/-- What a task relies on survives writes to other adapters. -/
theorem Proc.Met.applyAll {clk : Clock} {sm : StateManager} {p : Proc} {ws : List Write}
    (h : p.Met sm) (hws : ∀ x ∈ p.needs, x.1 ∉ ws.filterMap Write.sets) :
    p.Met (applyAll clk sm ws) := fun x hx => expects_applyAll _ (hws x hx) (h x hx)

/-! ### The invariant -/

/-- The adapters an offload task is at or has not come to. -/
def Task.candidates : Task → List String
  | .offloadRm adapter rest => (adapter :: rest).map AdapterEntry.adapterId
  | .offloadRmi adapter rest => (adapter :: rest).map AdapterEntry.adapterId
  | _ => []

/-- Every event so far is an edge, what a task relies on is as it expects, and the candidates of an
offload cycle are different adapters. -/
structure Orderly (w : World P) : Prop where
  valid : ∀ ev ∈ w.sm.sent, ev.Valid
  met : ∀ p ∈ w.procs, p.Met w.sm
  distinct : ∀ p ∈ w.procs, p.task.candidates.Nodup

theorem orderly_init (clk : Clock) : Orderly (World.init P clk) :=
  ⟨by simp [World.init, StateManager.new], by simp [World.init], by simp [World.init]⟩

/-- The turn follows edges and leaves the adapters its tasks rely on as they expect. -/
structure Turn.Fine (clk : Clock) (sm : StateManager) (turn : Turn) : Prop where
  writes : ValidFrom clk sm turn.writes
  met : ∀ t ∈ turn.tasks, (Proc.start t).Met (applyAll clk sm turn.writes)
  distinct : ∀ t ∈ turn.tasks, t.candidates.Nodup

theorem Orderly.settle {w : World P} {others : List Proc} {turn : Turn} (h : Orderly w)
    (hothers : ∀ q ∈ others, q ∈ w.procs) (hrely : NoneRelies others turn.sets)
    (hfine : turn.Fine w.clk w.sm) : Orderly (w.settle others turn) := by
  refine ⟨valid_sent_applyAll h.valid hfine.writes, ?_, ?_⟩
  · intro p hp
    rcases List.mem_append.1 hp with hp | hp
    · exact (h.met p (hothers p hp)).applyAll fun x hx => hrely p hp x hx
    · obtain ⟨t, ht, rfl⟩ := List.mem_map.1 hp
      exact hfine.met t ht
  · intro p hp
    rcases List.mem_append.1 hp with hp | hp
    · exact h.distinct p (hothers p hp)
    · obtain ⟨t, ht, rfl⟩ := List.mem_map.1 hp
      exact hfine.distinct t ht

/-! ### The turns -/

/-- A turn that follows edges and starts nothing that relies on a state. -/
theorem fine_of_quiet {clk : Clock} {sm : StateManager} {turn : Turn}
    (hw : ValidFrom clk sm turn.writes)
    (ht : ∀ t ∈ turn.tasks, (Proc.start t).needs = [] ∧ t.candidates = []) :
    turn.Fine clk sm := by
  refine ⟨hw, ?_, ?_⟩
  · intro t htm x hx
    rw [(ht t htm).1] at hx
    cases hx
  · intro t htm
    rw [(ht t htm).2]
    exact List.nodup_nil

/-- A turn that fails: it writes `error`, which is an edge from everywhere, and starts nothing that
relies on a state. -/
theorem fine_of_error {clk : Clock} {sm : StateManager} {turn : Turn} (id : String)
    (msg : Option String) (hw : turn.writes = [.transition id .error msg])
    (ht : ∀ t ∈ turn.tasks, (Proc.start t).needs = [] ∧ t.candidates = []) :
    turn.Fine clk sm := by
  refine fine_of_quiet ?_ ht
  rw [hw]
  exact ⟨fun old _ => AdapterState.edge_error old, trivial⟩

/-- A turn that writes nothing and goes on with a task whose expectations are met. -/
theorem fine_of_next {clk : Clock} {sm : StateManager} {t : Task} (hmet : (Proc.start t).Met sm)
    (hnd : t.candidates.Nodup) : ({ tasks := [t] } : Turn).Fine clk sm := by
  refine ⟨trivial, ?_, ?_⟩
  · intro t' ht'
    rw [List.mem_singleton.1 ht']
    exact hmet
  · intro t' ht'
    rw [List.mem_singleton.1 ht']
    exact hnd

/-- The rest of an install call: a new entry goes from `unknown` to `downloading`. -/
theorem fine_installCreate {clk : Clock} {sm : StateManager} {before : List Write}
    {job : InstallJob} (hb : ValidFrom clk sm before) :
    (installCreate before job).Fine clk sm := by
  refine ⟨?_, ?_, ?_⟩
  · refine validFrom_append.2 ⟨hb, trivial, ?_, trivial⟩
    intro old hold
    rw [stateAt_create, if_pos (InstallJob.entry_adapterId job).symm] at hold
    cases hold
    rfl
  · intro t ht x hx
    rw [List.mem_singleton.1 ht] at hx
    rw [List.mem_singleton.1 hx]
    refine .inr ?_
    simp [installCreate, applyAll, List.foldl_append]
  · intro t ht
    rw [List.mem_singleton.1 ht]
    exact List.nodup_nil

/-- An offload cycle goes on to the next candidate, which is still stopped. -/
theorem fine_runOffloadCycle {clk : Clock} {sm : StateManager} {before : List Write}
    {rest : List AdapterEntry} (hb : ValidFrom clk sm before)
    (hset : ∀ c ∈ rest, c.adapterId ∉ before.filterMap Write.sets)
    (hrest : ∀ c ∈ rest, sm.Expects c.adapterId .stopped)
    (hnd : (rest.map AdapterEntry.adapterId).Nodup) :
    (runOffloadCycle before rest).Fine clk sm := by
  cases rest with
  | nil => exact ⟨hb, by simp [runOffloadCycle], by simp [runOffloadCycle]⟩
  | cons c rest =>
      rw [List.map_cons, List.nodup_cons] at hnd
      refine ⟨?_, ?_, ?_⟩
      · have hc := expects_applyAll clk (hset c List.mem_cons_self)
          (hrest c List.mem_cons_self)
        exact validFrom_append.2 ⟨hb, validIn_of_expects hc rfl, trivial⟩
      · intro t ht x hx
        rw [List.mem_singleton.1 ht] at hx
        obtain ⟨d, hd, rfl⟩ := List.mem_map.1 hx
        refine expects_applyAll clk ?_ (hrest d (List.mem_cons_of_mem _ hd))
        -- the candidates that remain are neither the one before nor the one begun
        rw [runOffloadCycle, List.filterMap_append, List.mem_append]
        rintro (hmem | hmem)
        · exact hset d (List.mem_cons_of_mem _ hd) hmem
        · have heq : d.adapterId = c.adapterId := by simpa [Write.sets] using hmem
          exact hnd.1 (heq ▸ List.mem_map_of_mem hd)
      · intro t ht
        rw [List.mem_singleton.1 ht]
        exact List.nodup_cons.2 hnd

/-- What an offload task relies on. -/
theorem expects_of_met_offload {sm : StateManager} (rest : List AdapterEntry) {p : Proc}
    (h : p.Met sm)
    (hp : p.needs = rest.map fun c => (c.adapterId, .stopped)) :
    ∀ c ∈ rest, sm.Expects c.adapterId .stopped := by
  intro c hc
  refine h (c.adapterId, .stopped) ?_
  rw [hp]
  exact List.mem_map_of_mem (f := fun c : AdapterEntry => (c.adapterId, AdapterState.stopped)) hc

/-- An offload cycle goes on after a failure, which is recorded on a candidate that is done with. -/
theorem fine_runOffloadCycle_of_error {clk : Clock} {sm : StateManager} {adapter : AdapterEntry}
    {rest : List AdapterEntry} {msg : Option String}
    (hrest : ∀ c ∈ rest, sm.Expects c.adapterId .stopped)
    (hnd : ((adapter :: rest).map AdapterEntry.adapterId).Nodup) :
    (runOffloadCycle [.transition adapter.adapterId .error msg] rest).Fine clk sm := by
  rw [List.map_cons, List.nodup_cons] at hnd
  refine fine_runOffloadCycle ⟨fun old _ => AdapterState.edge_error old, trivial⟩ ?_ hrest hnd.2
  intro c hc hmem
  have heq : c.adapterId = adapter.adapterId := by simpa [Write.sets] using hmem
  exact hnd.1 (heq ▸ List.mem_map_of_mem hc)

/-- The digest is checked: the entry goes on to `installing`, which the run of the container needs,
or to `error`. -/
theorem fine_resume_installInspect {clk : Clock} {sm : StateManager} {job : InstallJob}
    {r : Reply (Task.installInspect job).cmd}
    (hmet : (Proc.mk (.installInspect job) (some r)).Met sm) :
    ((Task.installInspect job).resume r).Fine clk sm := by
  cases r with
  | ok digest =>
      by_cases hd : digest = job.checksumSha256
      · have hdl := hmet (job.adapterId, .downloading) List.mem_cons_self
        rw [resume_installInspect_of_eq hd]
        refine ⟨⟨validIn_of_expects hdl rfl, trivial⟩, ?_, ?_⟩
        · intro t ht x hx
          rw [List.mem_singleton.1 ht] at hx
          rw [List.mem_singleton.1 hx]
          rcases hdl with hnone | hsome
          · exact .inl (by simp [hnone])
          · exact .inr (by simp [hsome])
        · simp [Task.candidates]
      · rw [resume_installInspect_of_ne hd]
        exact fine_of_error _ _ rfl (by simp [Proc.start, Proc.needs, Task.candidates])
  | error e => exact fine_of_error _ _ rfl (by simp [Task.resume])

/-- A monitor that is told of a clean exit leaves `running`. -/
theorem fine_resume_monitorWait {clk : Clock} {sm : StateManager} {job : InstallJob}
    {r : Reply (Task.monitorWait job).cmd} (hmet : (Proc.mk (.monitorWait job) (some r)).Met sm) :
    ((Task.monitorWait job).resume r).Fine clk sm := by
  cases r with
  | ok code =>
      by_cases hc : code = 0
      · have hrun : sm.Expects job.adapterId .running :=
          hmet (job.adapterId, .running) (by simp [Proc.needs, hc])
        refine fine_of_quiet ?_ (by simp [Task.resume, hc])
        simp only [Task.resume, if_pos hc]
        exact ⟨validIn_of_expects hrun rfl, trivial⟩
      · refine fine_of_error job.adapterId
          (some ("container exited with code " ++ toString code)) ?_ ?_
        · simp only [Task.resume, if_neg hc]
        · simp [Task.resume, hc]
  | error e => exact fine_of_error _ _ rfl (by simp [Task.resume])

/-- A task whose expectations are met follows edges when it is resumed. -/
theorem fine_resume {clk : Clock} {sm : StateManager} {t : Task} {r : Reply t.cmd}
    (hmet : (Proc.mk t (some r)).Met sm) (hnd : t.candidates.Nodup) :
    (t.resume r).Fine clk sm := by
  -- a turn that fails writes `error`, and a turn that succeeds follows the edge from what is needed
  cases t with
  | installStop job running =>
      cases r with
      | ok u =>
          have hrun := hmet (running.adapterId, .running) List.mem_cons_self
          exact fine_installCreate ⟨validIn_of_expects hrun rfl, trivial⟩
      | error e => exact fine_installCreate ⟨fun old _ => AdapterState.edge_error old, trivial⟩
  | installPull job =>
      cases r with
      | ok u => exact fine_of_next (t := .installInspect job) hmet List.nodup_nil
      | error e => exact fine_of_error _ _ rfl (by simp [Task.resume])
  | installInspect job => exact fine_resume_installInspect hmet
  | installRmi job => exact fine_of_quiet trivial (by simp [Task.resume])
  | installRun job =>
      cases r with
      | ok u =>
          have hin := hmet (job.adapterId, .installing) List.mem_cons_self
          refine fine_of_quiet ⟨validIn_of_expects hin rfl, trivial⟩ ?_
          simp [Task.resume, Proc.start, Proc.needs, Task.candidates]
      | error e => exact fine_of_error _ _ rfl (by simp [Task.resume])
  | monitorWait job => exact fine_resume_monitorWait hmet
  | removeStop id adapter =>
      cases r with
      | ok u =>
          exact fine_of_quiet trivial
            (by simp [Task.resume, Proc.start, Proc.needs, Task.candidates])
      | error e => exact fine_of_error _ _ rfl (by simp [Task.resume, removeFail])
  | removeRm id adapter =>
      cases r with
      | ok u =>
          exact fine_of_quiet trivial
            (by simp [Task.resume, Proc.start, Proc.needs, Task.candidates])
      | error e => exact fine_of_error _ _ rfl (by simp [Task.resume, removeFail])
  | removeRmi id adapter =>
      cases r with
      | ok u => exact fine_of_quiet ⟨trivial, trivial⟩ (by simp [Task.resume])
      | error e => exact fine_of_error _ _ rfl (by simp [Task.resume, removeFail])
  | offloadRm adapter rest =>
      have hrest := expects_of_met_offload rest hmet rfl
      cases r with
      | ok u => exact fine_of_next (t := .offloadRmi adapter rest) hmet hnd
      | error e => exact fine_runOffloadCycle_of_error hrest hnd
  | offloadRmi adapter rest =>
      have hrest := expects_of_met_offload rest hmet rfl
      cases r with
      | ok u =>
          refine fine_runOffloadCycle ⟨trivial, trivial⟩ ?_ hrest (List.nodup_cons.1 hnd).2
          simp [Write.sets]
      | error e => exact fine_runOffloadCycle_of_error hrest hnd

/-- An install call that finds an adapter running relies on it being so. -/
theorem fine_installAdapter {clk : Clock} {sm : StateManager} {job : InstallJob}
    {running : Option AdapterEntry} (hrun : sm.IsRunningAdapter running) :
    (installAdapter job running).Fine clk sm := by
  by_cases hvalid : job.Valid
  · cases running with
    | none =>
        rw [installAdapter_none hvalid]
        exact fine_installCreate trivial
    | some e =>
        rw [installAdapter_some hvalid]
        refine ⟨trivial, ?_, by simp [Task.candidates]⟩
        intro t ht x hx
        rw [List.mem_singleton.1 ht] at hx
        rw [List.mem_singleton.1 hx]
        exact .inr (StateManager.stateAt_of_mem_runningAdapters hrun)
  · obtain ⟨hwrites, htasks, -⟩ := installAdapter_of_not_valid running hvalid
    refine fine_of_quiet ?_ (by simp [htasks])
    rw [hwrites]
    trivial

theorem fine_removeAdapter {clk : Clock} {sm : StateManager} (id : String)
    (e : Option AdapterEntry) : (removeAdapter id e).Fine clk sm := by
  refine fine_of_quiet ?_ fun t ht => ?_
  · rw [writes_removeAdapter]
    trivial
  · obtain ⟨adapter, rfl | rfl⟩ := mem_tasks_removeAdapter ht <;> exact ⟨rfl, rfl⟩

/-- The candidates found are stopped, and different adapters. -/
theorem fine_offload {clk : Clock} {sm : StateManager} {timeout : ℕ}
    {candidates : List AdapterEntry}
    (hperm : candidates.Perm (sm.getOffloadCandidates clk timeout)) :
    (runOffloadCycle [] candidates).Fine clk sm := by
  refine fine_runOffloadCycle trivial (by simp) ?_ ?_
  · intro c hc
    obtain ⟨hget, hst, -⟩ := StateManager.mem_getOffloadCandidates.1 (hperm.mem_iff.1 hc)
    exact .inr (by rw [StateManager.stateAt_of_getAdapter hget, hst])
  · exact (hperm.map _).nodup_iff.2 (StateManager.nodup_adapterId_filter sm _)

/-! ### The steps -/

/-- Carrying out a command makes a task rely on nothing new, except that a monitor told of a clean
exit relies on its adapter being running. -/
theorem met_answered {sm : StateManager} {t : Task} {r : Reply t.cmd} {answer : Answer}
    (hr : answer.toReply t.cmd = some r) (h : (Proc.start t).Met sm)
    (hexit : (Proc.start t).ExitExpected sm answer) : (Proc.mk t (some r)).Met sm := by
  cases t with
  | monitorWait job =>
      intro x hx
      cases r with
      | error e => cases hx
      | ok code =>
          by_cases hc : code = 0
          · simp only [Proc.needs, if_pos hc, List.mem_singleton] at hx
            subst hx
            refine hexit ?_
            cases answer <;> simp_all [Answer.toReply]
          · simp [Proc.needs, hc] at hx
  | installStop | installPull | installInspect | installRun =>
      intro x hx
      cases r with
      | error e => cases hx
      | ok v => exact h x hx
  | installRmi | removeStop | removeRm | removeRmi => intro x hx; cases hx
  | offloadRm | offloadRmi => exact h

/-- Every step that meets the side condition keeps the invariant. -/
theorem Orderly.step {timeout : ℕ} {w w' : World P} {a : Action P} (h : Orderly w)
    (hser : Serialised w a) (hstep : w.step timeout a = some w') : Orderly w' := by
  cases step_eq_some_iff.1 hstep with
  | install job running hrun =>
      have hissue : Orderly (w.issue job) := ⟨h.valid, h.met, h.distinct⟩
      exact hissue.settle (fun q hq => hq) hser (fine_installAdapter hrun)
  | remove id =>
      -- the call itself writes nothing; what it deletes and fails is up to its later turns
      refine h.settle (fun q hq => hq) ?_ (fine_removeAdapter id _)
      intro q _ x _
      simp [Turn.sets]
  | offload candidates _ hperm => exact h.settle (fun q hq => hq) hser (fine_offload hperm)
  | exec i answer t r s hp hr _ =>
      have hmem : Proc.start t ∈ w.procs := List.mem_of_getElem? hp
      refine ⟨h.valid, fun p hpm => ?_, fun p hpm => ?_⟩
      · rcases Pool.eq_or_mem_of_mem_set hpm with rfl | hpm
        -- only here is podman's exit code asked for: a clean exit makes the monitor rely
        · exact met_answered hr (h.met _ hmem) (hser _ hp)
        · exact h.met p hpm
      · rcases Pool.eq_or_mem_of_mem_set hpm with rfl | hpm
        · exact h.distinct (Proc.start t) hmem
        · exact h.distinct p hpm
  | resume i t r hp =>
      have hmem : (⟨t, some r⟩ : Proc) ∈ w.procs := List.mem_of_getElem? hp
      exact h.settle (fun q hq => Pool.mem_of_mem_eraseIdx hq) (hser _ hp)
        (fine_resume (h.met _ hmem) (h.distinct _ hmem))
  | env e s _ => exact ⟨h.valid, h.met, h.distinct⟩
  | tick clk _ => exact ⟨h.valid, h.met, h.distinct⟩

/-! ### The lifecycle -/

/-- **Every event is an edge of the documented state machine**, in every run in which no step sets
the state of an adapter on which another task relies, and podman reports a clean exit only of an
adapter that is running or unknown. -/
theorem edge_of_serialised {timeout : ℕ} {clk : Clock} {w : World P}
    (h : Lts.Reach (Lts.restrict (World.step timeout) Serialised) (World.init P clk) w) :
    ∀ ev ∈ w.sm.sent, ev.oldState.edge ev.newState = true := by
  have hinv : Orderly w := by
    refine h.invariant (orderly_init clk) fun s a s' hs hstep => ?_
    obtain ⟨hser, hstep⟩ := Lts.restrict_eq_some_iff.1 hstep
    exact hs.step hser hstep
  exact hinv.valid

/-- The second install stops the first adapter, whose container exits with `code`; then the first
adapter's monitor is resumed. -/
def installStopsThenExits (code : ℤ) : List (Action Podman.free) :=
  [.install jobA none] ++ bringUp jobA 0 0 ++
    [.install jobB (some { jobA.entry with state := .running }), .exec 1 .done, .resume 1,
      .exec 0 (.exited code), .resume 0]

/-- A container stopped by `SIGTERM` does not report a clean exit. -/
theorem edge_of_installStopsThenExits :
    ∃ w, Lts.run (Lts.restrict (World.step 0) Serialised) (World.init Podman.free ⟨0, 0⟩)
        (installStopsThenExits 143) = some w ∧
      ∀ ev ∈ w.sm.sent, ev.oldState.edge ev.newState = true := by
  obtain ⟨w, hw⟩ := Option.isSome_iff_exists.1 (show (Lts.run
    (Lts.restrict (World.step 0) Serialised) (World.init Podman.free ⟨0, 0⟩)
    (installStopsThenExits 143)).isSome by decide)
  exact ⟨w, hw, edge_of_serialised (Lts.reach_of_run hw)⟩

/-- **A container stopped by an install call and exiting cleanly goes from `stopped` to
`stopped`.** -/
theorem stopped_by_install_then_exits :
    ¬ ∀ (timeout : ℕ) (clk : Clock) (w : World Podman.free),
      Lts.Reach (World.step timeout) (World.init Podman.free clk) w →
        ∀ ev ∈ w.sm.sent, ev.oldState.edge ev.newState = true := by
  intro hall
  have hrun : (Lts.run (World.step 0) (World.init Podman.free ⟨0, 0⟩)
      (installStopsThenExits 0)).map (fun w => decide
        (⟨"a-1", .stopped, .stopped, 0⟩ ∈ w.sm.sent)) = some true := by decide
  obtain ⟨w, hw, hmem⟩ := Option.map_eq_some_iff.1 hrun
  have hedge := hall 0 ⟨0, 0⟩ w (Lts.reach_of_run hw) _ (of_decide_eq_true hmem)
  cases hedge

end UpdateService
