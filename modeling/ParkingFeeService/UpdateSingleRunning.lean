/-
**At most one running adapter.**

An install call stops the running adapter before it creates its own entry, but the entry reaches
`running` only much later, in the background task.  Two install calls for different adapters that
overlap therefore both reach it: the second call finds nothing running to stop.

The constraint does hold in every run in which no install call arrives while an install of another
adapter is still on its way to `running`, whatever podman answers and however removals, monitors and
offload cycles interleave.  The invariant is that all installs on their way are of one adapter, and
that each of them tolerates every adapter that is running: one that is still stopping the old
adapter tolerates that one and its own, the later stages only their own.

Main definitions:

* `UpdateService.Proc.onItsWay` — the adapter a task may still bring to `running`;
* `UpdateService.OneInstallAtATime` — the side condition on the steps;
* `UpdateService.SingleRunning` — the invariant.

Main results:

* `UpdateService.overlapping_installs_both_run` — the overlap;
* `UpdateService.running_le_one_of_oneInstallAtATime` — the constraint under the side condition.
-/

import ParkingFeeService.UpdateWorld

set_option relaxedAutoImplicit false
set_option autoImplicit false

namespace UpdateService

variable {P : Podman}

/-! ### Installs on their way -/

/-- The command of the task has failed. -/
def Proc.failed (p : Proc) : Bool :=
  match p.reply with
  | some (.error _) => true
  | _ => false

/-- The adapter that the task may still bring to `running`. -/
def Proc.onItsWay (p : Proc) : Option String :=
  match p.task with
  | .installStop job _ => some job.adapterId
  | .installPull job => if p.failed then none else some job.adapterId
  | .installInspect job => if p.failed then none else some job.adapterId
  | .installRun job => if p.failed then none else some job.adapterId
  | _ => none

/-- An install call arrives only when every install still on its way is of the same adapter. -/
def OneInstallAtATime (w : World P) : Action P → Prop
  | .install job _ =>
      job.Valid → ∀ p ∈ w.procs, p.onItsWay = none ∨ p.onItsWay = some job.adapterId
  | _ => True

instance (w : World P) : (a : Action P) → Decidable (OneInstallAtATime w a)
  | .install job _ => inferInstanceAs (Decidable (job.Valid → ∀ p ∈ w.procs,
      p.onItsWay = none ∨ p.onItsWay = some job.adapterId))
  | .remove _ | .offload _ | .exec _ _ | .resume _ | .env _ | .tick _ => isTrue trivial

/-- The task, if it is on its way to `running`, tolerates that the adapter is running. -/
def Proc.Tolerates (p : Proc) (id : String) : Prop :=
  match p.task with
  | .installStop job running => id = running.adapterId ∨ id = job.adapterId
  | .installPull job => p.failed = true ∨ id = job.adapterId
  | .installInspect job => p.failed = true ∨ id = job.adapterId
  | .installRun job => p.failed = true ∨ id = job.adapterId
  | _ => True

/-- A command that is carried out can only take a task off its way. -/
theorem onItsWay_answered {t : Task} {r : Reply t.cmd} {a : String}
    (h : (Proc.mk t (some r)).onItsWay = some a) : (Proc.start t).onItsWay = some a := by
  cases t <;> cases r <;> simp_all [Proc.onItsWay, Proc.failed, Proc.start]

theorem tolerates_answered {t : Task} (r : Reply t.cmd) {id : String}
    (h : (Proc.start t).Tolerates id) : (Proc.mk t (some r)).Tolerates id := by
  cases t <;> simp_all [Proc.Tolerates, Proc.failed, Proc.start]

/-- A task tolerates the adapter it is bringing to `running`. -/
theorem tolerates_of_onItsWay {p : Proc} {id : String}
    (h : ∀ a, p.onItsWay = some a → a = id) : p.Tolerates id := by
  obtain ⟨t, r⟩ := p
  rw [Proc.onItsWay] at h
  rw [Proc.Tolerates]
  cases t with
  | installStop job running => exact .inr (h _ rfl).symm
  | installPull job | installInspect job | installRun job =>
      cases hf : (Proc.failed ⟨_, r⟩) with
      | true => exact .inl rfl
      | false => exact .inr (h _ (by simp [hf])).symm
  | _ => trivial

/-! ### The invariant -/

/-- The adapter is running. -/
def Running (sm : StateManager) (id : String) : Prop := sm.stateAt id = some .running

/-- At most one adapter is running, all installs on their way are of one adapter, and they tolerate
what is running. -/
structure SingleRunning (w : World P) : Prop where
  unique : ∀ id id', Running w.sm id → Running w.sm id' → id = id'
  way : ∃ a, ∀ p ∈ w.procs, ∀ b, p.onItsWay = some b → b = a
  tolerated : ∀ p ∈ w.procs, ∀ id, Running w.sm id → p.Tolerates id

theorem singleRunning_init (clk : Clock) : SingleRunning (World.init P clk) := by
  refine ⟨?_, ⟨"", ?_⟩, ?_⟩
  · intro id id' h
    simp [World.init, Running] at h
  · intro p hp
    simp [World.init] at hp
  · intro p hp
    simp [World.init] at hp

/-- A turn keeps the invariant if it makes nothing new run and what it starts is of the same
adapter and tolerates what runs. -/
theorem SingleRunning.settle {w : World P} {others : List Proc} {turn : Turn} {a : String}
    (h : SingleRunning w) (hothers : ∀ q ∈ others, q ∈ w.procs)
    (hway : ∀ q ∈ others, ∀ b, q.onItsWay = some b → b = a)
    (hrun : ∀ id, Running (applyAll w.clk w.sm turn.writes) id → Running w.sm id)
    (hnew : ∀ t ∈ turn.tasks, (∀ b, (Proc.start t).onItsWay = some b → b = a) ∧
      ∀ id, Running (applyAll w.clk w.sm turn.writes) id → (Proc.start t).Tolerates id) :
    SingleRunning (w.settle others turn) := by
  refine ⟨?_, ⟨a, ?_⟩, ?_⟩
  · intro id id' hid hid'
    exact h.unique id id' (hrun id hid) (hrun id' hid')
  · intro p hp b hb
    rcases List.mem_append.1 hp with hp | hp
    · exact hway p hp b hb
    · obtain ⟨t, ht, rfl⟩ := List.mem_map.1 hp
      exact (hnew t ht).1 b hb
  · intro p hp id hid
    rcases List.mem_append.1 hp with hp | hp
    · exact h.tolerated p (hothers p hp) id (hrun id hid)
    · obtain ⟨t, ht, rfl⟩ := List.mem_map.1 hp
      exact (hnew t ht).2 id hid

/-! ### What becomes running in a turn -/

/-- The write makes an adapter run. -/
def Write.makesRun : Write → Bool
  | .create entry => entry.state = .running
  | .transition _ st _ => st = .running
  | .remove _ => false

theorem running_apply {clk : Clock} {sm : StateManager} {w : Write} {id : String}
    (hw : w.makesRun = false) (h : Running (w.apply clk sm) id) : Running sm id := by
  unfold Running at h ⊢
  rw [stateAt_apply] at h
  split at h
  · cases w with
    | create entry =>
        rw [Option.some.injEq] at h
        simp [Write.makesRun, h] at hw
    | transition id' st msg =>
        obtain ⟨old, -, hst⟩ := Option.map_eq_some_iff.1 h
        simp [Write.makesRun, hst] at hw
    | remove id' => cases h
  · exact h

/-- Writes that make nothing run leave running only what was. -/
theorem running_applyAll {clk : Clock} {id : String} {ws : List Write} :
    ∀ {sm : StateManager}, (∀ w ∈ ws, w.makesRun = false) → Running (applyAll clk sm ws) id →
      Running sm id := by
  induction ws with
  | nil => intro sm _ h; exact h
  | cons w ws ih =>
      intro sm hws h
      exact running_apply (hws w List.mem_cons_self)
        (ih (fun w' hw' => hws w' (List.mem_cons_of_mem _ hw')) h)

/-- After the old adapter has been stopped and the new entry created, neither is running. -/
theorem running_installCreate {clk : Clock} {sm : StateManager} {job : InstallJob} {old id : String}
    {st : AdapterState} {msg : Option String} (hst : st ≠ .running)
    (h : Running (applyAll clk sm (installCreate [.transition old st msg] job).writes) id) :
    Running sm id ∧ id ≠ old ∧ id ≠ job.adapterId := by
  unfold Running at h ⊢
  simp only [installCreate, List.cons_append, List.nil_append, applyAll_cons, applyAll_nil,
    stateAt_transition, stateAt_create, InstallJob.entry_adapterId] at h
  by_cases hjob : id = job.adapterId
  · simp [hjob] at h
  · simp only [if_neg hjob] at h
    by_cases hold : id = old
    · simp only [if_pos hold, Option.map_eq_some_iff] at h
      obtain ⟨_, -, rfl⟩ := h
      exact absurd rfl hst
    · rw [if_neg hold] at h
      exact ⟨h, hold, hjob⟩

/-- A turn that makes nothing run and starts no install. -/
theorem SingleRunning.settle_quiet {w : World P} {others : List Proc} {turn : Turn}
    (h : SingleRunning w) (hothers : ∀ q ∈ others, q ∈ w.procs)
    (hws : ∀ x ∈ turn.writes, x.makesRun = false)
    (hnew : ∀ t ∈ turn.tasks, (Proc.start t).onItsWay = none) :
    SingleRunning (w.settle others turn) := by
  obtain ⟨a, ha⟩ := h.way
  refine h.settle hothers (a := a) (fun q hq => ha q (hothers q hq))
    (fun id => running_applyAll hws) ?_
  intro t ht
  refine ⟨fun b hb => ?_, fun id _ => tolerates_of_onItsWay fun b hb => ?_⟩
  · rw [hnew t ht] at hb
    cases hb
  · rw [hnew t ht] at hb
    cases hb

/-! ### The steps -/

/-- The rest of an install call, once the old adapter is stopped. -/
theorem SingleRunning.settle_installStop {w : World P} {others : List Proc} {job : InstallJob}
    {running : AdapterEntry} {r : Option (Reply (Task.installStop job running).cmd)}
    {st : AdapterState} {msg : Option String} (h : SingleRunning w)
    (hp : ⟨.installStop job running, r⟩ ∈ w.procs) (hothers : ∀ q ∈ others, q ∈ w.procs)
    (hst : st ≠ .running) :
    SingleRunning
      (w.settle others (installCreate [.transition running.adapterId st msg] job)) := by
  obtain ⟨a, ha⟩ := h.way
  have hjob : job.adapterId = a := ha _ hp _ rfl
  -- whatever was running was the old adapter or the one being installed
  have hnone : ∀ id, ¬ Running (applyAll w.clk w.sm
      (installCreate [.transition running.adapterId st msg] job).writes) id := by
    intro id hid
    obtain ⟨hrun, hold, hnew⟩ := running_installCreate hst hid
    rcases h.tolerated _ hp id hrun with heq | heq
    · exact hold heq
    · exact hnew heq
  refine h.settle hothers (a := a) (fun q hq => ha q (hothers q hq))
    (fun id hid => absurd hid (hnone id)) ?_
  intro t ht
  rw [List.mem_singleton.1 ht]
  refine ⟨fun b hb => ?_, fun id hid => absurd hid (hnone id)⟩
  rw [← hjob]
  exact (Option.some.inj hb).symm

/-- The container of a job has been started: its adapter becomes the only running one. -/
theorem SingleRunning.settle_installRun {w : World P} {others : List Proc} {job : InstallJob}
    (h : SingleRunning w) (hp : ⟨.installRun job, some (.ok ())⟩ ∈ w.procs)
    (hothers : ∀ q ∈ others, q ∈ w.procs) :
    SingleRunning (w.settle others ((Task.installRun job).resume (.ok ()))) := by
  obtain ⟨a, ha⟩ := h.way
  have hjob : job.adapterId = a := ha _ hp _ rfl
  -- the task tolerates only its own adapter, so no other one was running
  have hafter : ∀ id, Running (applyAll w.clk w.sm
      ((Task.installRun job).resume (.ok ())).writes) id → id = a := by
    intro id hid
    by_cases hne : id = job.adapterId
    · exact hne.trans hjob
    · have hrun : Running w.sm id := by
        simpa [Task.resume, Running, hne] using hid
      rcases h.tolerated _ hp id hrun with hfail | heq
      · cases hfail
      · exact absurd heq hne
  refine ⟨?_, ⟨a, ?_⟩, ?_⟩
  · intro id id' hid hid'
    rw [hafter id hid, hafter id' hid']
  · intro p hp b hb
    rcases List.mem_append.1 hp with hp | hp
    · exact ha p (hothers p hp) b hb
    · rw [List.mem_singleton.1 hp] at hb
      cases hb
  · intro p hp id hid
    rcases List.mem_append.1 hp with hp | hp
    · refine tolerates_of_onItsWay fun b hb => ?_
      rw [ha p (hothers p hp) b hb, hafter id hid]
    · rw [List.mem_singleton.1 hp]
      trivial

/-- An intermediate stage of an install goes on to the next one. -/
theorem SingleRunning.settle_next {w : World P} {others : List Proc} {t : Task} {turn : Turn}
    {r : Option (Reply t.cmd)} {a : String} (h : SingleRunning w) (next : Task)
    (hp : ⟨t, r⟩ ∈ w.procs) (hothers : ∀ q ∈ others, q ∈ w.procs)
    (hws : ∀ x ∈ turn.writes, x.makesRun = false) (htasks : turn.tasks = [next])
    (hway : (Proc.mk t r).onItsWay = some a) (hnext : (Proc.start next).onItsWay = some a)
    (htol : ∀ id, (Proc.mk t r).Tolerates id → (Proc.start next).Tolerates id) :
    SingleRunning (w.settle others turn) := by
  obtain ⟨b, hb⟩ := h.way
  refine h.settle hothers (a := b) (fun q hq => hb q (hothers q hq))
    (fun id => running_applyAll hws) ?_
  intro t' ht'
  rw [htasks, List.mem_singleton] at ht'
  subst ht'
  refine ⟨fun c hc => ?_, fun id hid => htol id ?_⟩
  · rw [hnext] at hc
    rw [← Option.some.inj hc]
    exact hb _ hp a hway
  · exact h.tolerated _ hp id (running_applyAll hws hid)

/-- A cycle from one candidate to the next makes nothing run. -/
theorem makesRun_runOffloadCycle {before : List Write} (hb : ∀ x ∈ before, x.makesRun = false)
    (rest : List AdapterEntry) : ∀ x ∈ (runOffloadCycle before rest).writes,
      x.makesRun = false :=
  forall_writes_runOffloadCycle hb (fun _ => rfl) rest

theorem onItsWay_runOffloadCycle (before : List Write) (rest : List AdapterEntry) :
    ∀ t ∈ (runOffloadCycle before rest).tasks, (Proc.start t).onItsWay = none := by
  cases rest with
  | nil => simp [runOffloadCycle]
  | cons c rest => simp [runOffloadCycle, Proc.onItsWay]

/-- Resuming a task keeps the invariant. -/
theorem SingleRunning.resume {w : World P} {others : List Proc} {t : Task} {r : Reply t.cmd}
    (h : SingleRunning w) (hp : ⟨t, some r⟩ ∈ w.procs) (hothers : ∀ q ∈ others, q ∈ w.procs) :
    SingleRunning (w.settle others (t.resume r)) := by
  cases t with
  | installStop job running =>
      cases r with
      | ok u => exact h.settle_installStop hp hothers (by decide)
      | error e => exact h.settle_installStop hp hothers (by decide)
  | installPull job =>
      cases r with
      | ok u =>
          refine h.settle_next (.installInspect job) hp hothers ?_ rfl rfl rfl ?_
          · simp [Task.resume]
          · intro id htol
            exact htol.imp_left fun hf => by cases hf
      | error e =>
          exact h.settle_quiet hothers (by simp [Task.resume, Write.makesRun])
            (by simp [Task.resume])
  | installInspect job =>
      cases r with
      | ok digest =>
          by_cases hd : digest = job.checksumSha256
          · rw [resume_installInspect_of_eq hd]
            refine h.settle_next (.installRun job) hp hothers (by simp [Write.makesRun]) rfl rfl rfl
              fun id htol => ?_
            exact htol.imp_left fun hf => by cases hf
          · rw [resume_installInspect_of_ne hd]
            exact h.settle_quiet hothers (by simp [Write.makesRun]) (by simp [Proc.onItsWay])
      | error e =>
          exact h.settle_quiet hothers (by simp [Task.resume, Write.makesRun])
            (by simp [Task.resume])
  | installRmi job => exact h.settle_quiet hothers (by simp [Task.resume]) (by simp [Task.resume])
  | installRun job =>
      cases r with
      | ok u => exact h.settle_installRun hp hothers
      | error e =>
          exact h.settle_quiet hothers (by simp [Task.resume, Write.makesRun])
            (by simp [Task.resume])
  | monitorWait job =>
      obtain ⟨st, msg, hst, hturn⟩ := resume_monitorWait job r
      rw [hturn]
      refine h.settle_quiet hothers ?_ (by simp)
      rcases hst with rfl | rfl <;> simp [Write.makesRun]
  | removeStop id adapter | removeRm id adapter | removeRmi id adapter =>
      refine h.settle_quiet hothers ?_ ?_
      · cases r <;> simp [Task.resume, removeFail, Write.makesRun]
      · cases r <;> simp [Task.resume, removeFail, Proc.onItsWay]
  | offloadRm adapter rest =>
      cases r with
      | ok u =>
          exact h.settle_quiet hothers (by simp [Task.resume])
            (by simp [Task.resume, Proc.onItsWay])
      | error e =>
          exact h.settle_quiet hothers (makesRun_runOffloadCycle (by simp [Write.makesRun]) rest)
            (onItsWay_runOffloadCycle _ rest)
  | offloadRmi adapter rest =>
      cases r with
      | ok u =>
          exact h.settle_quiet hothers (makesRun_runOffloadCycle (by simp [Write.makesRun]) rest)
            (onItsWay_runOffloadCycle _ rest)
      | error e =>
          exact h.settle_quiet hothers (makesRun_runOffloadCycle (by simp [Write.makesRun]) rest)
            (onItsWay_runOffloadCycle _ rest)

/-- An install call arrives while no install of another adapter is on its way. -/
theorem SingleRunning.install {w : World P} {job : InstallJob} {running : Option AdapterEntry}
    (h : SingleRunning w) (hrun : w.sm.IsRunningAdapter running)
    (hone : OneInstallAtATime w (.install job running)) :
    SingleRunning ((w.issue job).settle w.procs (installAdapter job running)) := by
  have hissue : SingleRunning (w.issue job) := ⟨h.unique, h.way, h.tolerated⟩
  by_cases hvalid : job.Valid
  · have hway : ∀ q ∈ w.procs, ∀ b, q.onItsWay = some b → b = job.adapterId := by
      intro q hq b hb
      rcases hone hvalid q hq with hnone | hsome
      · rw [hnone] at hb
        cases hb
      · rw [hsome] at hb
        exact (Option.some.inj hb).symm
    cases running with
    | none =>
        -- the reading found nothing, so nothing is running
        have hnone : ∀ id, ¬ Running w.sm id := by
          intro id hid
          obtain ⟨e, he, -⟩ := StateManager.exists_mem_runningAdapters hid
          rw [show w.sm.runningAdapters = [] from hrun] at he
          cases he
        have hafter : ∀ id, Running (applyAll w.clk w.sm (installCreate [] job).writes) id →
            Running w.sm id := by
          intro id hid
          exact running_applyAll (by simp [installCreate, Write.makesRun]) hid
        rw [installAdapter_none hvalid]
        refine hissue.settle (a := job.adapterId) (fun q hq => hq) hway hafter ?_
        intro t ht
        rw [List.mem_singleton.1 ht]
        refine ⟨fun b hb => (Option.some.inj hb).symm, ?_⟩
        exact fun id hid => absurd (hafter id hid) (hnone id)
    | some r =>
        have hr : Running w.sm r.adapterId := StateManager.stateAt_of_mem_runningAdapters hrun
        rw [installAdapter_some hvalid]
        refine hissue.settle (a := job.adapterId) (fun q hq => hq) hway (fun id hid => hid) ?_
        intro t ht
        rw [List.mem_singleton.1 ht]
        exact ⟨fun b hb => (Option.some.inj hb).symm, fun id hid => .inl (h.unique id _ hid hr)⟩
  · have hturn := installAdapter_of_not_valid running hvalid
    exact hissue.settle_quiet (fun q hq => hq) (by simp [hturn.1]) (by simp [hturn.2.1])

/-- Every step that meets the side condition keeps the invariant. -/
theorem SingleRunning.step {timeout : ℕ} {w w' : World P} {a : Action P} (h : SingleRunning w)
    (hone : OneInstallAtATime w a) (hstep : w.step timeout a = some w') : SingleRunning w' := by
  cases step_eq_some_iff.1 hstep with
  | install job running hrun => exact h.install hrun hone
  | remove id =>
      refine h.settle_quiet (fun q hq => hq) (by simp) fun t ht => ?_
      obtain ⟨adapter, rfl | rfl⟩ := mem_tasks_removeAdapter ht <;> rfl
  | offload candidates _ _ =>
      exact h.settle_quiet (fun q hq => hq) (makesRun_runOffloadCycle (by simp) candidates)
        (onItsWay_runOffloadCycle _ candidates)
  | exec i answer t r s hp _ _ =>
      have hmem : Proc.start t ∈ w.procs := List.mem_of_getElem? hp
      -- the map is not written; an answer can only take the task off its way
      obtain ⟨b, hb⟩ := h.way
      refine ⟨h.unique, ⟨b, fun p hpm c hc => ?_⟩, fun p hpm id hid => ?_⟩
      · rcases Pool.eq_or_mem_of_mem_set hpm with rfl | hpm
        · exact hb _ hmem c (onItsWay_answered hc)
        · exact hb p hpm c hc
      · rcases Pool.eq_or_mem_of_mem_set hpm with rfl | hpm
        · exact tolerates_answered r (h.tolerated _ hmem id hid)
        · exact h.tolerated p hpm id hid
  | resume i t r hp =>
      exact h.resume (List.mem_of_getElem? hp) fun q hq => Pool.mem_of_mem_eraseIdx hq
  | env e s _ => exact ⟨h.unique, h.way, h.tolerated⟩
  | tick clk _ => exact ⟨h.unique, h.way, h.tolerated⟩

/-! ### The constraint -/

/-- **At most one adapter is running**, in every state of every run in which no install call
arrives while the install of another adapter is on its way. -/
theorem running_le_one_of_oneInstallAtATime {timeout : ℕ} {clk : Clock} {w : World P}
    (h : Lts.Reach (Lts.restrict (World.step timeout) OneInstallAtATime) (World.init P clk) w) :
    w.sm.runningAdapters.length ≤ 1 := by
  have hinv : SingleRunning w := by
    refine h.invariant (singleRunning_init clk) fun s a s' hs hstep => ?_
    obtain ⟨hone, hstep⟩ := Lts.restrict_eq_some_iff.1 hstep
    exact hs.step hone hstep
  exact (StateManager.length_runningAdapters_le_one_iff w.sm).2 hinv.unique

/-- Two jobs for different adapters. -/
def jobA : InstallJob := ⟨"job-a", "registry/a:1", "sum-a"⟩

def jobB : InstallJob := ⟨"job-b", "registry/b:1", "sum-b"⟩

/-- A job at position `i` of the pool goes from its download to `running`, as the last task. -/
def bringUp {P : Podman} (job : InstallJob) (i last : ℕ) : List (Action P) :=
  [.exec i .done, .resume i, .exec last (.digest job.checksumSha256), .resume last,
    .exec last .done, .resume last]

/-- One adapter after the other: the second install stops the first adapter. -/
def installsInTurn : List (Action Podman.free) :=
  [.install jobA none] ++ bringUp jobA 0 0 ++
    [.install jobB (some { jobA.entry with state := .running }), .exec 1 .done, .resume 1] ++
    bringUp jobB 1 1

theorem running_le_one_of_installsInTurn :
    ∃ w, Lts.run (Lts.restrict (World.step 0) OneInstallAtATime) (World.init Podman.free ⟨0, 0⟩)
        installsInTurn = some w ∧
      w.sm.runningAdapters.length ≤ 1 := by
  obtain ⟨w, hw⟩ := Option.isSome_iff_exists.1 (show (Lts.run
    (Lts.restrict (World.step 0) OneInstallAtATime) (World.init Podman.free ⟨0, 0⟩)
    installsInTurn).isSome by decide)
  exact ⟨w, hw, running_le_one_of_oneInstallAtATime (Lts.reach_of_run hw)⟩

/-- The second install arrives while the first is downloading. -/
def overlappingInstalls : List (Action Podman.free) :=
  [.install jobA none, .install jobB none] ++ bringUp jobA 0 1 ++ bringUp jobB 0 1

/-- **Overlapping installs both reach `running`.** -/
theorem overlapping_installs_both_run :
    ¬ ∀ (timeout : ℕ) (clk : Clock) (w : World Podman.free),
      Lts.Reach (World.step timeout) (World.init Podman.free clk) w →
        w.sm.runningAdapters.length ≤ 1 := by
  intro hall
  have hrun : (Lts.run (World.step 0) (World.init Podman.free ⟨0, 0⟩) overlappingInstalls).map
      (fun w => w.sm.runningAdapters.length) = some 2 := by decide
  obtain ⟨w, hw, hlen⟩ := Option.map_eq_some_iff.1 hrun
  have hle := hall 0 ⟨0, 0⟩ w (Lts.reach_of_run hw)
  omega

end UpdateService
