/-
**No running container is lost.**

The adapter map and podman are two stores that long sequences of awaits keep in step.  A removal or
an offload cycle deletes the entry it found when it began; if the adapter is installed again in the
meantime, the entry deleted is the new one, and its container runs on without an entry.

The two agree in every run in which an entry is created only while no other task in flight concerns
the adapter, and a removal is not requested while an install of the adapter is under way.  A running
container then either has just been started by a task that has not looked yet, or its entry is
`running` and it is monitored; and every task that is about to take the adapter out of `running`
knows its container to stand still.

Main definitions:

* `UpdateService.Task.concerns`, `UpdateService.Task.progress` — the adapters a task is about, and
  the one it is installing;
* `UpdateService.AdapterToItself` — the side condition on the steps;
* `UpdateService.Tracked` — the invariant;
* `UpdateService.Quiescent` — nothing but container monitors is in flight.

Main results:

* `UpdateService.removal_loses_container` — a removal that overlaps an install;
* `UpdateService.running_entry_of_adapterToItself` — no container is lost under the side condition.
-/

import ParkingFeeService.UpdatePodman
import ParkingFeeService.UpdateSingleRunning

set_option relaxedAutoImplicit false
set_option autoImplicit false

namespace UpdateService

/-! ### The adapters a task is about -/

/-- The adapters whose container or entry a task is still going to touch. -/
def Task.concerns : Task → List String
  | .installStop _ running => [running.adapterId]
  | .installPull job => [job.adapterId]
  | .installInspect job => [job.adapterId]
  | .installRmi _ => []
  | .installRun job => [job.adapterId]
  | .monitorWait job => [job.adapterId]
  | .removeStop id _ => [id]
  | .removeRm id _ => [id]
  | .removeRmi id _ => [id]
  | .offloadRm adapter rest => (adapter :: rest).map AdapterEntry.adapterId
  | .offloadRmi adapter rest => (adapter :: rest).map AdapterEntry.adapterId

/-- The adapter a background task is installing. -/
def Task.progress : Task → Option String
  | .installPull job => some job.adapterId
  | .installInspect job => some job.adapterId
  | .installRun job => some job.adapterId
  | _ => none

theorem concerns_of_progress {t : Task} {id : String} (h : t.progress = some id) :
    id ∈ t.concerns := by
  cases t <;> simp_all [Task.progress, Task.concerns]

/-- An adapter being installed by one task is not concerned by the other. -/
def Apart (t t' : Task) : Prop :=
  ∀ id, (t.progress = some id → id ∉ t'.concerns) ∧ (t'.progress = some id → id ∉ t.concerns)

theorem Apart.symm {t t' : Task} (h : Apart t t') : Apart t' t := fun id => (h id).symm

/-- The adapters whose containers the task knows to stand still: it has stopped or awaited them, or
found them not running. -/
def Proc.quiet (p : Proc) : List String :=
  match p.task with
  | .installStop _ running => if p.reply.isSome then [running.adapterId] else []
  | .monitorWait job => if p.reply.isSome then [job.adapterId] else []
  | .removeStop id _ => if p.reply.isSome then [id] else []
  | .removeRm id _ => [id]
  | .removeRmi id _ => [id]
  | .offloadRm adapter rest => (adapter :: rest).map AdapterEntry.adapterId
  | .offloadRmi adapter rest => (adapter :: rest).map AdapterEntry.adapterId
  | _ => []

theorem concerns_of_quiet {p : Proc} {id : String} (h : id ∈ p.quiet) : id ∈ p.task.concerns := by
  obtain ⟨t, r⟩ := p
  cases t <;> cases r <;> simp_all [Proc.quiet, Task.concerns]

/-! ### The side condition -/

/-- None of the tasks concerns the adapter. -/
def NoneConcerns (procs : List Proc) (id : String) : Prop := ∀ q ∈ procs, id ∉ q.task.concerns

instance (procs : List Proc) (id : String) : Decidable (NoneConcerns procs id) :=
  inferInstanceAs (Decidable (∀ q ∈ procs, id ∉ q.task.concerns))

/-- An entry is created only while no other task in flight concerns the adapter, and a removal is
requested only while no task is installing it. -/
def AdapterToItself {P : Podman} (w : World P) : Action P → Prop
  | .install job running => running = none → job.Valid → NoneConcerns w.procs job.adapterId
  | .remove id => ∀ q ∈ w.procs, q.task.progress ≠ some id
  | .resume i => ∀ p ∈ w.procs[i]?, ∀ job ∈ p.task.calling,
      NoneConcerns (w.procs.eraseIdx i) job.adapterId
  | _ => True

instance {P : Podman} (w : World P) : (a : Action P) → Decidable (AdapterToItself w a)
  | .install job running => inferInstanceAs (Decidable
      (running = none → job.Valid → NoneConcerns w.procs job.adapterId))
  | .remove id => inferInstanceAs (Decidable (∀ q ∈ w.procs, q.task.progress ≠ some id))
  | .resume i => inferInstanceAs (Decidable (∀ p ∈ w.procs[i]?, ∀ job ∈ p.task.calling,
      NoneConcerns (w.procs.eraseIdx i) job.adapterId))
  | .offload _ | .exec _ _ | .env _ | .tick _ => isTrue trivial

/-! ### The invariant -/

/-- The entry of an adapter under installation. -/
def Installing (sm : StateManager) (id : String) : Prop :=
  sm.stateAt id = some .downloading ∨ sm.stateAt id = some .installing

/-- A running container is accounted for: a task has just started it, or its entry is running and
it is monitored. -/
def Held (w : World Podman.store) (id : String) : Prop :=
  (∃ job, (⟨.installRun job, some (.ok ())⟩ : Proc) ∈ w.procs ∧ job.adapterId = id) ∨
    (w.sm.stateAt id = some .running ∧
      ∃ p ∈ w.procs, ∃ job, p.task = .monitorWait job ∧ job.adapterId = id)

/-- The containers and images of the world. -/
def World.store (w : World Podman.store) : PodmanStore := w.podman

/-- The container of an adapter is running. -/
def Up (w : World Podman.store) (id : String) : Prop := w.store.IsRunning id

instance (w : World Podman.store) (id : String) : Decidable (Up w id) :=
  inferInstanceAs (Decidable (w.store.IsRunning id))

/-- Tasks that install an adapter have it to themselves and find it under installation, what a task
knows to stand still does, and every running container is accounted for. -/
structure Tracked (w : World Podman.store) : Prop where
  apart : w.procs.Pairwise fun p q => Apart p.task q.task
  quiet : ∀ p ∈ w.procs, ∀ id ∈ p.quiet, ¬ Up w id
  installing : ∀ p ∈ w.procs, ∀ id, p.task.progress = some id → Installing w.sm id
  held : ∀ id, Up w id → Held w id

theorem tracked_init (clk : Clock) : Tracked (World.init Podman.store clk) := by
  refine ⟨List.Pairwise.nil, ?_, ?_, ?_⟩
  · intro p hp
    cases hp
  · intro p hp
    cases hp
  · intro id hid
    cases hid

/-! ### What a turn writes and starts -/

/-- A turn writes to adapters whose container it knows to stand still, to the one it is installing,
or to the one whose entry it creates. -/
theorem target_resume (t : Task) (r : Reply t.cmd) : ∀ x ∈ (t.resume r).writes,
    x.target ∈ (Proc.mk t (some r)).quiet ∨ t.progress = some x.target ∨
      ∃ job, t.calling = some job ∧ x.target = job.adapterId := by
  cases t with
  | installStop job running =>
      cases r <;> simp [Task.resume, installCreate, Write.target, Proc.quiet, Task.calling]
  | installPull job | installRun job =>
      cases r <;> simp [Task.resume, Write.target, Task.progress]
  | installInspect job =>
      cases r with
      | ok digest =>
          by_cases hd : digest = job.checksumSha256 <;>
            simp [Task.resume, hd, Write.target, Task.progress]
      | error e => simp [Task.resume, Write.target, Task.progress]
  | installRmi job => simp [Task.resume]
  | monitorWait job =>
      obtain ⟨st, msg, -, hturn⟩ := resume_monitorWait job r
      simp [hturn, Write.target, Proc.quiet]
  | removeStop id adapter | removeRm id adapter | removeRmi id adapter =>
      cases r <;> simp [Task.resume, removeFail, Write.target, Proc.quiet]
  | offloadRm adapter rest | offloadRmi adapter rest =>
      cases rest <;> cases r <;> simp [Task.resume, runOffloadCycle, Write.target, Proc.quiet]

/-- What a turn starts is about the same adapters, except that an install call that has dealt with
the running adapter goes on to its own. -/
theorem tasks_resume (t : Task) (r : Reply t.cmd) : ∀ t' ∈ (t.resume r).tasks,
    ((∀ id ∈ t'.concerns, id ∈ t.concerns) ∧ (∀ id, t'.progress = some id → t.progress = some id) ∧
      ∀ id ∈ (Proc.start t').quiet, id ∈ (Proc.mk t (some r)).quiet) ∨
    ∃ job, t.calling = some job ∧ t' = .installPull job := by
  cases t with
  | installStop job running => cases r <;> simp [Task.resume, installCreate, Task.calling]
  | installPull job | installRun job =>
      cases r <;> simp [Task.resume, Task.concerns, Task.progress, Proc.quiet]
  | installInspect job =>
      cases r with
      | ok digest =>
          by_cases hd : digest = job.checksumSha256 <;>
            simp [Task.resume, hd, Task.concerns, Task.progress, Proc.quiet]
      | error e => simp [Task.resume]
  | installRmi job => simp [Task.resume]
  | monitorWait job =>
      obtain ⟨st, msg, -, hturn⟩ := resume_monitorWait job r
      simp [hturn]
  | removeStop id adapter | removeRm id adapter | removeRmi id adapter =>
      cases r <;> simp [Task.resume, removeFail, Task.concerns, Task.progress, Proc.quiet]
  | offloadRm adapter rest | offloadRmi adapter rest =>
      cases rest <;> cases r <;>
        simp +contextual [Task.resume, runOffloadCycle, Task.concerns, Task.progress, Proc.quiet]

/-- A turn starts at most one task. -/
theorem length_tasks_resume (t : Task) (r : Reply t.cmd) : (t.resume r).tasks.length ≤ 1 := by
  cases t with
  | installStop job running => cases r <;> simp [Task.resume, installCreate]
  | installPull job | installRun job => cases r <;> simp [Task.resume]
  | installInspect job =>
      cases r with
      | ok digest => by_cases hd : digest = job.checksumSha256 <;> simp [Task.resume, hd]
      | error e => simp [Task.resume]
  | installRmi job => simp [Task.resume]
  | monitorWait job =>
      obtain ⟨st, msg, -, hturn⟩ := resume_monitorWait job r
      simp [hturn]
  | removeStop id adapter | removeRm id adapter | removeRmi id adapter =>
      cases r <;> simp [Task.resume, removeFail]
  | offloadRm adapter rest | offloadRmi adapter rest =>
      cases rest <;> cases r <;> simp [Task.resume, runOffloadCycle]

/-- An adapter stays under installation through the turns of the task that installs it. -/
theorem installing_resume (clk : Clock) (sm : StateManager) (t : Task) (r : Reply t.cmd) :
    ∀ t' ∈ (t.resume r).tasks, ∀ id, t'.progress = some id →
      (∀ id, t.progress = some id → Installing sm id) →
      Installing (applyAll clk sm (t.resume r).writes) id := by
  cases t with
  | installStop job running =>
      cases r <;> simp +contextual [Task.resume, installCreate, Task.progress, Installing, applyAll]
  | installPull job => cases r <;> simp [Task.resume, Task.progress]
  | installInspect job =>
      cases r with
      | ok digest =>
          by_cases hd : digest = job.checksumSha256
          · rw [resume_installInspect_of_eq hd]
            intro t' ht' id hid hinst
            rw [List.mem_singleton.1 ht'] at hid
            cases hid
            rcases hinst _ rfl with h | h
            · exact .inr (by simp [h])
            · exact .inr (by simp [h])
          · simp [resume_installInspect_of_ne hd, Task.progress]
      | error e => simp [Task.resume]
  | installRmi job => simp [Task.resume]
  | installRun job => cases r <;> simp [Task.resume, Task.progress]
  | monitorWait job =>
      obtain ⟨st, msg, -, hturn⟩ := resume_monitorWait job r
      simp [hturn]
  | removeStop id adapter | removeRm id adapter | removeRmi id adapter =>
      cases r <;> simp [Task.resume, removeFail, Task.progress]
  | offloadRm adapter rest | offloadRmi adapter rest =>
      cases rest <;> cases r <;> simp [Task.resume, runOffloadCycle, Task.progress]

/-! ### The steps -/

theorem stateAt_applyAll_of_ne (clk : Clock) (sm : StateManager) {ws : List Write} {id : String}
    (h : ∀ x ∈ ws, x.target ≠ id) : (applyAll clk sm ws).stateAt id = sm.stateAt id := by
  simp only [StateManager.stateAt]
  rw [getAdapter_applyAll_of_ne clk sm fun x hx => (h x hx).symm]

theorem Installing.applyAll {sm : StateManager} {id : String} (h : Installing sm id) (clk : Clock)
    {ws : List Write} (hws : ∀ x ∈ ws, x.target ≠ id) : Installing (applyAll clk sm ws) id := by
  rw [Installing, stateAt_applyAll_of_ne clk sm hws]
  exact h

/-- A task about to install an adapter that nothing else concerns. -/
theorem apart_installPull {t : Task} {job : InstallJob} (h : job.adapterId ∉ t.concerns) :
    Apart t (.installPull job) := by
  intro id
  constructor
  · intro hprog hmem
    rw [List.mem_singleton.1 hmem] at hprog
    exact h (concerns_of_progress hprog)
  · intro hprog
    cases hprog
    exact h

/-- A task that is about fewer adapters is apart from what the other was apart from. -/
theorem Apart.mono {t t' q : Task} (h : Apart t q) (hcon : ∀ id ∈ t'.concerns, id ∈ t.concerns)
    (hprog : ∀ id, t'.progress = some id → t.progress = some id) : Apart q t' := by
  intro id
  exact ⟨fun hq hmem => (h id).2 hq (hcon id hmem), fun ht' => (h id).1 (hprog id ht')⟩

/-- The others have nothing to do with what a resumed task writes to, unless they merely wait for a
container that the task knows to stand still. -/
theorem target_not_concerned {t : Task} {r : Reply t.cmd} {q : Proc} (hapart : Apart t q.task)
    (hguard : ∀ job ∈ t.calling, job.adapterId ∉ q.task.concerns) :
    ∀ x ∈ (t.resume r).writes, x.target ∈ q.task.concerns →
      x.target ∈ (Proc.mk t (some r)).quiet ∧ q.task.progress ≠ some x.target := by
  intro x hx hmem
  rcases target_resume t r x hx with hquiet | hprog | ⟨job, hcall, heq⟩
  · exact ⟨hquiet, fun hq => (hapart x.target).2 hq (concerns_of_quiet hquiet)⟩
  · exact absurd hmem ((hapart x.target).1 hprog)
  · exact absurd (heq ▸ hmem) (hguard job hcall)

theorem Tracked.resume {w : World Podman.store} {i : ℕ} {t : Task} {r : Reply t.cmd}
    (h : Tracked w) (hp : w.procs[i]? = some ⟨t, some r⟩)
    (hguard : ∀ job ∈ t.calling, NoneConcerns (w.procs.eraseIdx i) job.adapterId) :
    Tracked (w.settle (w.procs.eraseIdx i) (t.resume r)) := by
  have hmem : (⟨t, some r⟩ : Proc) ∈ w.procs := List.mem_of_getElem? hp
  have hothers : ∀ q ∈ w.procs.eraseIdx i, q ∈ w.procs := fun q hq => Pool.mem_of_mem_eraseIdx hq
  have hapart : ∀ q ∈ w.procs.eraseIdx i, Apart t q.task :=
    Pool.pairwise_others (fun h => h.symm) h.apart hp
  have htarget : ∀ q ∈ w.procs.eraseIdx i, ∀ x ∈ (t.resume r).writes,
      x.target ∈ q.task.concerns →
        x.target ∈ (Proc.mk t (some r)).quiet ∧ q.task.progress ≠ some x.target := fun q hq =>
    target_not_concerned (hapart q hq) fun job hjob => hguard job hjob q hq
  refine ⟨?_, ?_, ?_, ?_⟩
  -- the four fields of `Tracked`, in order
  · refine Pool.pairwise_move h.apart i ?_ ?_
    · exact Pool.pairwise_of_length_le_one (by simpa using length_tasks_resume t r)
    · intro q hq p hp'
      obtain ⟨t', ht', rfl⟩ := List.mem_map.1 hp'
      rcases tasks_resume t r t' ht' with ⟨hcon, hprog, -⟩ | ⟨job, hcall, rfl⟩
      · exact (hapart q hq).mono hcon hprog
      · exact apart_installPull (hguard job hcall q hq)
  · intro q hq id hid
    rcases List.mem_append.1 hq with hq | hq
    · exact h.quiet q (hothers q hq) id hid
    · obtain ⟨t', ht', rfl⟩ := List.mem_map.1 hq
      rcases tasks_resume t r t' ht' with ⟨-, -, hquiet⟩ | ⟨job, -, rfl⟩
      · exact h.quiet _ hmem id (hquiet id hid)
      · cases hid
  · intro q hq id hid
    rcases List.mem_append.1 hq with hq | hq
    · -- an install that stays blocked is of an adapter the turn does not write to
      have hne : ∀ x ∈ (t.resume r).writes, x.target ≠ id := by
        intro x hx heq
        have hcon : x.target ∈ q.task.concerns := by
          rw [heq]
          exact concerns_of_progress hid
        exact (htarget q hq x hx hcon).2 (by rw [heq, hid])
      exact (h.installing q (hothers q hq) id hid).applyAll w.clk hne
    · obtain ⟨t', ht', rfl⟩ := List.mem_map.1 hq
      exact installing_resume w.clk w.sm t r t' ht' id hid fun id' hid' =>
        h.installing _ hmem id' hid'
  · intro id hup
    rcases h.held id hup with ⟨job, hrun, hjob⟩ | ⟨hst, m, hm, job, hmt, hjob⟩
    · rcases Pool.eq_or_mem_eraseIdx hp hrun with heq | hrun
      · -- the task that started the container looks at it now
        obtain ⟨rfl, hr⟩ := Proc.mk.inj heq
        obtain rfl := Option.some.inj (eq_of_heq hr)
        refine .inr ⟨?_, Proc.start (.monitorWait job), by simp [Task.resume], job, rfl, hjob⟩
        rcases h.installing _ hmem id (congrArg some hjob) with hst | hst
        · simp [Task.resume, hjob, hst]
        · simp [Task.resume, hjob, hst]
      · exact .inl ⟨job, List.mem_append_left _ hrun, hjob⟩
    · have hcon : id ∈ m.task.concerns := by
        rw [hmt, Task.concerns, hjob]
        exact List.mem_singleton_self id
      rcases Pool.eq_or_mem_eraseIdx hp hm with heq | hm
      · -- a monitor that has been answered knows its container to stand still
        subst heq
        cases hmt
        refine absurd hup (h.quiet _ hmem id ?_)
        rw [← hjob]
        exact List.mem_singleton_self _
      · -- a write to a monitored adapter would come from a task that knows it to stand still
        refine .inr ⟨?_, m, List.mem_append_left _ hm, job, hmt, hjob⟩
        rw [World.settle_sm, stateAt_applyAll_of_ne, hst]
        intro x hx heq
        exact h.quiet _ hmem id (heq ▸ (htarget m hm x hx (heq ▸ hcon)).1) hup

/-- The container of an adapter that no task is installing and that is not `running` stands
still. -/
theorem Tracked.not_up {w : World Podman.store} (h : Tracked w) {id : String}
    (hprog : ∀ q ∈ w.procs, q.task.progress ≠ some id) (hst : w.sm.stateAt id ≠ some .running) :
    ¬ Up w id := by
  intro hup
  rcases h.held id hup with ⟨job, hrun, hjob⟩ | ⟨hrun, -⟩
  · exact hprog _ hrun (congrArg some hjob)
  · exact hst hrun

/-- No task is installing an adapter that is in another state. -/
theorem Tracked.not_progress {w : World Podman.store} (h : Tracked w) {id : String}
    (hst : ¬ Installing w.sm id) : ∀ q ∈ w.procs, q.task.progress ≠ some id :=
  fun q hq hprog => hst (h.installing q hq id hprog)

/-- A call or a timer starts a task, writing only to adapters whose container stands still. -/
theorem Tracked.start {w : World Podman.store} {turn : Turn} (h : Tracked w)
    (hwrites : ∀ x ∈ turn.writes, ¬ Up w x.target ∧ ∀ q ∈ w.procs, q.task.progress ≠ some x.target)
    (hlen : turn.tasks.length ≤ 1)
    (hapart : ∀ t ∈ turn.tasks, ∀ q ∈ w.procs, Apart q.task t)
    (hquiet : ∀ t ∈ turn.tasks, ∀ id ∈ (Proc.start t).quiet, ¬ Up w id)
    (hinst : ∀ t ∈ turn.tasks, ∀ id, t.progress = some id →
      Installing (applyAll w.clk w.sm turn.writes) id) :
    Tracked (w.settle w.procs turn) := by
  refine ⟨?_, ?_, ?_, ?_⟩
  · refine List.pairwise_append.2 ⟨h.apart, ?_, ?_⟩
    · exact Pool.pairwise_of_length_le_one (by simpa using hlen)
    · intro q hq p hp
      obtain ⟨t, ht, rfl⟩ := List.mem_map.1 hp
      exact hapart t ht q hq
  · intro q hq id hid
    rcases List.mem_append.1 hq with hq | hq
    · exact h.quiet q hq id hid
    · obtain ⟨t, ht, rfl⟩ := List.mem_map.1 hq
      exact hquiet t ht id hid
  · intro q hq id hid
    rcases List.mem_append.1 hq with hq | hq
    · refine (h.installing q hq id hid).applyAll w.clk fun x hx heq => ?_
      exact (hwrites x hx).2 q hq (by rw [heq, hid])
    · obtain ⟨t, ht, rfl⟩ := List.mem_map.1 hq
      exact hinst t ht id hid
  · intro id hup
    rcases h.held id hup with ⟨job, hrun, hjob⟩ | ⟨hst, m, hm, hjob⟩
    · exact .inl ⟨job, List.mem_append_left _ hrun, hjob⟩
    · refine .inr ⟨?_, m, List.mem_append_left _ hm, hjob⟩
      rw [World.settle_sm, stateAt_applyAll_of_ne, hst]
      intro x hx heq
      exact (hwrites x hx).1 (heq ▸ hup)

/-- A call that is answered at once. -/
theorem Tracked.start_nothing {w : World Podman.store} {turn : Turn} (h : Tracked w)
    (hwrites : turn.writes = []) (htasks : turn.tasks = []) : Tracked (w.settle w.procs turn) :=
  h.start (by simp [hwrites]) (by simp [htasks]) (by simp [htasks]) (by simp [htasks])
    (by simp [htasks])

theorem Tracked.install {w : World Podman.store} {job : InstallJob}
    {running : Option AdapterEntry} (h : Tracked w) (hrun : w.sm.IsRunningAdapter running)
    (hguard : AdapterToItself w (.install job running)) :
    Tracked ((w.issue job).settle w.procs (installAdapter job running)) := by
  have hissue : Tracked (w.issue job) := ⟨h.apart, h.quiet, h.installing, h.held⟩
  by_cases hvalid : job.Valid
  · cases running with
    | none =>
        rw [installAdapter_none hvalid]
        have hnone : NoneConcerns w.procs job.adapterId := hguard rfl hvalid
        have hprog : ∀ q ∈ w.procs, q.task.progress ≠ some job.adapterId :=
          fun q hq hprog => hnone q hq (concerns_of_progress hprog)
        -- a container that runs is being installed or monitored, and nothing concerns this one
        have hup : ¬ Up w job.adapterId := by
          intro hup
          rcases h.held _ hup with ⟨j, hj, heq⟩ | ⟨-, m, hm, j, hmt, heq⟩
          · exact hprog _ hj (congrArg some heq)
          · refine hnone m hm ?_
            rw [hmt, Task.concerns, heq]
            exact List.mem_singleton_self _
        refine hissue.start ?_ (by simp [installCreate]) ?_ ?_ ?_
        · intro x hx
          have htarget : x.target = job.adapterId := by
            rcases List.mem_pair.1 hx with rfl | rfl
            · rfl
            · rfl
          rw [htarget]
          exact ⟨hup, hprog⟩
        · intro t ht q hq
          rw [List.mem_singleton.1 ht]
          exact apart_installPull (hnone q hq)
        · intro t ht id hid
          rw [List.mem_singleton.1 ht] at hid
          cases hid
        · intro t ht id hid
          rw [List.mem_singleton.1 ht] at hid
          cases hid
          exact .inl (by simp [installCreate])
    | some e =>
        rw [installAdapter_some hvalid]
        -- only the stop of the adapter found running is started; the entry comes later
        have hst := StateManager.stateAt_of_mem_runningAdapters hrun
        have hprog : ∀ q ∈ w.procs, q.task.progress ≠ some e.adapterId :=
          h.not_progress (by simp [Installing, hst])
        refine hissue.start (by simp) (by simp) ?_ ?_ ?_
        · intro t ht q hq id
          rw [List.mem_singleton.1 ht]
          refine ⟨fun hid hmem => hprog q hq ?_, fun hid => by cases hid⟩
          rw [← List.mem_singleton.1 hmem, hid]
        · intro t ht id hid
          rw [List.mem_singleton.1 ht] at hid
          cases hid
        · intro t ht id hid
          rw [List.mem_singleton.1 ht] at hid
          cases hid
  · have hturn := installAdapter_of_not_valid running hvalid
    exact hissue.start_nothing hturn.1 hturn.2.1

theorem Tracked.remove {w : World Podman.store} {id : String} (h : Tracked w)
    (hguard : ∀ q ∈ w.procs, q.task.progress ≠ some id) :
    Tracked (w.settle w.procs (removeAdapter id (w.sm.getAdapter id))) := by
  have hapart : ∀ t : Task, t.progress = none → t.concerns = [id] →
      ∀ q ∈ w.procs, Apart q.task t := by
    intro t hprog hcon q hq id'
    refine ⟨fun hid hmem => hguard q hq ?_, fun hid => ?_⟩
    · rw [hcon] at hmem
      rw [← List.mem_singleton.1 hmem, hid]
    · rw [hprog] at hid
      cases hid
  cases he : w.sm.getAdapter id with
  | none => exact h.start_nothing rfl rfl
  | some e =>
      by_cases hrun : e.state = .running
      · rw [removeAdapter, if_pos hrun]
        refine h.start (by simp) (by simp) ?_ ?_ ?_
        · intro t ht
          rw [List.mem_singleton.1 ht]
          exact hapart _ rfl rfl
        · simp [Proc.quiet]
        · simp [Task.progress]
      · -- the code skips `podman stop` here: it takes the entry's word for it
        have hup : ¬ Up w id := h.not_up hguard (by simp [StateManager.stateAt, he, hrun])
        rw [removeAdapter, if_neg hrun]
        refine h.start (by simp) (by simp) ?_ ?_ ?_
        · intro t ht
          rw [List.mem_singleton.1 ht]
          exact hapart _ rfl rfl
        · intro t ht id' hid
          rw [List.mem_singleton.1 ht] at hid
          rw [List.mem_singleton.1 hid]
          exact hup
        · simp [Task.progress]

theorem Tracked.offload {w : World Podman.store} {timeout : ℕ} {candidates : List AdapterEntry}
    (h : Tracked w) (hperm : candidates.Perm (w.sm.getOffloadCandidates w.clk timeout)) :
    Tracked (w.settle w.procs (runOffloadCycle [] candidates)) := by
  -- the candidates are stopped, so nothing installs them and their containers stand still
  have hst : ∀ c ∈ candidates, w.sm.stateAt c.adapterId = some .stopped := by
    intro c hc
    obtain ⟨hget, hst, -⟩ := StateManager.mem_getOffloadCandidates.1 (hperm.mem_iff.1 hc)
    rw [StateManager.stateAt_of_getAdapter hget, hst]
  have hprog : ∀ c ∈ candidates, ∀ q ∈ w.procs, q.task.progress ≠ some c.adapterId :=
    fun c hc => h.not_progress (by simp [Installing, hst c hc])
  have hup : ∀ c ∈ candidates, ¬ Up w c.adapterId :=
    fun c hc => h.not_up (hprog c hc) (by simp [hst c hc])
  cases candidates with
  | nil => exact h.start_nothing rfl rfl
  | cons c rest =>
      refine h.start ?_ (by simp [runOffloadCycle]) ?_ ?_ ?_
      · intro x hx
        rw [List.mem_singleton.1 hx]
        exact ⟨hup c List.mem_cons_self, hprog c List.mem_cons_self⟩
      · intro t ht q hq id
        rw [List.mem_singleton.1 ht]
        refine ⟨fun hid hmem => ?_, fun hid => by cases hid⟩
        obtain ⟨d, hd, rfl⟩ := List.mem_map.1 hmem
        exact hprog d hd q hq hid
      · intro t ht id hid
        rw [List.mem_singleton.1 ht] at hid
        obtain ⟨d, hd, rfl⟩ := List.mem_map.1 hid
        exact hup d hd
      · simp [runOffloadCycle, Task.progress]

/-- A task that has its answer knows more containers to stand still only if it has just stopped or
awaited them. -/
theorem quiet_answered {t : Task} {r : Reply t.cmd} {id : String}
    (h : id ∈ (Proc.mk t (some r)).quiet) :
    id ∈ (Proc.start t).quiet ∨ t.cmd = .stop id ∨ t.cmd = .wait id := by
  cases t <;> simp_all [Proc.quiet, Task.cmd, Proc.start]

theorem installRun_of_cmd {t : Task} {name ref : String} (h : t.cmd = .run name ref) :
    ∃ job, t = .installRun job ∧ job.adapterId = name := by
  cases t <;> simp_all [Task.cmd]

theorem Tracked.exec {w : World Podman.store} {i : ℕ} {t : Task} {r : Reply t.cmd}
    {s : PodmanStore} (h : Tracked w) (hp : w.procs[i]? = some ⟨t, none⟩)
    (hs : Podman.store.exec t.cmd r w.podman = some s) :
    Tracked { w with procs := w.procs.set i ⟨t, some r⟩, podman := s } := by
  have hmem : (⟨t, none⟩ : Proc) ∈ w.procs := List.mem_of_getElem? hp
  obtain ⟨⟨out, rfl⟩, hexec⟩ := exec_store hs
  have hup : ∀ id, s.IsRunning id → Up w id ∨ ∃ job, t = .installRun job ∧ job.adapterId = id := by
    intro id hrun
    rcases PodmanStore.isRunning_exec hexec hrun with hrun | ⟨ref, hcmd⟩
    · exact .inl hrun
    · exact .inr (installRun_of_cmd hcmd)
  refine ⟨?_, ?_, ?_, ?_⟩
  · exact Pool.pairwise_set (a := ⟨t, none⟩) h.apart ⟨t, some (.ok out)⟩ (fun _ hq => hq)
      (fun _ hq => hq) hp
  · intro q hq id hid hrun
    rcases Pool.eq_or_mem_of_mem_set hq with rfl | hq'
    · -- the answered task: what it knew before, what it stopped and what it awaited
      rcases quiet_answered hid with hid' | hcmd | hcmd
      · rcases hup id hrun with hrun | ⟨job, rfl, -⟩
        · exact h.quiet _ hmem id hid' hrun
        · cases hid'
      · rw [hcmd] at hexec
        exact PodmanStore.not_isRunning_of_stop hexec hrun
      · rw [hcmd] at hexec
        exact PodmanStore.not_isRunning_of_wait hexec hrun
    · rcases hup id hrun with hrun | ⟨job, rfl, hjob⟩
      · exact h.quiet q hq' id hid hrun
      · -- the container just started is of an adapter that its task has to itself
        rcases Pool.eq_or_mem_eraseIdx hp hq' with rfl | hother
        · cases hid
        · have hapart := Pool.pairwise_others (fun h => h.symm) h.apart hp q hother
          exact (hapart id).1 (congrArg some hjob) (concerns_of_quiet hid)
  · intro q hq id hid
    rcases Pool.eq_or_mem_of_mem_set hq with rfl | hq
    · exact h.installing _ hmem id hid
    · exact h.installing q hq id hid
  · intro id hrun
    rcases hup id hrun with hrun | ⟨job, rfl, hjob⟩
    · rcases h.held id hrun with ⟨job, hj, hjob⟩ | ⟨hst, m, hm, job, hmt, hjob⟩
      · rcases Pool.eq_or_mem_set hp hj ⟨t, some (.ok out)⟩ with heq | hj
        · obtain ⟨rfl, hr⟩ := Proc.mk.inj heq
          cases hr
        · exact .inl ⟨job, hj, hjob⟩
      · rcases Pool.eq_or_mem_set hp hm ⟨t, some (.ok out)⟩ with rfl | hm
        · exact .inr ⟨hst, _, Pool.mem_set_self hp _, job, hmt, hjob⟩
        · exact .inr ⟨hst, m, hm, job, hmt, hjob⟩
    · exact .inl ⟨job, Pool.mem_set_self hp _, hjob⟩

/-- Every step that meets the side condition keeps the invariant. -/
theorem Tracked.step {timeout : ℕ} {w w' : World Podman.store} {a : Action Podman.store}
    (h : Tracked w) (hguard : AdapterToItself w a) (hstep : w.step timeout a = some w') :
    Tracked w' := by
  cases step_eq_some_iff.1 hstep with
  | install job running hrun => exact h.install hrun hguard
  | remove id => exact h.remove hguard
  | offload candidates _ hperm => exact h.offload hperm
  | exec i answer t r s hp _ hs => exact h.exec hp hs
  | resume i t r hp => exact h.resume hp (hguard _ hp)
  | env name s hs =>
      obtain ⟨-, hs⟩ := Option.ite_none_right_eq_some.1 hs
      cases hs
      refine ⟨h.apart, ?_, h.installing, ?_⟩
      · intro p hp id hid hrun
        exact h.quiet p hp id hid (PodmanStore.isRunning_halt hrun)
      · intro id hrun
        exact h.held id (PodmanStore.isRunning_halt hrun)
  | tick clk _ => exact ⟨h.apart, h.quiet, h.installing, h.held⟩

/-! ### The two stores agree -/

/-- No call, background install task or offload cycle is in flight. -/
def Quiescent {P : Podman} (w : World P) : Prop := ∀ p ∈ w.procs, ∃ job, p.task = .monitorWait job

/-- **Every running container has a running entry** whenever nothing but monitors is in flight, in
every run of succeeding commands in which an entry is created only while no other task in flight
concerns the adapter and a removal is requested only while no task is installing it. -/
theorem running_entry_of_adapterToItself {timeout : ℕ} {clk : Clock} {w : World Podman.store}
    (h : Lts.Reach (Lts.restrict (World.step timeout) AdapterToItself)
      (World.init Podman.store clk) w) (hquiescent : Quiescent w) :
    ∀ name, Up w name →
      ∃ e, w.sm.getAdapter name = some e ∧ e.state = .running := by
  have hinv : Tracked w := by
    refine h.invariant (tracked_init clk) fun s a s' hs hstep => ?_
    obtain ⟨hguard, hstep⟩ := Lts.restrict_eq_some_iff.1 hstep
    exact hs.step hguard hstep
  intro name hrun
  rcases hinv.held name hrun with ⟨job, hj, -⟩ | ⟨hst, -⟩
  · obtain ⟨job', htask⟩ := hquiescent _ hj
    cases htask
  · exact Option.map_eq_some_iff.1 hst

instance {P : Podman} (w : World P) : Decidable (Quiescent w) :=
  decidable_of_iff (∀ p ∈ w.procs, (match p.task with | .monitorWait _ => true | _ => false) = true)
    (forall₂_congr fun p _ => by cases p.task <;> simp)

/-- The adapter is installed, and nothing else happens. -/
def installed : List (Action Podman.store) := [.install jobA none] ++ bringUp jobA 0 0

theorem running_entry_of_installed :
    ∃ w, Lts.run (Lts.restrict (World.step 0) AdapterToItself)
        (World.init Podman.store ⟨0, 0⟩) installed = some w ∧
      Up w "a-1" ∧
      ∃ e, w.sm.getAdapter "a-1" = some e ∧ e.state = .running := by
  have hrun : (Lts.run (Lts.restrict (World.step 0) AdapterToItself)
      (World.init Podman.store ⟨0, 0⟩) installed).map (fun w =>
        decide (Quiescent w ∧ Up w "a-1")) = some true := by decide
  obtain ⟨w, hw, hdec⟩ := Option.map_eq_some_iff.1 hrun
  obtain ⟨hquiescent, hup⟩ := of_decide_eq_true hdec
  exact ⟨w, hw, hup,
    running_entry_of_adapterToItself (Lts.reach_of_run hw) hquiescent "a-1" hup⟩

/-- The adapter of `jobA` from another registry. -/
def jobMirror : InstallJob := ⟨"job-mirror", "mirror/a:1", "sum-a"⟩

/-- A removal has stopped and deleted the container and waits for its image to be deleted; the
adapter is installed again from another registry; then the removal goes on. -/
def removalOverlapsInstall : List (Action Podman.store) :=
  installed ++
    [.remove "a-1", .exec 1 .done, .exec 0 (.exited 0), .resume 0, .resume 0, .exec 0 .done,
      .resume 0, .install jobMirror none] ++
    bringUp jobMirror 1 1 ++ [.exec 0 .done, .resume 0]

/-- **A removal that overlaps an install leaves a running container without an entry.** -/
theorem removal_loses_container :
    ¬ ∀ (timeout : ℕ) (clk : Clock) (w : World Podman.store),
      Lts.Reach (World.step timeout) (World.init Podman.store clk) w → Quiescent w →
        ∀ name, Up w name →
          ∃ e, w.sm.getAdapter name = some e ∧ e.state = .running := by
  intro hall
  have hrun : (Lts.run (World.step 0) (World.init Podman.store ⟨0, 0⟩)
      removalOverlapsInstall).map (fun w =>
        decide (Quiescent w ∧ Up w "a-1" ∧
          w.sm.getAdapter "a-1" = none)) = some true := by decide
  obtain ⟨w, hw, hdec⟩ := Option.map_eq_some_iff.1 hrun
  obtain ⟨hquiescent, hup, hnone⟩ := of_decide_eq_true hdec
  obtain ⟨e, he, -⟩ := hall 0 ⟨0, 0⟩ w (Lts.reach_of_run hw) hquiescent "a-1" hup
  rw [hnone] at he
  cases he

end UpdateService
