/-
**Jobs and the entries they write to.**

The background task of an install job and the monitor of its container address the adapter by its
id; the job id that the entry carries is never looked at.  An install call for an adapter that is
already known overwrites its entry, and what is still in flight of the earlier job then writes to
the entry of the later one.

What holds of every run is that such a transition is applied, if at all, to the entry that the most
recent install call for the adapter id created, and to no other adapter.  It is the job's own entry
exactly as long as the job is that most recent one.

Main definitions:

* `UpdateService.latest` — the most recent job for an adapter id;
* `UpdateService.FreshJobIds` — the job ids drawn are different;
* `UpdateService.Recorded` — the invariant.

Main results:

* `UpdateService.earlier_job_fails_later_entry` — an earlier job writes to a later job's entry;
* `UpdateService.resume_writes_latest` — the entry a transition is applied to.
-/

import ParkingFeeService.UpdateSingleRunning

set_option relaxedAutoImplicit false
set_option autoImplicit false

namespace UpdateService

variable {P : Podman}

/-! ### Jobs -/

/-- The most recent job for an adapter id among the jobs whose entry was created. -/
def latest (created : List InstallJob) (id : String) : Option InstallJob :=
  created.reverse.find? fun job => job.adapterId = id

@[simp] theorem latest_nil (id : String) : latest [] id = none := rfl

theorem latest_append_singleton (created : List InstallJob) (job : InstallJob) (id : String) :
    latest (created ++ [job]) id = if job.adapterId = id then some job else latest created id := by
  simp only [latest]
  rw [List.reverse_append, List.reverse_singleton, List.singleton_append, List.find?_cons]
  split <;> simp_all

theorem mem_of_latest {created : List InstallJob} {id : String} {job : InstallJob}
    (h : latest created id = some job) : job ∈ created ∧ job.adapterId = id := by
  refine ⟨List.mem_reverse.1 (List.mem_of_find?_eq_some h), ?_⟩
  simpa using List.find?_some h

/-- Every entry is the one that the most recent job for its id created. -/
def EntriesOf (created : List InstallJob) (sm : StateManager) : Prop :=
  ∀ id e, sm.getAdapter id = some e → ∃ job, latest created id = some job ∧ e.jobId = job.jobId

theorem EntriesOf.transition {created : List InstallJob} {sm : StateManager}
    (h : EntriesOf created sm) (clk : Clock) (id : String) (st : AdapterState)
    (msg : Option String) : EntriesOf created ((Write.transition id st msg).apply clk sm) := by
  intro id' e he
  rw [Write.apply, StateManager.getAdapter_keepTransition] at he
  split at he
  · next hid =>
      obtain ⟨e₀, he₀, rfl⟩ := Option.map_eq_some_iff.1 he
      rw [hid]
      exact h id e₀ he₀
  · exact h id' e he

theorem EntriesOf.remove {created : List InstallJob} {sm : StateManager}
    (h : EntriesOf created sm) (clk : Clock) (id : String) :
    EntriesOf created ((Write.remove id).apply clk sm) := by
  intro id' e he
  rw [Write.apply, StateManager.getAdapter_keepRemove] at he
  split at he
  · cases he
  · exact h id' e he

theorem EntriesOf.create {created : List InstallJob} {sm : StateManager}
    (h : EntriesOf created sm) (clk : Clock) (job : InstallJob) :
    EntriesOf (created ++ [job]) ((Write.create job.entry).apply clk sm) := by
  intro id e he
  rw [Write.apply, StateManager.getAdapter_createAdapter] at he
  rw [latest_append_singleton]
  split at he
  · next hid =>
      cases he
      exact ⟨job, if_pos hid.symm, rfl⟩
  · next hid =>
      rw [if_neg fun heq => hid heq.symm]
      exact h id e he

/-- The write creates no entry. -/
def Write.keeps : Write → Bool
  | .create _ => false
  | _ => true

theorem EntriesOf.applyAll {created : List InstallJob} (clk : Clock) {ws : List Write} :
    ∀ {sm : StateManager}, EntriesOf created sm → (∀ w ∈ ws, w.keeps = true) →
      EntriesOf created (applyAll clk sm ws) := by
  induction ws with
  | nil => intro sm h _; exact h
  | cons w ws ih =>
      intro sm h hws
      refine ih ?_ fun w' hw' => hws w' (List.mem_cons_of_mem _ hw')
      cases w with
      | create entry => cases hws _ List.mem_cons_self
      | transition id st msg => exact h.transition clk id st msg
      | remove id => exact h.remove clk id

/-! ### The invariant -/

/-- The job ids drawn are different from each other, as those of version 4 UUIDs are. -/
def FreshJobIds (w : World P) : Action P → Prop
  | .install job _ => job.jobId ∉ w.issued
  | _ => True

instance (w : World P) : (a : Action P) → Decidable (FreshJobIds w a)
  | .install job _ => inferInstanceAs (Decidable (job.jobId ∉ w.issued))
  | .remove _ | .offload _ | .exec _ _ | .resume _ | .env _ | .tick _ => isTrue trivial

/-- The job has created its entry or is about to. -/
def Known (w : World P) (job : InstallJob) : Prop :=
  job ∈ w.created ∨ ∃ p ∈ w.procs, p.task.calling = some job

/-- Job ids identify jobs, a background task or monitor is of a job that created its entry, and
every entry is the one its most recent job created. -/
structure Recorded (w : World P) : Prop where
  issued : ∀ job, Known w job → job.jobId ∈ w.issued
  inj : ∀ job job', Known w job → Known w job' → job.jobId = job'.jobId → job = job'
  tasks : ∀ p ∈ w.procs, ∀ job, p.task.installJob = some job → job ∈ w.created
  entries : EntriesOf w.created w.sm

theorem recorded_init (clk : Clock) : Recorded (World.init P clk) := by
  have hknown : ∀ job, ¬ Known (World.init P clk) job := by
    rintro job (hmem | ⟨p, hp, -⟩)
    · cases hmem
    · cases hp
  refine ⟨fun job h => absurd h (hknown job), fun job _ h => absurd h (hknown job), ?_, ?_⟩
  · intro p hp
    cases hp
  · intro id e he
    simp [World.init] at he

/-- A turn that creates no entry and starts no install call. -/
theorem Recorded.settle {w : World P} {others : List Proc} {turn : Turn} (h : Recorded w)
    (hothers : ∀ q ∈ others, q ∈ w.procs) (hws : ∀ x ∈ turn.writes, x.keeps = true)
    (hcreated : turn.created = none)
    (hnew : ∀ t ∈ turn.tasks, t.calling = none ∧
      ∀ job, t.installJob = some job → job ∈ w.created) :
    Recorded (w.settle others turn) := by
  have hcr : (w.settle others turn).created = w.created := by simp [hcreated]
  have hknown : ∀ job, Known (w.settle others turn) job → Known w job := by
    rintro job (hmem | ⟨p, hp, hcall⟩)
    · rw [hcr] at hmem
      exact .inl hmem
    · rcases List.mem_append.1 hp with hp | hp
      · exact .inr ⟨p, hothers p hp, hcall⟩
      · obtain ⟨t, ht, rfl⟩ := List.mem_map.1 hp
        rw [Proc.start_task, (hnew t ht).1] at hcall
        cases hcall
  refine ⟨fun job hk => h.issued job (hknown job hk),
    fun job job' hk hk' => h.inj job job' (hknown job hk) (hknown job' hk'), ?_, ?_⟩
  · intro p hp job hjob
    rw [hcr]
    rcases List.mem_append.1 hp with hp | hp
    · exact h.tasks p (hothers p hp) job hjob
    · obtain ⟨t, ht, rfl⟩ := List.mem_map.1 hp
      exact (hnew t ht).2 job hjob
  · rw [hcr]
    exact h.entries.applyAll w.clk hws

/-- Job ids still identify jobs when one job becomes known whose id no other job has. -/
theorem Recorded.inj_insert {w w' : World P} {job : InstallJob} (h : Recorded w)
    (hknown : ∀ j, Known w' j → Known w j ∨ j = job)
    (hjob : ∀ j, Known w j → j.jobId = job.jobId → j = job) :
    ∀ j j', Known w' j → Known w' j' → j.jobId = j'.jobId → j = j' := by
  intro j j' hk hk' heq
  rcases hknown j hk with hold | hold <;> rcases hknown j' hk' with hold' | hold'
  · exact h.inj j j' hold hold' heq
  · rw [hold'] at heq ⊢
    exact hjob j hold heq
  · rw [hold] at heq ⊢
    exact (hjob j' hold' heq.symm).symm
  · rw [hold, hold']

/-- The ids of the known jobs were given to calls when one job with such an id becomes known. -/
theorem Recorded.issued_insert {w w' : World P} {job : InstallJob} (h : Recorded w)
    (hknown : ∀ j, Known w' j → Known w j ∨ j = job) (hissued : job.jobId ∈ w.issued) :
    ∀ j, Known w' j → j.jobId ∈ w.issued := by
  intro j hk
  rcases hknown j hk with hold | rfl
  · exact h.issued j hold
  · exact hissued

/-- A known job creates its entry and its background task begins. -/
theorem Recorded.settle_create {w : World P} {others : List Proc} {before : List Write}
    {job : InstallJob} (h : Recorded w) (hothers : ∀ q ∈ others, q ∈ w.procs)
    (hissued : job.jobId ∈ w.issued)
    (hjob : ∀ job', Known w job' → job'.jobId = job.jobId → job' = job)
    (hws : ∀ x ∈ before, x.keeps = true) :
    Recorded (w.settle others (installCreate before job)) := by
  have hknown : ∀ job', Known (w.settle others (installCreate before job)) job' →
      Known w job' ∨ job' = job := by
    rintro job' (hmem | ⟨p, hp, hcall⟩)
    · rcases List.mem_append.1 hmem with hmem | hmem
      · exact .inl (.inl hmem)
      · exact .inr (List.mem_singleton.1 hmem)
    · rcases List.mem_append.1 hp with hp | hp
      · exact .inl (.inr ⟨p, hothers p hp, hcall⟩)
      · rw [List.mem_singleton.1 hp] at hcall
        cases hcall
  refine ⟨h.issued_insert hknown hissued, h.inj_insert hknown hjob, ?_, ?_⟩
  · intro p hp job' hjob'
    rcases List.mem_append.1 hp with hp | hp
    · exact List.mem_append_left _ (h.tasks p (hothers p hp) job' hjob')
    · rw [List.mem_singleton.1 hp] at hjob'
      cases hjob'
      exact List.mem_append_right _ List.mem_cons_self
  · -- the entries before, then the new one, then its first transition
    have hbefore := h.entries.applyAll w.clk hws
    have hafter := (hbefore.create w.clk job).transition w.clk job.adapterId .downloading none
    simpa [installCreate, UpdateService.applyAll, List.foldl_append] using hafter

/-! ### The steps -/

theorem Recorded.settle_runOffloadCycle {w : World P} {others : List Proc} {before : List Write}
    (h : Recorded w) (hothers : ∀ q ∈ others, q ∈ w.procs)
    (hb : ∀ x ∈ before, x.keeps = true) (rest : List AdapterEntry) :
    Recorded (w.settle others (runOffloadCycle before rest)) := by
  refine h.settle hothers (forall_writes_runOffloadCycle hb (fun _ => rfl) rest) ?_ ?_
  · cases rest <;> rfl
  · cases rest <;> simp [runOffloadCycle, Task.calling, Task.installJob]

/-- A turn of a background task or a monitor creates no entry, and what it starts is of the same
job. -/
theorem resume_installJob {t : Task} {job : InstallJob} (hjob : t.installJob = some job)
    (r : Reply t.cmd) : (∀ x ∈ (t.resume r).writes, x.keeps = true ∧ x.target = job.adapterId) ∧
      (t.resume r).created = none ∧
      ∀ t' ∈ (t.resume r).tasks, t'.calling = none ∧ t'.installJob = some job := by
  cases t with
  | installPull j | installRun j =>
      cases hjob
      cases r <;> simp [Task.resume, Write.keeps, Write.target, Task.calling, Task.installJob]
  | installInspect j =>
      cases hjob
      cases r with
      | ok digest =>
          by_cases hd : digest = job.checksumSha256 <;>
            simp [Task.resume, hd, Write.keeps, Write.target, Task.calling, Task.installJob]
      | error e => simp [Task.resume, Write.keeps, Write.target]
  | installRmi j =>
      cases hjob
      simp [Task.resume]
  | monitorWait j =>
      cases hjob
      obtain ⟨st, msg, -, hturn⟩ := resume_monitorWait job r
      simp [hturn, Write.keeps, Write.target]
  | installStop | removeStop | removeRm | removeRmi | offloadRm | offloadRmi => cases hjob

theorem Recorded.resume {w : World P} {others : List Proc} {t : Task} {r : Reply t.cmd}
    (h : Recorded w) (hp : ⟨t, some r⟩ ∈ w.procs) (hothers : ∀ q ∈ others, q ∈ w.procs) :
    Recorded (w.settle others (t.resume r)) := by
  -- a background task or a monitor, or one of the tasks that are of no job
  cases hj : t.installJob with
  | some job =>
      obtain ⟨hws, hcreated, hnew⟩ := resume_installJob hj r
      refine h.settle hothers (fun x hx => (hws x hx).1) hcreated fun t' ht' => ?_
      refine ⟨(hnew t' ht').1, fun job' hjob' => ?_⟩
      rw [(hnew t' ht').2] at hjob'
      cases hjob'
      exact h.tasks _ hp job hj
  | none =>
      cases t with
      | installStop job running =>
          have hk : Known w job := .inr ⟨_, hp, rfl⟩
          cases r with
          | ok u =>
              exact h.settle_create hothers (h.issued job hk)
                (fun j hj heq => h.inj j job hj hk heq) (by simp [Write.keeps])
          | error e =>
              exact h.settle_create hothers (h.issued job hk)
                (fun j hj heq => h.inj j job hj hk heq) (by simp [Write.keeps])
      | removeStop id adapter | removeRm id adapter | removeRmi id adapter =>
          refine h.settle hothers ?_ ?_ ?_ <;>
            cases r <;> simp [Task.resume, removeFail, Write.keeps, Task.calling, Task.installJob]
      | offloadRm adapter rest =>
          cases r with
          | ok u =>
              exact h.settle hothers (by simp [Task.resume]) rfl
                (by simp [Task.resume, Task.calling, Task.installJob])
          | error e => exact h.settle_runOffloadCycle hothers (by simp [Write.keeps]) rest
      | offloadRmi adapter rest =>
          cases r with
          | ok u => exact h.settle_runOffloadCycle hothers (by simp [Write.keeps]) rest
          | error e => exact h.settle_runOffloadCycle hothers (by simp [Write.keeps]) rest
      | installPull | installInspect | installRmi | installRun | monitorWait => cases hj

/-- An install call finds an adapter running and waits for it to stop. -/
theorem Recorded.settle_installStop {w : World P} {job : InstallJob} (h : Recorded w)
    (hissued : job.jobId ∈ w.issued)
    (hjob : ∀ job', Known w job' → job'.jobId = job.jobId → job' = job) (e : AdapterEntry) :
    Recorded (w.settle w.procs { tasks := [.installStop job e] }) := by
  have hcr : (w.settle w.procs { tasks := [.installStop job e] }).created = w.created := by simp
  have hknown : ∀ job', Known (w.settle w.procs { tasks := [.installStop job e] }) job' →
      Known w job' ∨ job' = job := by
    rintro job' (hmem | ⟨p, hp, hcall⟩)
    · rw [hcr] at hmem
      exact .inl (.inl hmem)
    · rcases List.mem_append.1 hp with hp | hp
      · exact .inl (.inr ⟨p, hp, hcall⟩)
      · rw [List.mem_singleton.1 hp] at hcall
        exact .inr (Option.some.inj hcall).symm
  refine ⟨h.issued_insert hknown hissued, h.inj_insert hknown hjob, ?_, ?_⟩
  · intro p hp job' hjob'
    rw [hcr]
    rcases List.mem_append.1 hp with hp | hp
    · exact h.tasks p hp job' hjob'
    · rw [List.mem_singleton.1 hp] at hjob'
      cases hjob'
  · rw [hcr]
    exact h.entries

theorem Recorded.install {w : World P} {job : InstallJob} {running : Option AdapterEntry}
    (h : Recorded w) (hfresh : job.jobId ∉ w.issued) :
    Recorded ((w.issue job).settle w.procs (installAdapter job running)) := by
  have hissue : Recorded (w.issue job) :=
    ⟨fun j hj => List.mem_append_left _ (h.issued j hj), h.inj, h.tasks, h.entries⟩
  have hissued : job.jobId ∈ (w.issue job).issued := List.mem_append_right _ List.mem_cons_self
  have hjob : ∀ j, Known (w.issue job) j → j.jobId = job.jobId → j = job := by
    intro j hj heq
    exact absurd (heq ▸ h.issued j hj) hfresh
  by_cases hvalid : job.Valid
  · cases running with
    | none =>
        rw [installAdapter_none hvalid]
        exact hissue.settle_create (fun q hq => hq) hissued hjob (by simp)
    | some e =>
        rw [installAdapter_some hvalid]
        exact hissue.settle_installStop hissued hjob e
  · obtain ⟨hwrites, htasks, hcreated⟩ := installAdapter_of_not_valid running hvalid
    exact hissue.settle (fun q hq => hq) (by simp [hwrites]) hcreated (by simp [htasks])

theorem Recorded.step {timeout : ℕ} {w w' : World P} {a : Action P} (h : Recorded w)
    (hfresh : FreshJobIds w a) (hstep : w.step timeout a = some w') : Recorded w' := by
  cases step_eq_some_iff.1 hstep with
  | install job running _ => exact h.install hfresh
  | remove id =>
      refine h.settle (fun q hq => hq) (by simp) (by simp) fun t ht => ?_
      obtain ⟨adapter, rfl | rfl⟩ := mem_tasks_removeAdapter ht <;>
        simp [Task.calling, Task.installJob]
  | offload candidates _ _ => exact h.settle_runOffloadCycle (fun q hq => hq) (by simp) candidates
  | exec i answer t r s hp _ _ =>
      have hmem : Proc.start t ∈ w.procs := List.mem_of_getElem? hp
      -- an answered process has the task it had before
      have hpool : ∀ p ∈ w.procs.set i ⟨t, some r⟩, ∃ q ∈ w.procs, q.task = p.task := by
        intro p hpm
        rcases Pool.eq_or_mem_of_mem_set hpm with rfl | hpm
        · exact ⟨_, hmem, rfl⟩
        · exact ⟨p, hpm, rfl⟩
      have hknown : ∀ j, Known { w with procs := w.procs.set i ⟨t, some r⟩, podman := s } j →
          Known w j := by
        rintro j (hj | ⟨p, hpm, hcall⟩)
        · exact .inl hj
        · obtain ⟨q, hq, htask⟩ := hpool p hpm
          exact .inr ⟨q, hq, htask ▸ hcall⟩
      refine ⟨fun j hj => h.issued j (hknown j hj),
        fun j j' hj hj' => h.inj j j' (hknown j hj) (hknown j' hj'), ?_, h.entries⟩
      intro p hpm job hjob
      obtain ⟨q, hq, htask⟩ := hpool p hpm
      exact h.tasks q hq job (htask ▸ hjob)
  | resume i t r hp =>
      exact h.resume (List.mem_of_getElem? hp) fun q hq => Pool.mem_of_mem_eraseIdx hq
  | env e s _ => exact ⟨h.issued, h.inj, h.tasks, h.entries⟩
  | tick clk _ => exact ⟨h.issued, h.inj, h.tasks, h.entries⟩

/-! ### The entry a transition is applied to -/

/-- **A transition issued by the background task or the monitor of a job** is of a job that has
created its entry, leaves every other adapter alone, and is applied to the entry created by the most
recent job for the adapter id, which is the job's own entry exactly if the job is that one. -/
theorem resume_writes_latest {timeout : ℕ} {clk : Clock} {w w' : World P} {i : ℕ} {p : Proc}
    {job : InstallJob}
    (h : Lts.Reach (Lts.restrict (World.step timeout) FreshJobIds) (World.init P clk) w)
    (hp : w.procs[i]? = some p) (hjob : p.task.installJob = some job)
    (hstep : w.step timeout (.resume i) = some w') :
    job ∈ w.created ∧
      (∀ id, id ≠ job.adapterId → w'.sm.getAdapter id = w.sm.getAdapter id) ∧
      ∀ e, w.sm.getAdapter job.adapterId = some e →
        ∃ last, latest w.created job.adapterId = some last ∧ e.jobId = last.jobId ∧
          (e.jobId = job.jobId ↔ last = job) := by
  have hinv : Recorded w := by
    refine h.invariant (recorded_init clk) fun s a s' hs hstep => ?_
    obtain ⟨hfresh, hstep⟩ := Lts.restrict_eq_some_iff.1 hstep
    exact hs.step hfresh hstep
  have hcreated : job ∈ w.created := hinv.tasks p (List.mem_of_getElem? hp) job hjob
  refine ⟨hcreated, ?_, ?_⟩
  · cases step_eq_some_iff.1 hstep with
    | resume _ t r hp' =>
        rw [hp'] at hp
        cases hp
        intro id hid
        obtain ⟨hws, -, -⟩ := resume_installJob hjob r
        refine getAdapter_applyAll_of_ne w.clk w.sm fun x hx => ?_
        rw [(hws x hx).2]
        exact hid
  · intro e he
    obtain ⟨last, hlast, heq⟩ := hinv.entries _ e he
    refine ⟨last, hlast, heq, ?_⟩
    rw [heq]
    constructor
    · intro hid
      exact hinv.inj last job (.inl (mem_of_latest hlast).1) (.inl hcreated) hid
    · intro hid
      rw [hid]

/-- A second job for the adapter of `jobA`. -/
def jobA' : InstallJob := ⟨"job-a-again", "registry/a:1", "sum-a"⟩

/-- The adapter is installed a second time while its first download is under way, which then
fails. -/
def reinstalled : List (Action Podman.free) :=
  [.install jobA none, .install jobA' none, .exec 0 (.failed ⟨"timeout"⟩)]

/-- The first job's failure is applied to the entry of the second job. -/
theorem resume_writes_latest_reinstalled :
    ∃ w w' : World Podman.free,
      Lts.run (Lts.restrict (World.step 0) FreshJobIds) (World.init Podman.free ⟨0, 0⟩)
        reinstalled = some w ∧ w.step 0 (.resume 0) = some w' ∧
      ∀ e, w.sm.getAdapter jobA.adapterId = some e →
        ∃ last, latest w.created jobA.adapterId = some last ∧ e.jobId = last.jobId ∧
          (e.jobId = jobA.jobId ↔ last = jobA) := by
  have hrun : ((Lts.run (Lts.restrict (World.step 0) FreshJobIds) (World.init Podman.free ⟨0, 0⟩)
      reinstalled).bind fun w => (w.step 0 (.resume 0)).map fun _ =>
        w.procs[0]?.map Proc.task) = some (some (.installPull jobA)) := by decide
  obtain ⟨w, hw, hrun⟩ := Option.bind_eq_some_iff.1 hrun
  obtain ⟨w', hstep, htask⟩ := Option.map_eq_some_iff.1 hrun
  obtain ⟨p, hp, ht⟩ := Option.map_eq_some_iff.1 htask
  have hjob : p.task.installJob = some jobA := by rw [ht]; rfl
  exact ⟨w, w', hw, hstep, (resume_writes_latest (Lts.reach_of_run hw) hp hjob hstep).2.2⟩

/-- **The failed download of an earlier job puts the later job's entry into `error`.** -/
theorem earlier_job_fails_later_entry :
    ¬ ∀ (timeout : ℕ) (clk : Clock) (w w' : World Podman.free) (i : ℕ) (p : Proc)
        (job : InstallJob),
      Lts.Reach (Lts.restrict (World.step timeout) FreshJobIds) (World.init Podman.free clk) w →
        w.procs[i]? = some p → p.task.installJob = some job →
        w.step timeout (.resume i) = some w' →
        ∀ id e, w.sm.getAdapter id = some e → e.jobId ≠ job.jobId →
          ∃ e', w'.sm.getAdapter id = some e' ∧ e'.state = e.state ∧
            e'.errorMessage = e.errorMessage := by
  intro hall
  have hrun : ((Lts.run (Lts.restrict (World.step 0) FreshJobIds) (World.init Podman.free ⟨0, 0⟩)
      reinstalled).bind fun w => (w.step 0 (.resume 0)).map fun w' =>
        (w.procs[0]?.map Proc.task, w.sm.getAdapter "a-1", w'.sm.getAdapter "a-1")) =
      some (some (.installPull jobA), some { jobA'.entry with state := .downloading },
        some { jobA'.entry with state := .error, errorMessage := some "timeout" }) := by decide
  obtain ⟨w, hw, hrun⟩ := Option.bind_eq_some_iff.1 hrun
  obtain ⟨w', hstep, heq⟩ := Option.map_eq_some_iff.1 hrun
  rw [Prod.mk.injEq, Prod.mk.injEq] at heq
  obtain ⟨htask, hbefore, hafter⟩ := heq
  obtain ⟨p, hp, ht⟩ := Option.map_eq_some_iff.1 htask
  have hjob : p.task.installJob = some jobA := by rw [ht]; rfl
  obtain ⟨e', he', hstate, -⟩ := hall 0 ⟨0, 0⟩ w w' 0 p jobA (Lts.reach_of_run hw) hp hjob hstep
    "a-1" _ hbefore (by decide)
  rw [hafter] at he'
  cases he'
  cases hstate

end UpdateService
