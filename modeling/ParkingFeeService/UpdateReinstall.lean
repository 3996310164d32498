/-
**Installing an adapter again.**

An install call stops the adapter that is running but deletes no container, and its background task
starts the container under the id of the adapter.  That name is still taken if the adapter has been
installed before, whether its container is running, has been stopped or has exited, and also if
another image with the same id has been.

In a run of installs one after the other, all of whose pulls and digests are in order, an install
ends with the adapter running exactly if no earlier one had the same adapter id.

Main definitions:

* `UpdateService.InTurn` — the side condition of these runs;
* `UpdateService.InstallSucceeds` — the install ends, and ends with the adapter running;
* `UpdateService.OnCourse`, `UpdateService.Underway` — an install on its way.

Main results:

* `UpdateService.Underway.step` — an install stays on its way, and how it ends;
* `UpdateService.Underway.reach_quiescent` — it can always come to an end;
* `UpdateService.installSucceeds_iff` — exactly the adapters that have not been installed before end
  up running;
* `UpdateService.second_install_not_running` — an adapter that is installed twice.
-/

import ParkingFeeService.UpdateRemoval

set_option relaxedAutoImplicit false
set_option autoImplicit false

namespace UpdateService

/-! ### Installs one after the other -/

/-- The command of an install is answered well: the pull succeeds, the digest is the expected one,
and `podman run` fails only if the name is taken. -/
def Task.AnsweredWell (s : PodmanStore) (answer : Answer) : Task → Prop
  | .installPull _ => answer = .done
  | .installInspect job => answer = .digest job.checksumSha256
  | .installRun job => answer = .done ∨ s.HasContainer job.adapterId
  | _ => True

instance (s : PodmanStore) (answer : Answer) : (t : Task) → Decidable (t.AnsweredWell s answer)
  | .installPull _ => inferInstanceAs (Decidable (answer = .done))
  | .installInspect job => inferInstanceAs (Decidable (answer = .digest job.checksumSha256))
  | .installRun job => inferInstanceAs (Decidable (answer = .done ∨ s.HasContainer job.adapterId))
  | .installStop _ _ | .installRmi _ | .monitorWait _ | .removeStop _ _ | .removeRm _ _
  | .removeRmi _ _ | .offloadRm _ _ | .offloadRmi _ _ => isTrue trivial

/-- The step begins no call and no offload cycle, and a command is answered well. -/
def GoesOn (w : World Podman.engine) : Action Podman.engine → Prop
  | .install _ _ | .remove _ | .offload _ => False
  | .exec i answer => ∀ p ∈ w.procs[i]?, p.task.AnsweredWell w.engine.store answer
  | .resume _ | .env _ | .tick _ => True

instance (w : World Podman.engine) : (a : Action Podman.engine) → Decidable (GoesOn w a)
  | .install _ _ | .remove _ | .offload _ => isFalse id
  | .exec i answer => inferInstanceAs (Decidable
      (∀ p ∈ w.procs[i]?, p.task.AnsweredWell w.engine.store answer))
  | .resume _ | .env _ | .tick _ => isTrue trivial

/-- The same, and an install is requested when the one before has ended. -/
def InTurn (w : World Podman.engine) : Action Podman.engine → Prop
  | .install _ _ => Quiescent w
  | a => GoesOn w a

instance (w : World Podman.engine) : (a : Action Podman.engine) → Decidable (InTurn w a)
  | .install _ _ => inferInstanceAs (Decidable (Quiescent w))
  | .remove id => inferInstanceAs (Decidable (GoesOn w (.remove id)))
  | .offload cs => inferInstanceAs (Decidable (GoesOn w (.offload cs)))
  | .exec i answer => inferInstanceAs (Decidable (GoesOn w (.exec i answer)))
  | .resume i => inferInstanceAs (Decidable (GoesOn w (.resume i)))
  | .env e => inferInstanceAs (Decidable (GoesOn w (.env e)))
  | .tick clk => inferInstanceAs (Decidable (GoesOn w (.tick clk)))

/-- The steps of an install and of what happens on its own. -/
abbrev stepOn (timeout : ℕ) :
    World Podman.engine → Action Podman.engine → Option (World Podman.engine) :=
  Lts.restrict (World.step timeout) GoesOn

/-- The install that is under way succeeds: the step that ends it leaves the adapter running, and it
can come to an end wherever it has got to. -/
def InstallSucceeds (timeout : ℕ) (w : World Podman.engine) (job : InstallJob) : Prop :=
  (∀ w₁ a w₂, Lts.Reach (stepOn timeout) w w₁ → ¬ Quiescent w₁ → stepOn timeout w₁ a = some w₂ →
    Quiescent w₂ → w₂.sm.stateAt job.adapterId = some .running) ∧
  ∀ w₁, Lts.Reach (stepOn timeout) w w₁ →
    ∃ w₂, Lts.Reach (stepOn timeout) w₁ w₂ ∧ Quiescent w₂

/-! ### On the way -/

/-- None of the jobs has installed the adapter of this one. -/
def InstallJob.NewTo (job : InstallJob) (jobs : List InstallJob) : Prop :=
  ∀ j ∈ jobs, j.adapterId ≠ job.adapterId

/-- The containers are those that the jobs have created. -/
def PodmanStore.ContainersOf (s : PodmanStore) (jobs : List InstallJob) : Prop :=
  ∀ name, s.HasContainer name ↔ ∃ j ∈ jobs, j.adapterId = name

theorem PodmanStore.ContainersOf.newTo_iff {s : PodmanStore} {jobs : List InstallJob}
    (h : s.ContainersOf jobs) (job : InstallJob) :
    job.NewTo jobs ↔ ¬ s.HasContainer job.adapterId := by
  rw [h job.adapterId]
  simp [InstallJob.NewTo]

/-- What podman is like at the await points of the background task of an install that comes after
the jobs `pre`. -/
inductive OnCourse (s : PodmanStore) (pre : List InstallJob) (job : InstallJob) : Proc → Prop
  | pulling (h : s.ContainersOf pre) : OnCourse s pre job ⟨.installPull job, none⟩
  | pulled (h : s.ContainersOf pre) (himg : job.imageRef ∈ s.images) :
      OnCourse s pre job ⟨.installPull job, some (.ok ())⟩
  | inspecting (h : s.ContainersOf pre) (himg : job.imageRef ∈ s.images) :
      OnCourse s pre job ⟨.installInspect job, none⟩
  | inspected (h : s.ContainersOf pre) :
      OnCourse s pre job ⟨.installInspect job, some (.ok job.checksumSha256)⟩
  | starting (h : s.ContainersOf pre) : OnCourse s pre job ⟨.installRun job, none⟩
  | started (h : s.ContainersOf (pre ++ [job])) (hnew : job.NewTo pre) :
      OnCourse s pre job ⟨.installRun job, some (.ok ())⟩
  | refused (h : s.ContainersOf (pre ++ [job])) (hold : ¬ job.NewTo pre) (e : PodmanError) :
      OnCourse s pre job ⟨.installRun job, some (.error e)⟩

/-- An install that comes after the jobs `pre`: it is stopping the adapter that was running, or its
background task is at work; and when it is over, the containers are those of the jobs so far. -/
inductive Underway (pre : List InstallJob) (job : InstallJob) (w : World Podman.engine) : Prop
  | calling (running : AdapterEntry) (r : Option (Reply (.stop running.adapterId)))
      (hone : w.procs.filter Proc.working = [⟨.installStop job running, r⟩])
      (hcreated : w.created = pre) (h : w.engine.store.ContainersOf pre)
  | atWork (p : Proc) (hone : w.procs.filter Proc.working = [p])
      (hcreated : w.created = pre ++ [job])
      (hentry : (w.sm.getAdapter job.adapterId).isSome = true)
      (hcourse : OnCourse w.engine.store pre job p)
  | ended (hnone : w.procs.filter Proc.working = []) (h : w.engine.store.ContainersOf w.created)

section Underway

variable {pre : List InstallJob} {job : InstallJob} {w w' : World Podman.engine} {i : ℕ} {t : Task}
  {r : Reply t.cmd}

theorem OnCourse.congr {s s' : PodmanStore} {p : Proc} (h : OnCourse s pre job p)
    (hcont : ∀ name, s'.HasContainer name ↔ s.HasContainer name) (himages : s'.images = s.images) :
    OnCourse s' pre job p := by
  have hof : ∀ {jobs}, s.ContainersOf jobs → s'.ContainersOf jobs :=
    fun hjobs name => (hcont name).trans (hjobs name)
  cases h with
  | pulling h => exact .pulling (hof h)
  | pulled h himg => exact .pulled (hof h) (himages ▸ himg)
  | inspecting h himg => exact .inspecting (hof h) (himages ▸ himg)
  | inspected h => exact .inspected (hof h)
  | starting h => exact .starting (hof h)
  | started h hnew => exact .started (hof h) hnew
  | refused h hold e => exact .refused (hof h) hold e

/-- A step of something else leaves an install where it is. -/
theorem Underway.congr (h : Underway pre job w)
    (hprocs : w'.procs.filter Proc.working = w.procs.filter Proc.working)
    (hcreated : w'.created = w.created)
    (hentry : (w'.sm.getAdapter job.adapterId).isSome = (w.sm.getAdapter job.adapterId).isSome)
    (hcont : ∀ name, w'.engine.store.HasContainer name ↔ w.engine.store.HasContainer name)
    (himages : w'.engine.store.images = w.engine.store.images) : Underway pre job w' := by
  cases h with
  | calling running r hone hpre h =>
      exact .calling running r (hprocs.trans hone) (hcreated.trans hpre)
        fun name => (hcont name).trans (h name)
  | atWork p hone hpre hsome hcourse =>
      exact .atWork p (hprocs.trans hone) (hcreated.trans hpre) (hentry.trans hsome)
        (hcourse.congr hcont himages)
  | ended hnone h =>
      exact .ended (hprocs.trans hnone) (hcreated ▸ fun name => (hcont name).trans (h name))

/-- A command of the background task is carried out. -/
theorem OnCourse.exec {g g' : Engine} {answer : Answer}
    (h : OnCourse g.store pre job ⟨t, none⟩) (hr : answer.toReply t.cmd = some r)
    (hwell : t.AnsweredWell g.store answer) (hexec : g.exec t.cmd r = some g') :
    OnCourse g'.store pre job ⟨t, some r⟩ := by
  obtain ⟨-, hcases⟩ := Engine.exec_cases hexec
  cases h with
  | pulling h =>
      cases hwell
      cases hr
      obtain ⟨-, hs⟩ | ⟨⟨e, he⟩, -⟩ := hcases
      · refine .pulled (fun name => ?_) ?_
        · rw [PodmanStore.hasContainer_exec hs (by simp)]
          simpa using h name
        · rw [← Option.some.inj hs]
          exact List.mem_insert_self
      · cases he
  | inspecting h himg =>
      cases hwell
      cases hr
      obtain ⟨-, hs⟩ | ⟨⟨e, he⟩, -⟩ := hcases
      · refine .inspected fun name => ?_
        rw [PodmanStore.hasContainer_exec hs (by simp)]
        simpa using h name
      · cases he
  | starting h =>
      obtain ⟨⟨out, rfl⟩, hs⟩ | ⟨⟨e, rfl⟩, rfl, -⟩ := hcases
      · have hfree : ¬ g.store.HasContainer job.adapterId := by
          obtain ⟨hnone, -⟩ := Option.ite_none_right_eq_some.1 hs
          exact PodmanStore.not_hasContainer_iff.2 hnone
        refine .started (fun name => ?_) ((h.newTo_iff job).2 hfree)
        rw [PodmanStore.hasContainer_exec hs (by simp), h name]
        simp [or_and_right, exists_or]
      · -- the command fails, so that the name is taken
        have htaken : g'.store.HasContainer job.adapterId := by
          rcases hwell with rfl | htaken
          · cases hr
          · exact htaken
        refine .refused (fun name => ?_) (fun hnew => (h.newTo_iff job).1 hnew htaken) e
        rw [h name]
        constructor
        · rintro ⟨j, hj, hname⟩
          exact ⟨j, List.mem_append_left _ hj, hname⟩
        · rintro ⟨j, hj, rfl⟩
          rcases List.mem_append.1 hj with hj | hj
          · exact ⟨j, hj, rfl⟩
          · rw [List.mem_singleton.1 hj]
            exact (h _).1 htaken

/-- A command is carried out. -/
theorem Underway.exec {answer : Answer} (h : Underway pre job w) {g : Engine}
    (hp : w.procs[i]? = some ⟨t, none⟩) (hr : answer.toReply t.cmd = some r)
    (hwell : t.AnsweredWell w.engine.store answer) (hg : w.engine.exec t.cmd r = some g) :
    Underway pre job { w with procs := w.procs.set i ⟨t, some r⟩, podman := g } := by
  cases hwork : Proc.working ⟨t, none⟩ with
  | false =>
      obtain ⟨job', rfl⟩ := exists_monitorWait hwork
      obtain rfl := Engine.exec_wait hg
      have hfilter := (Pool.filter_of_neg hp hwork).2 ⟨.monitorWait job', some r⟩ rfl
      exact h.congr hfilter rfl rfl (fun name => Iff.rfl) rfl
  | true =>
      have hwork' : Proc.working ⟨t, some r⟩ = true := hwork
      cases h with
      | calling running r' hone hpre h =>
          obtain ⟨heq, -, hset⟩ := Pool.filter_of_singleton hp hwork hone
          cases heq
          refine .calling running (some r) (hset _ hwork') hpre fun name => ?_
          obtain ⟨-, ⟨-, hs⟩ | ⟨-, rfl, -⟩⟩ := Engine.exec_cases hg
          · rw [← h name]
            exact (PodmanStore.hasContainer_exec hs (by simp)).trans (by simp)
          · exact h name
      | atWork p hone hpre hsome hcourse =>
          obtain ⟨rfl, -, hset⟩ := Pool.filter_of_singleton hp hwork hone
          exact .atWork _ (hset _ hwork') hpre hsome (hcourse.exec hr hwell hg)
      | ended hnone _ =>
          exact absurd hwork (List.filter_eq_nil_iff.1 hnone _ (List.mem_of_getElem? hp))

/-- A transition leaves every entry in place. -/
theorem isSome_getAdapter_transition (clk : Clock) (sm : StateManager) (id id' : String)
    (st : AdapterState) (msg : Option String) :
    (((Write.transition id' st msg).apply clk sm).getAdapter id).isSome =
      (sm.getAdapter id).isSome := by
  rw [Write.apply, StateManager.getAdapter_keepTransition]
  split
  · next heq => rw [heq, Option.isSome_map]
  · rfl

/-- A transition of an adapter that has an entry. -/
theorem stateAt_transition_self {clk : Clock} {sm : StateManager} {id : String}
    (h : (sm.getAdapter id).isSome = true) (st : AdapterState) (msg : Option String) :
    ((Write.transition id st msg).apply clk sm).stateAt id = some st := by
  obtain ⟨e, he⟩ := Option.isSome_iff_exists.1 h
  rw [stateAt_transition, if_pos rfl, StateManager.stateAt, he]
  rfl

/-- A valid call that has dealt with the adapter that was running begins its background task. -/
theorem underway_installCreate {others : List Proc} {before : List Write}
    (hnone : others.filter Proc.working = []) (hcreated : w.created = pre)
    (h : w.engine.store.ContainersOf pre) :
    Underway pre job (w.settle others (installCreate before job)) := by
  refine .atWork (Proc.start (.installPull job)) ?_ (by rw [← hcreated]; rfl) ?_ (.pulling h)
  · exact filter_working_settle w _ hnone
  · simp only [World.settle_sm, installCreate, applyAll_append, applyAll_cons, applyAll_nil,
      isSome_getAdapter_transition]
    exact congrArg Option.isSome ((StateManager.getAdapter_createAdapter ..).trans (if_pos rfl))

/-- A task that is more than a monitor goes on. -/
theorem not_quiescent_settle {others : List Proc} {turn : Turn} (ht : t ∈ turn.tasks)
    (hwork : Proc.working (Proc.start t) = true) : ¬ Quiescent (w.settle others turn) := by
  intro hdone
  obtain ⟨job', heq⟩ := hdone (Proc.start t) (List.mem_append_right _ (List.mem_map_of_mem ht))
  rw [Proc.start_task] at heq
  subst heq
  cases hwork

/-- **A result is picked up**: if that ends the install, then the adapter is running exactly if it
is new. -/
theorem Underway.resume (h : Underway pre job w) (hp : w.procs[i]? = some ⟨t, some r⟩) :
    Underway pre job (w.settle (w.procs.eraseIdx i) (t.resume r)) ∧
      (¬ Quiescent w → Quiescent (w.settle (w.procs.eraseIdx i) (t.resume r)) →
        ((w.settle (w.procs.eraseIdx i) (t.resume r)).sm.stateAt job.adapterId = some .running ↔
          job.NewTo pre)) := by
  cases hwork : Proc.working ⟨t, some r⟩ with
  | false =>
      obtain ⟨job', rfl⟩ := exists_monitorWait hwork
      obtain ⟨st, msg, -, hturn⟩ := resume_monitorWait job' r
      have hfilter := (Pool.filter_of_neg hp hwork).1
      rw [hturn, quiescent_iff, quiescent_iff]
      have hprocs : (w.settle (w.procs.eraseIdx i)
          { writes := [.transition job'.adapterId st msg] }).procs.filter Proc.working =
            w.procs.filter Proc.working := by
        rw [World.settle_procs, List.filter_append, hfilter]
        exact List.append_nil _
      refine ⟨h.congr hprocs (List.append_nil _) ?_ (fun name => Iff.rfl) rfl,
        fun hbusy hdone => absurd (hprocs ▸ hdone) hbusy⟩
      exact isSome_getAdapter_transition w.clk w.sm job.adapterId job'.adapterId st msg
  | true =>
      cases h with
      | calling running r' hone hpre h =>
          obtain ⟨heq, herase, -⟩ := Pool.filter_of_singleton hp hwork hone
          cases heq
          cases r with
          | ok out | error e =>
              exact ⟨underway_installCreate herase hpre h, fun _ hdone =>
                absurd hdone (not_quiescent_settle (t := .installPull job) List.mem_cons_self rfl)⟩
      | atWork p hone hpre hsome hcourse =>
          obtain ⟨rfl, herase, -⟩ := Pool.filter_of_singleton hp hwork hone
          have hprocs := fun turn => filter_working_settle w turn herase
          have hcreated : w.created ++ [] = pre ++ [job] := by rw [List.append_nil, hpre]
          have hover : w.engine.store.ContainersOf (pre ++ [job]) →
              w.engine.store.ContainersOf (w.created ++ []) := by
            rw [hcreated]
            exact fun h => h
          cases hcourse with
          | pulled h himg =>
              exact ⟨.atWork _ (hprocs _) hcreated hsome (.inspecting h himg), fun _ hdone =>
                absurd hdone (not_quiescent_settle (t := .installInspect job) List.mem_cons_self
                  rfl)⟩
          | inspected h =>
              rw [resume_installInspect_of_eq rfl]
              refine ⟨.atWork _ (hprocs _) hcreated ?_ (.starting h), fun _ hdone =>
                absurd hdone (not_quiescent_settle (t := .installRun job) List.mem_cons_self rfl)⟩
              exact (isSome_getAdapter_transition w.clk w.sm _ _ _ _).trans hsome
          | started h hnew =>
              refine ⟨.ended (hprocs _) (hover h), fun _ _ => iff_of_true ?_ hnew⟩
              exact stateAt_transition_self hsome .running none
          | refused h hold e =>
              refine ⟨.ended (hprocs _) (hover h), fun _ _ => iff_of_false ?_ hold⟩
              have hstate := @stateAt_transition_self w.clk w.sm job.adapterId hsome .error
                (some e.message)
              exact fun hrun => absurd (hstate.symm.trans hrun) (by simp)
      | ended hnone _ =>
          exact absurd hwork (List.filter_eq_nil_iff.1 hnone _ (List.mem_of_getElem? hp))

/-- **An install stays on its way**, and the step that ends it leaves the adapter running exactly if
it is new. -/
theorem Underway.step {timeout : ℕ} {a : Action Podman.engine} (h : Underway pre job w)
    (hstep : stepOn timeout w a = some w') :
    Underway pre job w' ∧ (¬ Quiescent w → Quiescent w' →
      (w'.sm.stateAt job.adapterId = some .running ↔ job.NewTo pre)) := by
  obtain ⟨hguard, hstep⟩ := Lts.restrict_eq_some_iff.1 hstep
  cases step_eq_some_iff.1 hstep with
  | install | remove | offload => exact hguard.elim
  | exec i answer t r g hp hr hg =>
      refine ⟨h.exec hp hr (hguard _ hp) hg, fun hbusy hdone => absurd (fun p hmem => ?_) hbusy⟩
      rcases Pool.eq_or_mem_set hp hmem ⟨t, some r⟩ with rfl | hmem
      · exact hdone ⟨t, some r⟩ (Pool.mem_set_self hp _)
      · exact hdone p hmem
  | resume i t r hp => exact h.resume hp
  | env e s hs =>
      refine ⟨?_, fun hbusy hdone => absurd hdone hbusy⟩
      cases e with
      | exit name =>
          obtain ⟨-, hs⟩ := Option.ite_none_right_eq_some.1 hs
          cases hs
          exact h.congr rfl rfl rfl (fun name' => PodmanStore.hasContainer_halt _ name' name)
            (PodmanStore.images_halt _ name)
      | outage on =>
          cases hs
          exact h.congr rfl rfl rfl (fun name => Iff.rfl) rfl
  | tick clk _ =>
      exact ⟨h.congr rfl rfl rfl (fun name => Iff.rfl) rfl, fun hbusy hdone => absurd hdone hbusy⟩

/-- A valid call that is made while nothing but monitors is in flight. -/
theorem underway_install (running : Option AdapterEntry) (hquiescent : Quiescent w)
    (h : w.engine.store.ContainersOf w.created) (hvalid : job.Valid) :
    Underway w.created job ((w.issue job).settle w.procs (installAdapter job running)) ∧
      ¬ Quiescent ((w.issue job).settle w.procs (installAdapter job running)) := by
  have hnone := quiescent_iff.1 hquiescent
  cases running with
  | none =>
      rw [installAdapter_none hvalid]
      exact ⟨@underway_installCreate w.created job (w.issue job) w.procs [] hnone rfl h,
        not_quiescent_settle (t := .installPull job) List.mem_cons_self rfl⟩
  | some running =>
      rw [installAdapter_some hvalid]
      refine ⟨.calling running none ?_ (List.append_nil _) h,
        not_quiescent_settle (t := .installStop job running) List.mem_cons_self rfl⟩
      exact filter_working_settle (w.issue job) _ hnone

end Underway

/-! ### An install comes to an end -/

/-- The await points that the task of an install still has to pass. -/
def Task.pointsLeft : Task → ℕ
  | .installStop _ _ => 4
  | .installPull _ => 3
  | .installInspect _ => 2
  | .installRun _ => 1
  | _ => 0

/-- The steps that the task of an install has before it: two for each await point. -/
def Proc.stepsLeft (p : Proc) : ℕ := 2 * p.task.pointsLeft - (if p.reply.isSome then 1 else 0)

/-- The steps that the tasks in flight have before them. -/
def World.stepsLeft (w : World Podman.engine) : ℕ :=
  (w.procs.filter Proc.working).foldr (fun p n => p.stepsLeft + n) 0

section StepsLeft

variable {timeout : ℕ} {pre : List InstallJob} {job : InstallJob} {w : World Podman.engine}
  {t : Task}

/-- The only task in flight has its command carried out. -/
theorem exists_exec_stepsLeft (answer : Answer) {r : Reply t.cmd} {g : Engine}
    (hone : w.procs.filter Proc.working = [⟨t, none⟩]) (hr : answer.toReply t.cmd = some r)
    (hwell : t.AnsweredWell w.engine.store answer) (hg : w.engine.exec t.cmd r = some g)
    (hleft : 0 < t.pointsLeft) :
    ∃ a w', stepOn timeout w a = some w' ∧ w'.stepsLeft < w.stepsLeft := by
  have hmem : (⟨t, none⟩ : Proc) ∈ w.procs.filter Proc.working := by simp [hone]
  obtain ⟨hmem, hwork⟩ := List.mem_filter.1 hmem
  obtain ⟨i, hp⟩ := List.mem_iff_getElem?.1 hmem
  have hset := (Pool.filter_of_singleton hp hwork hone).2.2 ⟨t, some r⟩ hwork
  have hguard : GoesOn w (.exec i answer) := by
    intro p hp'
    cases Option.some.inj (hp.symm.trans hp')
    exact hwell
  refine ⟨.exec i answer, _, Lts.restrict_eq_some_iff.2 ⟨hguard,
    step_eq_some_iff.2 (@Moves.exec _ timeout w i answer t r g hp hr hg)⟩, ?_⟩
  have hlt : Proc.stepsLeft ⟨t, some r⟩ < Proc.stepsLeft ⟨t, none⟩ :=
    Nat.sub_lt (Nat.mul_pos Nat.two_pos hleft) Nat.one_pos
  simpa [World.stepsLeft, hone, hset] using hlt

/-- The only task in flight picks up its result. -/
theorem exists_resume_stepsLeft {r : Reply t.cmd}
    (hone : w.procs.filter Proc.working = [⟨t, some r⟩])
    (hlt : (((t.resume r).tasks.map Proc.start).filter Proc.working).foldr
      (fun p n => p.stepsLeft + n) 0 < 2 * t.pointsLeft - 1) :
    ∃ a w', stepOn timeout w a = some w' ∧ w'.stepsLeft < w.stepsLeft := by
  have hmem : (⟨t, some r⟩ : Proc) ∈ w.procs.filter Proc.working := by simp [hone]
  obtain ⟨hmem, hwork⟩ := List.mem_filter.1 hmem
  obtain ⟨i, hp⟩ := List.mem_iff_getElem?.1 hmem
  have herase := (Pool.filter_of_singleton hp hwork hone).2.1
  refine ⟨.resume i, _, Lts.restrict_eq_some_iff.2 ⟨trivial,
    step_eq_some_iff.2 (.resume i t r hp)⟩, ?_⟩
  rw [World.stepsLeft, filter_working_settle w _ herase, World.stepsLeft, hone]
  simpa [Proc.stepsLeft] using hlt

/-- An install that is under way has a step to take. -/
theorem Underway.advance (h : Underway pre job w) (hbusy : ¬ Quiescent w) :
    ∃ a w', stepOn timeout w a = some w' ∧ w'.stepsLeft < w.stepsLeft := by
  cases h with
  | calling running r hone _ h =>
      cases r with
      | some r =>
          have htasks : ((Task.installStop job running).resume r).tasks = [.installPull job] := by
            cases r <;> rfl
          refine exists_resume_stepsLeft hone ?_
          rw [htasks]
          exact Nat.lt_succ_self 6
      | none =>
          by_cases hrun : w.engine.store.HasContainer running.adapterId
          · have hs : w.engine.store.exec (.stop running.adapterId) =
                some (w.engine.store.halt running.adapterId) :=
              if_neg (mt PodmanStore.not_hasContainer_iff.2 (not_not.2 hrun))
            exact exists_exec_stepsLeft .done hone rfl trivial
              (Engine.exec_ok hs ()) (Nat.succ_pos 3)
          · have hs : w.engine.store.exec (.stop running.adapterId) = none :=
              if_pos (PodmanStore.not_hasContainer_iff.1 hrun)
            exact exists_exec_stepsLeft (.failed ⟨"no such container"⟩) hone rfl trivial
              (Engine.exec_error hs _) (Nat.succ_pos 3)
  | ended hnone _ => exact absurd (quiescent_iff.2 hnone) hbusy
  | atWork p hone _ _ hcourse =>
      cases hcourse with
      | pulling h =>
          exact exists_exec_stepsLeft .done hone rfl rfl (Engine.exec_ok rfl ())
            (Nat.succ_pos 2)
      | inspecting h himg =>
          have hs : w.engine.store.exec (.inspectDigest job.imageRef) = some w.engine.store :=
            if_pos himg
          exact exists_exec_stepsLeft (.digest job.checksumSha256) hone rfl rfl
            (Engine.exec_ok hs job.checksumSha256) Nat.two_pos
      | starting h =>
          by_cases htaken : w.engine.store.HasContainer job.adapterId
          · have hs : w.engine.store.exec (.run job.adapterId job.imageRef) = none :=
              if_neg (mt PodmanStore.not_hasContainer_iff.2 (not_not.2 htaken))
            exact exists_exec_stepsLeft (.failed ⟨"the name is in use"⟩) hone rfl
              (.inr htaken) (Engine.exec_error hs _) Nat.one_pos
          · have hs : w.engine.store.exec (.run job.adapterId job.imageRef) = some _ :=
              if_pos (PodmanStore.not_hasContainer_iff.1 htaken)
            exact exists_exec_stepsLeft .done hone rfl (.inl rfl)
              (Engine.exec_ok hs ()) Nat.one_pos
      | pulled h himg => exact exists_resume_stepsLeft hone (Nat.lt_succ_self 4)
      | inspected h =>
          refine exists_resume_stepsLeft hone ?_
          rw [resume_installInspect_of_eq rfl]
          exact Nat.lt_succ_self 2
      | started h hnew => exact exists_resume_stepsLeft hone Nat.one_pos
      | refused h hold e => exact exists_resume_stepsLeft hone Nat.one_pos

/-- An install can always come to an end. -/
theorem Underway.reach_quiescent (h : Underway pre job w) :
    ∃ w', Lts.Reach (stepOn timeout) w w' ∧ Quiescent w' := by
  refine Lts.exists_reach_of_measure World.stepsLeft (fun s hs hbusy => ?_) h
  obtain ⟨a, s', hstep, hlt⟩ := hs.advance hbusy
  exact ⟨a, s', hstep, (hs.step hstep).1, hlt⟩

end StepsLeft

/-! ### Runs of installs -/

/-- When no install is under way, the containers are those of the jobs so far. -/
theorem Underway.containersOf {pre : List InstallJob} {job : InstallJob} {w : World Podman.engine}
    (h : Underway pre job w) (hquiescent : Quiescent w) :
    w.engine.store.ContainersOf w.created := by
  have hnone := quiescent_iff.1 hquiescent
  cases h with
  | calling running r hone =>
      rw [hnone] at hone
      cases hone
  | atWork p hone =>
      rw [hnone] at hone
      cases hone
  | ended _ h => exact h

/-- In a run of installs one after the other, one of them is under way or none is. -/
theorem exists_underway {timeout : ℕ} {clk : Clock} {w : World Podman.engine}
    (h : Lts.Reach (Lts.restrict (World.step timeout) InTurn) (World.init Podman.engine clk) w) :
    ∃ pre job, Underway pre job w := by
  refine h.invariant (I := fun w => ∃ pre job, Underway pre job w) ?_ fun w a w' hw hstep => ?_
  · refine ⟨[], ⟨"", "", ""⟩, .ended rfl fun name => ?_⟩
    exact iff_of_false Bool.false_ne_true (by simp [World.init])
  · obtain ⟨pre, job, hw⟩ := hw
    obtain ⟨hguard, hmove⟩ := Lts.restrict_eq_some_iff.1 hstep
    have hgoesOn : GoesOn w a → ∃ pre job, Underway pre job w' := fun hguard =>
      ⟨pre, job, (hw.step (Lts.restrict_eq_some_iff.2 ⟨hguard, hmove⟩)).1⟩
    cases a with
    | remove | offload | exec | resume | env | tick => exact hgoesOn hguard
    | install job' running =>
        obtain rfl := Option.some.inj ((Option.ite_none_right_eq_some.1 hmove).2)
        have hcont := hw.containersOf hguard
        by_cases hvalid : job'.Valid
        · exact ⟨w.created, job', (underway_install running hguard hcont hvalid).1⟩
        · -- the call is refused
          obtain ⟨hwrites, htasks, hcreated⟩ := installAdapter_of_not_valid running hvalid
          refine ⟨pre, job, .ended ?_ ?_⟩
          · rw [World.settle_procs, htasks, List.map_nil, List.append_nil]
            exact quiescent_iff.1 hguard
          · rw [World.settle_created, hcreated]
            exact (List.append_nil w.created).symm ▸ hcont

/-! ### The adapter requested last -/

/-- **An install succeeds exactly if the adapter is new**, in every run of installs one after the
other whose pulls and digests are in order, however containers exit in between. -/
theorem installSucceeds_iff {timeout : ℕ} {clk : Clock} {w w₁ : World Podman.engine}
    (h : Lts.Reach (Lts.restrict (World.step timeout) InTurn) (World.init Podman.engine clk) w)
    (hquiescent : Quiescent w) {job : InstallJob} {running : Option AdapterEntry}
    (hvalid : job.Valid) (hcall : w.step timeout (.install job running) = some w₁) :
    InstallSucceeds timeout w₁ job ↔ ∀ j ∈ w.created, j.adapterId ≠ job.adapterId := by
  obtain ⟨pre, job', hw⟩ := exists_underway h
  obtain rfl := Option.some.inj ((Option.ite_none_right_eq_some.1 hcall).2)
  obtain ⟨hunder, hbusy⟩ :=
    underway_install running hquiescent (hw.containersOf hquiescent) hvalid
  -- an install stays on its way
  have hkeep : ∀ {w₂}, Lts.Reach (stepOn timeout)
      ((w.issue job).settle w.procs (installAdapter job running)) w₂ → Underway w.created job w₂ :=
    fun hreach => hreach.invariant hunder fun s a s' hs hstep => (hs.step hstep).1
  constructor
  · rintro ⟨hends, hfinishes⟩
    obtain ⟨w', hreach, hdone⟩ := hfinishes _ .refl
    obtain ⟨w₂, a, w₃, hreach₂, hbusy₂, hstep, hdone₃⟩ := hreach.exists_enters hbusy hdone
    have hrunning := hends w₂ a w₃ hreach₂ hbusy₂ hstep hdone₃
    exact (((hkeep hreach₂).step hstep).2 hbusy₂ hdone₃).1 hrunning
  · intro hnew
    refine ⟨fun w₂ a w₃ hreach hbusy₂ hstep hdone => ?_, fun w₂ hreach => ?_⟩
    · exact (((hkeep hreach).step hstep).2 hbusy₂ hdone).2 hnew
    · exact (hkeep hreach).reach_quiescent

/-- The first adapter is installed, and a second one is requested. -/
def oneInstalled : List (Action Podman.engine) := [.install jobA none] ++ bringUp jobA 0 0

theorem installSucceeds_oneInstalled :
    ∃ w w₁, Lts.run (Lts.restrict (World.step 0) InTurn) (World.init Podman.engine ⟨0, 0⟩)
        oneInstalled = some w ∧
      w.step 0 (.install jobB (some { jobA.entry with state := .running })) = some w₁ ∧
      InstallSucceeds 0 w₁ jobB := by
  have hrun : (Lts.run (Lts.restrict (World.step 0) InTurn)
      (World.init Podman.engine ⟨0, 0⟩) oneInstalled).map (fun w =>
        decide (Quiescent w ∧ (∀ j ∈ w.created, j.adapterId ≠ jobB.adapterId) ∧
          (w.step 0 (.install jobB (some { jobA.entry with state := .running }))).isSome = true)) =
      some true := by
    decide +kernel
  obtain ⟨w, hw, hdec⟩ := Option.map_eq_some_iff.1 hrun
  obtain ⟨hquiescent, hnew, hsome⟩ := of_decide_eq_true hdec
  obtain ⟨w₁, hw₁⟩ := Option.isSome_iff_exists.1 hsome
  exact ⟨w, w₁, hw, hw₁,
    (installSucceeds_iff (Lts.reach_of_run hw) hquiescent (by decide +kernel) hw₁).2 hnew⟩

/-- The adapter of `jobA` is requested again. -/
def jobAgain : InstallJob := ⟨"job-a-later", "registry/a:1", "sum-a"⟩

/-- The second install stops the adapter and cannot start a container of the same name. -/
def nameInUse : List (Action Podman.engine) :=
  [.exec 1 .done, .resume 1, .exec 1 .done, .resume 1, .exec 1 (.digest "sum-a"), .resume 1,
    .exec 1 (.failed ⟨"the container name is already in use"⟩)]

/-- **An adapter that is installed a second time does not run.** -/
theorem second_install_not_running :
    ¬ ∀ (timeout : ℕ) (clk : Clock) (w w₁ : World Podman.engine),
      Lts.Reach (Lts.restrict (World.step timeout) InTurn) (World.init Podman.engine clk) w →
        Quiescent w → ∀ (job : InstallJob) (running : Option AdapterEntry), job.Valid →
          w.step timeout (.install job running) = some w₁ → InstallSucceeds timeout w₁ job := by
  intro hall
  have hrun : ((Lts.run (Lts.restrict (World.step 0) InTurn)
      (World.init Podman.engine ⟨0, 0⟩) oneInstalled).map fun w =>
        decide (Quiescent w ∧
          ((w.step 0 (.install jobAgain (some { jobA.entry with state := .running }))).bind
            fun w₁ => (Lts.run (stepOn 0) w₁ nameInUse).bind fun w₂ =>
              (stepOn 0 w₂ (.resume 1)).map fun w₃ => decide (¬ Quiescent w₂ ∧ Quiescent w₃ ∧
                w₃.sm.stateAt "a-1" = some .error)) = some true)) = some true := by
    decide +kernel
  obtain ⟨w, hw, hdec⟩ := Option.map_eq_some_iff.1 hrun
  obtain ⟨hquiescent, hsecond⟩ := of_decide_eq_true hdec
  obtain ⟨w₁, hw₁, hsecond⟩ := Option.bind_eq_some_iff.1 hsecond
  obtain ⟨w₂, hw₂, hsecond⟩ := Option.bind_eq_some_iff.1 hsecond
  obtain ⟨w₃, hw₃, hdec₃⟩ := Option.map_eq_some_iff.1 hsecond
  obtain ⟨hbusy, hdone, hstate⟩ := of_decide_eq_true hdec₃
  obtain ⟨hends, -⟩ := hall 0 ⟨0, 0⟩ w w₁ (Lts.reach_of_run hw) hquiescent jobAgain
    (some { jobA.entry with state := .running }) (by decide +kernel) hw₁
  have hrunning := hends w₂ (.resume 1) w₃ (Lts.reach_of_run hw₂) hbusy hw₃ hdone
  have hid : jobAgain.adapterId = "a-1" := by decide +kernel
  rw [hid, hstate] at hrunning
  cases hrunning

end UpdateService
