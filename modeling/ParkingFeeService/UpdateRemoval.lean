/-
**Removing an adapter.**

A removal stops a running container, deletes it and deletes its image, in this order, and gives up
at the first command that fails.  It takes the container and the image for granted: after a failed
download there is no container, after a failed stop it is still running, and a removal or an offload
that got as far as the image has left no container for the next attempt.

If every move of an adapter to `running`, `stopped` or `error` finds its container and image in
order, or another task at work on it, then every adapter can be removed whenever no call, task or
cycle is in flight.

Main definitions:

* `UpdateService.RemovalSucceeds` — a removal that is left alone succeeds;
* `UpdateService.OnTrack`, `UpdateService.Removing` — a removal on its way.

Main results:

* `UpdateService.Removing.step` — a removal that is left alone stays on its way;
* `UpdateService.removable_of_keepsIntact` — every adapter can be removed, under the side condition;
* `UpdateService.failed_pull_not_removable` — an adapter that cannot be removed.
-/

import ParkingFeeService.UpdateContainers
import ParkingFeeService.UpdateIntact

set_option relaxedAutoImplicit false
set_option autoImplicit false

namespace UpdateService

/-! ### A removal that is left alone -/

/-- The task is more than a monitor. -/
def Proc.working (p : Proc) : Bool :=
  match p.task with
  | .monitorWait _ => false
  | _ => true

theorem quiescent_iff {P : Podman} {w : World P} :
    Quiescent w ↔ w.procs.filter Proc.working = [] := by
  rw [List.filter_eq_nil_iff]
  refine forall₂_congr fun p _ => ?_
  obtain ⟨t, r⟩ := p
  cases t <;> simp [Proc.working]

/-- When only monitors stay blocked, the tasks at work are those that a turn starts. -/
theorem filter_working_settle {P : Podman} (w : World P) {others : List Proc} (turn : Turn)
    (hnone : others.filter Proc.working = []) :
    (w.settle others turn).procs.filter Proc.working =
      (turn.tasks.map Proc.start).filter Proc.working := by
  rw [World.settle_procs, List.filter_append, hnone, List.nil_append]

/-- The step begins no call and no offload cycle, and no outage. -/
def Alone (_ : World Podman.engine) : Action Podman.engine → Prop
  | .install _ _ | .remove _ | .offload _ | .env (.outage _) => False
  | .exec _ _ | .resume _ | .env (.exit _) | .tick _ => True

instance (w : World Podman.engine) : (a : Action Podman.engine) → Decidable (Alone w a)
  | .install _ _ | .remove _ | .offload _ | .env (.outage _) => isFalse id
  | .exec _ _ | .resume _ | .env (.exit _) | .tick _ => isTrue trivial

/-- The steps of a removal and of what happens on its own. -/
abbrev stepAlone (timeout : ℕ) :
    World Podman.engine → Action Podman.engine → Option (World Podman.engine) :=
  Lts.restrict (World.step timeout) Alone

/-- A removal that is left alone succeeds: however it goes on, when nothing is in flight any more
the entry is gone and the call has been answered so; and it does come to an end. -/
def RemovalSucceeds (timeout : ℕ) (w : World Podman.engine) (id : String) : Prop :=
  ∃ w₁, w.step timeout (.remove id) = some w₁ ∧
    (∀ w', Lts.Reach (stepAlone timeout) w₁ w' → Quiescent w' →
      w'.sm.getAdapter id = none ∧ w'.responses = w.responses ++ [.removed id]) ∧
    ∃ w', Lts.Reach (stepAlone timeout) w₁ w' ∧ Quiescent w'

/-! ### On the way -/

/-- What podman is like at the await points of a removal that succeeds. -/
inductive OnTrack (s : PodmanStore) (id : String) (adapter : AdapterEntry) : Proc → Prop
  | stopping (h : s.Intact id adapter.imageRef .running) :
      OnTrack s id adapter ⟨.removeStop id adapter, none⟩
  | stopped (h : s.Intact id adapter.imageRef .stopped) :
      OnTrack s id adapter ⟨.removeStop id adapter, some (.ok ())⟩
  | deleting (h : s.Intact id adapter.imageRef .stopped) :
      OnTrack s id adapter ⟨.removeRm id adapter, none⟩
  | deleted (hnone : s.containers.lookup id = none) (himg : adapter.imageRef ∈ s.images) :
      OnTrack s id adapter ⟨.removeRm id adapter, some (.ok ())⟩
  | discarding (hnone : s.containers.lookup id = none) (himg : adapter.imageRef ∈ s.images) :
      OnTrack s id adapter ⟨.removeRmi id adapter, none⟩
  | discarded : OnTrack s id adapter ⟨.removeRmi id adapter, some (.ok ())⟩

theorem OnTrack.halt {s : PodmanStore} {id : String} {adapter : AdapterEntry} {p : Proc}
    (h : OnTrack s id adapter p) (name : String) : OnTrack (s.halt name) id adapter p := by
  have himages := s.images_halt name
  have hlookup : s.containers.lookup id = none → (s.halt name).containers.lookup id = none := by
    rw [← PodmanStore.not_hasContainer_iff, ← PodmanStore.not_hasContainer_iff,
      PodmanStore.hasContainer_halt]
    exact fun hnone => hnone
  cases h with
  | stopping h => exact .stopping (h.halt name)
  | stopped h => exact .stopped (h.halt name)
  | deleting h => exact .deleting (h.halt name)
  | deleted hnone himg => exact .deleted (hlookup hnone) (himages ▸ himg)
  | discarding hnone himg => exact .discarding (hlookup hnone) (himages ▸ himg)
  | discarded => exact .discarded

/-- A removal is on its way and nothing else is in flight, or it has succeeded. -/
structure Removing (id : String) (adapter : AdapterEntry) (responses : List Response)
    (w : World Podman.engine) : Prop where
  outage : w.engine.outage = false
  named : w.engine.store.Named
  phase : (∃ p, w.procs.filter Proc.working = [p] ∧ OnTrack w.engine.store id adapter p ∧
      w.responses = responses) ∨
    (w.procs.filter Proc.working = [] ∧ w.sm.getAdapter id = none ∧
      w.responses = responses ++ [.removed id])

section Removing

variable {id : String} {adapter : AdapterEntry} {responses : List Response}
  {w : World Podman.engine} {i : ℕ} {t : Task} {r : Reply t.cmd}

/-- A reliable command that can be carried out succeeds. -/
theorem Engine.store_of_exec {g g' : Engine} {c : Cmd} {r : Reply c} {s : PodmanStore}
    (hout : g.outage = false) (hc : c.reliable = true) (hs : g.store.exec c = some s)
    (h : g.exec c r = some g') : (∃ out, r = .ok out) ∧ g'.store = s := by
  obtain ⟨-, ⟨hr, hexec⟩ | ⟨-, -, hfail⟩⟩ := Engine.exec_cases h
  · exact ⟨hr, Option.some.inj (hexec.symm.trans hs)⟩
  · rw [hout, hc, hs] at hfail
    simp at hfail

/-- A command of the removal is carried out. -/
theorem OnTrack.exec {g g' : Engine} (hid : deriveAdapterId adapter.imageRef = id)
    (hout : g.outage = false) (hnamed : g.store.Named)
    (h : OnTrack g.store id adapter ⟨t, none⟩) (hexec : g.exec t.cmd r = some g') :
    OnTrack g'.store id adapter ⟨t, some r⟩ := by
  cases h with
  | stopping h =>
      obtain ⟨s, hs, hstopped⟩ := h.exec_stop
      obtain ⟨⟨out, rfl⟩, rfl⟩ := Engine.store_of_exec hout rfl hs hexec
      exact .stopped hstopped
  | deleting h =>
      obtain ⟨s, hs, hnone, himg⟩ := h.exec_rm
      obtain ⟨⟨out, rfl⟩, rfl⟩ := Engine.store_of_exec hout rfl hs hexec
      exact .deleted hnone himg
  | discarding hnone himg =>
      obtain ⟨s, hs⟩ := PodmanStore.exec_rmi hnamed himg (hid.symm ▸ hnone)
      obtain ⟨⟨out, rfl⟩, rfl⟩ := Engine.store_of_exec hout rfl hs hexec
      exact .discarded

/-- A task that is no more than a monitor. -/
theorem exists_monitorWait (h : Proc.working ⟨t, none⟩ = false) : ∃ job, t = .monitorWait job := by
  cases t with
  | monitorWait job => exact ⟨job, rfl⟩
  | installStop | installPull | installInspect | installRmi | installRun | removeStop | removeRm
  | removeRmi | offloadRm | offloadRmi => cases h

/-- Waiting for a container changes nothing. -/
theorem Engine.exec_wait {g g' : Engine} {name : String} {r : Reply (.wait name)}
    (h : g.exec (.wait name) r = some g') : g' = g := by
  obtain ⟨hout, ⟨-, hexec⟩ | ⟨-, heq, -⟩⟩ := Engine.exec_cases h
  · obtain ⟨-, hstore⟩ := Option.ite_none_left_eq_some.1 hexec
    cases g
    cases g'
    simp_all
  · exact heq

/-- A transition creates no entry. -/
theorem getAdapter_transition_none {clk : Clock} {sm : StateManager} (h : sm.getAdapter id = none)
    (id' : String) (st : AdapterState) (msg : Option String) :
    ((Write.transition id' st msg).apply clk sm).getAdapter id = none := by
  rw [Write.apply, StateManager.getAdapter_keepTransition]
  split
  · next heq => rw [← heq, h]; rfl
  · exact h

/-- One of the tasks in flight has its command carried out. -/
theorem Removing.exec (hid : deriveAdapterId adapter.imageRef = id)
    (h : Removing id adapter responses w) {g : Engine} (hp : w.procs[i]? = some ⟨t, none⟩)
    (hg : w.engine.exec t.cmd r = some g) :
    Removing id adapter responses
      { w with procs := w.procs.set i ⟨t, some r⟩, podman := g } := by
  cases hwork : Proc.working ⟨t, none⟩ with
  | false =>
      obtain ⟨job, rfl⟩ := exists_monitorWait hwork
      obtain rfl := Engine.exec_wait hg
      have hfilter := (Pool.filter_of_neg hp hwork).2 ⟨.monitorWait job, some r⟩ rfl
      refine ⟨h.outage, h.named, ?_⟩
      rcases h.phase with ⟨p, hone, htrack, hresp⟩ | ⟨hnone, hgone, hresp⟩
      · exact .inl ⟨p, hfilter.trans hone, htrack, hresp⟩
      · exact .inr ⟨hfilter.trans hnone, hgone, hresp⟩
  | true =>
      have hwork' : Proc.working ⟨t, some r⟩ = true := hwork
      rcases h.phase with ⟨p, hone, htrack, hresp⟩ | ⟨hnone, -⟩
      · obtain ⟨rfl, -, hset⟩ := Pool.filter_of_singleton hp hwork hone
        have htrack' := htrack.exec hid h.outage h.named hg
        refine ⟨(Engine.exec_cases hg).1.trans h.outage, ?_,
          .inl ⟨_, hset _ hwork', htrack', hresp⟩⟩
        obtain ⟨-, ⟨-, hexec⟩ | ⟨-, rfl, -⟩⟩ := Engine.exec_cases hg
        · exact h.named.exec hexec fun name ref => named_of_cmd
        · exact h.named
      · exact absurd hwork (List.filter_eq_nil_iff.1 hnone _ (List.mem_of_getElem? hp))

/-- One of the tasks in flight picks up its result. -/
theorem Removing.resume (h : Removing id adapter responses w)
    (hp : w.procs[i]? = some ⟨t, some r⟩) :
    Removing id adapter responses (w.settle (w.procs.eraseIdx i) (t.resume r)) := by
  cases hwork : Proc.working ⟨t, some r⟩ with
  | false =>
      obtain ⟨job, rfl⟩ := exists_monitorWait hwork
      obtain ⟨st, msg, -, hturn⟩ := resume_monitorWait job r
      have hfilter := (Pool.filter_of_neg hp hwork).1
      rw [hturn]
      refine ⟨h.outage, h.named, ?_⟩
      simp only [World.settle_procs, List.map_nil, List.append_nil, hfilter]
      rcases h.phase with ⟨p, hone, htrack, hresp⟩ | ⟨hnone, hgone, hresp⟩
      · exact .inl ⟨p, hone, htrack, (List.append_nil _).trans hresp⟩
      · exact .inr ⟨hnone, getAdapter_transition_none hgone _ st msg,
          (List.append_nil _).trans hresp⟩
  | true =>
      rcases h.phase with ⟨p, hone, htrack, hresp⟩ | ⟨hnone, -⟩
      · obtain ⟨rfl, herase, -⟩ := Pool.filter_of_singleton hp hwork hone
        have hprocs := fun turn => filter_working_settle w turn herase
        refine ⟨h.outage, h.named, ?_⟩
        cases htrack with
        | stopped h => exact .inl ⟨_, hprocs _, .deleting h, (List.append_nil _).trans hresp⟩
        | deleted hnone himg =>
            exact .inl ⟨_, hprocs _, .discarding hnone himg, (List.append_nil _).trans hresp⟩
        | discarded =>
            refine .inr ⟨hprocs _, ?_, ?_⟩
            · exact (StateManager.getAdapter_keepRemove w.sm id id).trans (if_pos rfl)
            · exact congrArg (· ++ [Response.removed id]) hresp
      · exact absurd hwork (List.filter_eq_nil_iff.1 hnone _ (List.mem_of_getElem? hp))

/-- **A removal that is left alone stays on its way.** -/
theorem Removing.step {timeout : ℕ} {w' : World Podman.engine} {a : Action Podman.engine}
    (hid : deriveAdapterId adapter.imageRef = id) (h : Removing id adapter responses w)
    (hstep : stepAlone timeout w a = some w') : Removing id adapter responses w' := by
  obtain ⟨halone, hstep⟩ := Lts.restrict_eq_some_iff.1 hstep
  cases step_eq_some_iff.1 hstep with
  | install | remove | offload => exact halone.elim
  | exec i answer t r s hp _ hs => exact h.exec hid hp hs
  | resume i t r hp => exact h.resume hp
  | env e s hs =>
      cases e with
      | outage on => exact halone.elim
      | exit name =>
          obtain ⟨-, hs⟩ := Option.ite_none_right_eq_some.1 hs
          cases hs
          refine ⟨h.outage, h.named.halt name, ?_⟩
          rcases h.phase with ⟨p, hone, htrack, hresp⟩ | hdone
          · exact .inl ⟨p, hone, htrack.halt name, hresp⟩
          · exact .inr hdone
  | tick clk _ => exact ⟨h.outage, h.named, h.phase⟩

end Removing

/-! ### A removal comes to an end -/

/-- The last task of the pool has its command carried out and picks up the result. -/
theorem reach_carriedOut {timeout : ℕ} {w : World Podman.engine} {procs : List Proc} {t : Task}
    {s : PodmanStore} {answer : Answer} {out : t.cmd.Out}
    (hprocs : w.procs = procs ++ [Proc.start t]) (hanswer : answer.toReply t.cmd = some (.ok out))
    (hs : w.engine.store.exec t.cmd = some s) :
    ∃ w', Lts.Reach (stepAlone timeout) w w' ∧
      w'.procs = procs ++ (t.resume (.ok out)).tasks.map Proc.start ∧ w'.engine.store = s := by
  have hget : w.procs[procs.length]? = some (Proc.start t) := by simp [hprocs]
  have hexec : Podman.engine.exec t.cmd (.ok out) w.podman = some { w.engine with store := s } :=
    Engine.exec_ok hs out
  let w₁ : World Podman.engine :=
    { w with
      procs := w.procs.set procs.length ⟨t, some (.ok out)⟩
      podman := { w.engine with store := s } }
  have hset : w₁.procs = procs ++ [⟨t, some (.ok out)⟩] := by simp [w₁, hprocs]
  have hstep₁ : stepAlone timeout w (.exec procs.length answer) = some w₁ :=
    Lts.restrict_eq_some_iff.2 ⟨trivial,
      step_eq_some_iff.2 (.exec procs.length answer t (.ok out) _ hget hanswer hexec)⟩
  have hstep₂ : stepAlone timeout w₁ (.resume procs.length) =
      some (w₁.settle (w₁.procs.eraseIdx procs.length) (t.resume (.ok out))) :=
    Lts.restrict_eq_some_iff.2 ⟨trivial,
      step_eq_some_iff.2 (.resume procs.length t (.ok out) (by simp [hset]))⟩
  refine ⟨_, (Lts.Reach.refl.tail _ hstep₁).tail _ hstep₂, ?_, rfl⟩
  rw [World.settle_procs, hset, List.eraseIdx_append_of_length_le le_rfl, Nat.sub_self,
    List.eraseIdx_zero, List.tail_cons, List.append_nil]

/-- A removal that is about to delete the container comes to an end. -/
theorem reach_of_removeRm {timeout : ℕ} {w : World Podman.engine} {procs : List Proc} {id : String}
    {adapter : AdapterEntry} (hid : deriveAdapterId adapter.imageRef = id)
    (hprocs : w.procs = procs ++ [Proc.start (.removeRm id adapter)])
    (hnamed : w.engine.store.Named) (h : w.engine.store.Intact id adapter.imageRef .stopped) :
    ∃ w', Lts.Reach (stepAlone timeout) w w' ∧ w'.procs = procs := by
  obtain ⟨s, hs, hnone, himg⟩ := h.exec_rm
  obtain ⟨w₁, hreach₁, hprocs₁, rfl⟩ :=
    @reach_carriedOut timeout w procs (.removeRm id adapter) s .done () hprocs rfl hs
  have hnamed₁ : w₁.engine.store.Named :=
    hnamed.exec hs fun name ref hcmd => by cases hcmd
  obtain ⟨s', hs'⟩ := PodmanStore.exec_rmi hnamed₁ himg (hid.symm ▸ hnone)
  obtain ⟨w₂, hreach₂, hprocs₂, -⟩ :=
    @reach_carriedOut timeout w₁ procs (.removeRmi id adapter) s' .done () hprocs₁ rfl hs'
  exact ⟨w₂, hreach₁.trans hreach₂, by simpa [Task.resume] using hprocs₂⟩

/-- A removal that is about to stop the container comes to an end. -/
theorem reach_of_removeStop {timeout : ℕ} {w : World Podman.engine} {procs : List Proc}
    {id : String} {adapter : AdapterEntry} (hid : deriveAdapterId adapter.imageRef = id)
    (hprocs : w.procs = procs ++ [Proc.start (.removeStop id adapter)])
    (hnamed : w.engine.store.Named) (h : w.engine.store.Intact id adapter.imageRef .running) :
    ∃ w', Lts.Reach (stepAlone timeout) w w' ∧ w'.procs = procs := by
  obtain ⟨s, hs, hstopped⟩ := h.exec_stop
  obtain ⟨w₁, hreach₁, hprocs₁, rfl⟩ :=
    @reach_carriedOut timeout w procs (.removeStop id adapter) s .done () hprocs rfl hs
  have hnamed₁ : w₁.engine.store.Named :=
    hnamed.exec hs fun name ref hcmd => by cases hcmd
  obtain ⟨w₂, hreach₂, hprocs₂⟩ := reach_of_removeRm hid hprocs₁ hnamed₁ hstopped
  exact ⟨w₂, hreach₁.trans hreach₂, hprocs₂⟩

/-! ### Every adapter -/

/-- An adapter whose container and image podman has can be removed. -/
theorem removalSucceeds_of_intact {timeout : ℕ} {w : World Podman.engine} {id : String}
    {e : AdapterEntry} (hquiescent : Quiescent w) (hout : w.engine.outage = false)
    (hnamed : w.engine.store.Named) (he : w.sm.getAdapter id = some e)
    (hid : deriveAdapterId e.imageRef = id) (h : w.engine.store.Intact id e.imageRef e.state) :
    RemovalSucceeds timeout w id := by
  have hnone := quiescent_iff.1 hquiescent
  -- the first await point of the removal, and podman at it
  obtain ⟨t, hturn, htrack, hend⟩ : ∃ t, removeAdapter id (some e) = { tasks := [t] } ∧
      OnTrack w.engine.store id e (Proc.start t) ∧
      ∀ w₁ : World Podman.engine, w₁.procs = w.procs ++ [Proc.start t] →
        w₁.engine = w.engine →
          ∃ w', Lts.Reach (stepAlone timeout) w₁ w' ∧ w'.procs = w.procs := by
    by_cases hrun : e.state = .running
    · rw [hrun] at h
      refine ⟨.removeStop id e, by simp [removeAdapter, hrun], .stopping h, ?_⟩
      intro w₁ hprocs hengine
      exact reach_of_removeStop hid hprocs (hengine ▸ hnamed) (hengine ▸ h)
    · have hstopped : w.engine.store.Intact id e.imageRef .stopped := by
        obtain ⟨c, hc, hstill, himg⟩ := h
        exact ⟨c, hc, fun hc' => absurd (hstill hc') hrun, himg⟩
      refine ⟨.removeRm id e, by simp [removeAdapter, hrun], .deleting hstopped, ?_⟩
      intro w₁ hprocs hengine
      exact reach_of_removeRm hid hprocs (hengine ▸ hnamed) (hengine ▸ hstopped)
  have hstep : w.step timeout (.remove id) = some (w.settle w.procs { tasks := [t] }) := by
    rw [World.step, he, hturn]
  have hworking : Proc.working (Proc.start t) = true := by
    cases htrack <;> rfl
  have hremoving : Removing id e w.responses (w.settle w.procs { tasks := [t] }) := by
    refine ⟨hout, hnamed, .inl ⟨Proc.start t, ?_, htrack, List.append_nil _⟩⟩
    rw [filter_working_settle w _ hnone]
    simp [hworking]
  refine ⟨_, hstep, fun w' hreach hq => ?_, ?_⟩
  · have hinv := hreach.invariant hremoving fun s a s' hs hstep => hs.step hid hstep
    rcases hinv.phase with ⟨p, hone, -⟩ | ⟨-, hgone, hresp⟩
    · rw [quiescent_iff.1 hq] at hone
      cases hone
    · exact ⟨hgone, hresp⟩
  · obtain ⟨w', hreach, hprocs⟩ := hend (w.settle w.procs { tasks := [t] }) rfl rfl
    exact ⟨w', hreach, quiescent_iff.2 (hprocs ▸ hnone)⟩

/-- **Every adapter can be removed** when nothing but monitors is in flight and podman works, in
every run in which a move to `running`, `stopped` or `error` finds the adapter's container and image
in order or another task at work on the adapter, and no image is deleted after a checksum mismatch
that is that of an adapter nobody works on. -/
theorem removable_of_keepsIntact {timeout : ℕ} {clk : Clock} {w : World Podman.engine}
    (h : Lts.Reach (Lts.restrict (World.step timeout) KeepsIntact)
      (World.init Podman.engine clk) w)
    (hquiescent : Quiescent w) (hout : w.engine.outage = false) {id : String} {e : AdapterEntry}
    (he : w.sm.getAdapter id = some e) : RemovalSucceeds timeout w id := by
  have hinv : Kept w := by
    refine h.invariant (kept_init clk) fun s a s' hs hstep => ?_
    obtain ⟨hguard, hstep⟩ := Lts.restrict_eq_some_iff.1 hstep
    exact hs.step hguard hstep
  rcases hinv.intact id e he with hwork | hintact
  · obtain ⟨p, hp, hid⟩ := atWork_tasksOf.1 hwork
    obtain ⟨job, htask⟩ := hquiescent p hp
    rw [htask] at hid
    cases hid
  · exact removalSucceeds_of_intact hquiescent hout hinv.named he (hinv.entries id e he) hintact

/-- One adapter after the other: the second install stops the first adapter. -/
def bothInstalled : List (Action Podman.engine) :=
  [.install jobA none] ++ bringUp jobA 0 0 ++
    [.install jobB (some { jobA.entry with state := .running }), .exec 1 .done, .resume 1] ++
    bringUp jobB 1 1

theorem removable_of_bothInstalled :
    ∃ w, Lts.run (Lts.restrict (World.step 0) KeepsIntact) (World.init Podman.engine ⟨0, 0⟩)
        bothInstalled = some w ∧ RemovalSucceeds 0 w "a-1" := by
  have hrun : (Lts.run (Lts.restrict (World.step 0) KeepsIntact)
      (World.init Podman.engine ⟨0, 0⟩) bothInstalled).map (fun w =>
        decide (Quiescent w ∧ w.engine.outage = false ∧ (w.sm.getAdapter "a-1").isSome = true)) =
          some true := by
    decide +kernel
  obtain ⟨w, hw, hdec⟩ := Option.map_eq_some_iff.1 hrun
  obtain ⟨hquiescent, hout, hsome⟩ := of_decide_eq_true hdec
  obtain ⟨e, he⟩ := Option.isSome_iff_exists.1 hsome
  exact ⟨w, hw, removable_of_keepsIntact (Lts.reach_of_run hw) hquiescent hout he⟩

/-- The download of an adapter fails. -/
def failedPull : List (Action Podman.engine) :=
  [.install jobA none, .exec 0 (.failed ⟨"no network"⟩), .resume 0]

/-- A removal of the adapter finds no container. -/
def noContainer : List (Action Podman.engine) :=
  [.exec 0 (.failed ⟨"no such container"⟩), .resume 0]

/-- **After a failed download the adapter cannot be removed.** -/
theorem failed_pull_not_removable :
    ¬ ∀ (timeout : ℕ) (clk : Clock) (w : World Podman.engine),
      Lts.Reach (World.step timeout) (World.init Podman.engine clk) w → Quiescent w →
        w.engine.outage = false → ∀ id e, w.sm.getAdapter id = some e →
          RemovalSucceeds timeout w id := by
  intro hall
  have hrun : (Lts.run (World.step 0) (World.init Podman.engine ⟨0, 0⟩) failedPull).map (fun w =>
      decide (Quiescent w ∧ w.engine.outage = false ∧ (w.sm.getAdapter "a-1").isSome = true ∧
        ((w.step 0 (.remove "a-1")).bind fun w₁ => Lts.run (stepAlone 0) w₁ noContainer).map
          (fun w' => decide (Quiescent w' ∧ (w'.sm.getAdapter "a-1").isSome = true)) =
            some true)) = some true := by
    decide +kernel
  obtain ⟨w, hw, hdec⟩ := Option.map_eq_some_iff.1 hrun
  obtain ⟨hquiescent, hout, hsome, hremoval⟩ := of_decide_eq_true hdec
  obtain ⟨e, he⟩ := Option.isSome_iff_exists.1 hsome
  obtain ⟨w₁, hstep, hall, -⟩ := hall 0 ⟨0, 0⟩ w (Lts.reach_of_run hw) hquiescent hout "a-1" e he
  rw [hstep, Option.bind_some] at hremoval
  obtain ⟨w', hw', hdec'⟩ := Option.map_eq_some_iff.1 hremoval
  obtain ⟨hquiescent', hsome'⟩ := of_decide_eq_true hdec'
  obtain ⟨hnone, -⟩ := hall w' (Lts.reach_of_run hw') hquiescent'
  rw [hnone] at hsome'
  cases hsome'

end UpdateService
