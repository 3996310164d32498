/-
**An offload cycle that is left alone.**

The offload timer takes the adapters that have been stopped for long enough, one after the other:
it deletes the container, deletes the image and forgets the entry.  While it works, the monitors of
containers that have exited may still write to the map.

If podman is in order when the timer fires and nothing else is begun, the cycle comes to an end
whatever the order in which the map yields its candidates, and then exactly the candidates are gone:
their entries, their containers and their images.  Every other entry is still that of the same
installation, and no other container or image is missed.

Main definitions:

* `UpdateService.AdapterEntry.job` — the installation that an entry belongs to;
* `UpdateService.Offloaded`, `UpdateService.OffloadSucceeds` — what the cycle leaves behind;
* `UpdateService.PodmanStore.Without` — a podman that lacks some containers and images;
* `UpdateService.Reclaiming`, `UpdateService.Cycle` — a cycle on its way.

Main results:

* `UpdateService.Cycle.step` — a cycle that is left alone stays on its way;
* `UpdateService.offload_left_alone` — it succeeds.
-/

import ParkingFeeService.UpdateRemoval

set_option relaxedAutoImplicit false
set_option autoImplicit false

namespace UpdateService

/-! ### What a cycle leaves behind -/

/-- The installation that an entry belongs to. -/
def AdapterEntry.job (e : AdapterEntry) : InstallJob := ⟨e.jobId, e.imageRef, e.checksumSha256⟩

/-- The installation that is known under an id. -/
def StateManager.jobAt (sm : StateManager) (id : String) : Option InstallJob :=
  (sm.getAdapter id).map AdapterEntry.job

/-- A transition does not change which installation an entry belongs to. -/
theorem jobAt_transition (clk : Clock) (sm : StateManager) (id' : String) (st : AdapterState)
    (msg : Option String) (id : String) :
    ((Write.transition id' st msg).apply clk sm).jobAt id = sm.jobAt id := by
  rw [StateManager.jobAt, Write.apply, StateManager.getAdapter_keepTransition]
  split
  · next hid =>
      rw [hid, Option.map_map]
      rfl
  · rfl

theorem jobAt_remove (clk : Clock) (sm : StateManager) (id' id : String) :
    ((Write.remove id').apply clk sm).jobAt id = if id = id' then none else sm.jobAt id := by
  rw [StateManager.jobAt, Write.apply, StateManager.getAdapter_keepRemove]
  split <;> rfl

/-- Of what there was before the cycle exactly the candidates are gone. -/
structure Offloaded (w : World Podman.engine) (candidates : List AdapterEntry)
    (w' : World Podman.engine) : Prop where
  gone : ∀ c ∈ candidates, w'.sm.getAdapter c.adapterId = none
  known : ∀ id, (∀ c ∈ candidates, c.adapterId ≠ id) → w'.sm.jobAt id = w.sm.jobAt id
  containers : ∀ name, w'.engine.store.HasContainer name ↔
    w.engine.store.HasContainer name ∧ ∀ c ∈ candidates, c.adapterId ≠ name
  images : ∀ ref, ref ∈ w'.engine.store.images ↔
    ref ∈ w.engine.store.images ∧ ∀ c ∈ candidates, c.imageRef ≠ ref
  responses : w'.responses = w.responses

/-- An offload cycle that is left alone succeeds: however it goes on, when nothing is in flight any
more exactly its candidates are gone; and it does come to an end. -/
def OffloadSucceeds (timeout : ℕ) (w : World Podman.engine) (candidates : List AdapterEntry) :
    Prop :=
  ∃ w₁, w.step timeout (.offload candidates) = some w₁ ∧
    (∀ w', Lts.Reach (stepAlone timeout) w₁ w' → Quiescent w' → Offloaded w candidates w') ∧
    ∃ w', Lts.Reach (stepAlone timeout) w₁ w' ∧ Quiescent w'

/-! ### Containers and images that are deleted -/

namespace PodmanStore

variable {s₀ s s' : PodmanStore} {name imageRef : String} {names refs : List String}

/-- No image is stored twice. -/
def Distinct (s : PodmanStore) : Prop := s.images.Nodup

theorem Distinct.exec (h : s.Distinct) {c : Cmd} (hexec : s.exec c = some s') : s'.Distinct := by
  cases c with
  | pull ref =>
      cases hexec
      exact List.Nodup.insert h
  | run name ref =>
      obtain ⟨-, hexec⟩ := Option.ite_none_right_eq_some.1 hexec
      cases hexec
      exact List.Nodup.insert h
  | rmi ref =>
      obtain ⟨-, hexec⟩ := Option.ite_none_right_eq_some.1 hexec
      cases hexec
      exact List.Nodup.erase ref h
  | inspectDigest ref =>
      obtain ⟨-, hexec⟩ := Option.ite_none_right_eq_some.1 hexec
      cases hexec
      exact h
  | stop name =>
      obtain ⟨-, hexec⟩ := Option.ite_none_left_eq_some.1 hexec
      cases hexec
      rw [Distinct, images_halt]
      exact h
  | wait name =>
      obtain ⟨-, hexec⟩ := Option.ite_none_left_eq_some.1 hexec
      cases hexec
      exact h
  | rm name =>
      rw [PodmanStore.exec] at hexec
      split at hexec
      · cases hexec
        exact h
      · cases hexec

/-- The store lacks the containers of the given names and the given images, and nothing else. -/
structure Without (s₀ : PodmanStore) (names refs : List String) (s : PodmanStore) : Prop where
  containers : ∀ name, s.HasContainer name ↔ s₀.HasContainer name ∧ name ∉ names
  images : ∀ ref, ref ∈ s.images ↔ ref ∈ s₀.images ∧ ref ∉ refs

theorem Without.refl (s : PodmanStore) : s.Without [] [] s := ⟨by simp, by simp⟩

theorem Without.halt (h : s₀.Without names refs s) (name : String) :
    s₀.Without names refs (s.halt name) :=
  ⟨fun name' => (hasContainer_halt s name' name).trans (h.containers name'),
    fun ref => by rw [images_halt, h.images]⟩

/-- A container is deleted. -/
theorem Without.rm (h : s₀.Without names refs s) (hexec : s.exec (.rm name) = some s') :
    s₀.Without (names ++ [name]) refs s' := by
  refine ⟨fun name' => ?_, fun ref => ?_⟩
  · rw [HasContainer, lookup_exec hexec, containerAfter]
    by_cases hname : name' = name
    · simp [hname]
    · rw [if_neg hname]
      exact (h.containers name').trans (by simp [hname])
  · rw [PodmanStore.exec] at hexec
    split at hexec
    · cases hexec
      exact h.images ref
    · cases hexec

/-- An image is deleted. -/
theorem Without.rmi (h : s₀.Without names refs s) (hdistinct : s.Distinct)
    (hexec : s.exec (.rmi imageRef) = some s') : s₀.Without names (refs ++ [imageRef]) s' := by
  obtain ⟨-, hexec⟩ := Option.ite_none_right_eq_some.1 hexec
  cases hexec
  refine ⟨h.containers, fun ref => ?_⟩
  rw [List.Nodup.mem_erase_iff hdistinct, h.images, List.mem_append, List.mem_singleton]
  tauto

theorem mem_images_of_intact {st : AdapterState} (h : s.Intact name imageRef st) :
    imageRef ∈ s.images := by
  obtain ⟨-, -, -, himg⟩ := h
  exact himg

end PodmanStore

/-! ### On the way -/

/-- Podman has every candidate, stopped and under the name of its image, and no two of them have
the same id. -/
structure Reclaimable (s : PodmanStore) (candidates : List AdapterEntry) : Prop where
  wellNamed : ∀ c ∈ candidates, deriveAdapterId c.imageRef = c.adapterId
  intact : ∀ c ∈ candidates, s.Intact c.adapterId c.imageRef .stopped
  nodup : (candidates.map AdapterEntry.adapterId).Nodup

section Reclaimable

variable {s : PodmanStore} {gone rest : List AdapterEntry} {a : AdapterEntry}

theorem Reclaimable.adapterId_not_mem (h : Reclaimable s (gone ++ a :: rest)) :
    a.adapterId ∉ gone.map AdapterEntry.adapterId := by
  have hnodup := h.nodup
  rw [List.map_append, List.nodup_append] at hnodup
  intro hmem
  exact hnodup.2.2 _ hmem _ (List.mem_cons_self ..) rfl

/-- Two candidates with the same image would have the same id. -/
theorem Reclaimable.imageRef_not_mem (h : Reclaimable s (gone ++ a :: rest)) :
    a.imageRef ∉ gone.map AdapterEntry.imageRef := by
  intro hmem
  obtain ⟨c, hc, href⟩ := List.mem_map.1 hmem
  refine h.adapterId_not_mem (List.mem_map.2 ⟨c, hc, ?_⟩)
  rw [← h.wellNamed c (List.mem_append_left _ hc), href,
    h.wellNamed a (List.mem_append_right _ List.mem_cons_self)]

theorem Reclaimable.ne_of_mem (h : Reclaimable s (gone ++ a :: rest)) {c : AdapterEntry}
    (hc : c ∈ rest) : a.adapterId ≠ c.adapterId ∧ a.imageRef ≠ c.imageRef := by
  have hnodup := h.nodup
  rw [List.map_append, List.nodup_append, List.map_cons, List.nodup_cons] at hnodup
  have hid : a.adapterId ≠ c.adapterId := by
    intro heq
    exact hnodup.2.1.1 (List.mem_map.2 ⟨c, hc, heq.symm⟩)
  refine ⟨hid, fun href => hid ?_⟩
  rw [← h.wellNamed a (List.mem_append_right _ List.mem_cons_self), href,
    h.wellNamed c (List.mem_append_right _ (List.mem_cons_of_mem _ hc))]

end Reclaimable

/-- The ids of some adapters. -/
abbrev idsOf (l : List AdapterEntry) : List String := l.map AdapterEntry.adapterId

/-- The images of some adapters. -/
abbrev refsOf (l : List AdapterEntry) : List String := l.map AdapterEntry.imageRef

/-- Podman has all these adapters, stopped. -/
abbrev AllIntact (s : PodmanStore) (l : List AdapterEntry) : Prop :=
  ∀ c ∈ l, s.Intact c.adapterId c.imageRef .stopped

/-- What podman is like at the await points of a cycle: `gone` are the candidates that it is done
with, and the list after them is what it still has to do. -/
inductive Reclaiming (s₀ s : PodmanStore) (gone : List AdapterEntry) :
    List AdapterEntry → List Proc → Prop
  | finished (h : s₀.Without (idsOf gone) (refsOf gone) s) : Reclaiming s₀ s gone [] []
  | deleting (a : AdapterEntry) (rest : List AdapterEntry)
      (h : s₀.Without (idsOf gone) (refsOf gone) s) (hwait : AllIntact s (a :: rest)) :
      Reclaiming s₀ s gone (a :: rest) [⟨.offloadRm a rest, none⟩]
  | deleted (a : AdapterEntry) (rest : List AdapterEntry)
      (h : s₀.Without (idsOf (gone ++ [a])) (refsOf gone) s) (hwait : AllIntact s rest) :
      Reclaiming s₀ s gone (a :: rest) [⟨.offloadRm a rest, some (.ok ())⟩]
  | discarding (a : AdapterEntry) (rest : List AdapterEntry)
      (h : s₀.Without (idsOf (gone ++ [a])) (refsOf gone) s) (hwait : AllIntact s rest) :
      Reclaiming s₀ s gone (a :: rest) [⟨.offloadRmi a rest, none⟩]
  | discarded (a : AdapterEntry) (rest : List AdapterEntry)
      (h : s₀.Without (idsOf (gone ++ [a])) (refsOf (gone ++ [a])) s) (hwait : AllIntact s rest) :
      Reclaiming s₀ s gone (a :: rest) [⟨.offloadRmi a rest, some (.ok ())⟩]

section Reclaiming

variable {s₀ s : PodmanStore} {gone todo : List AdapterEntry} {procs : List Proc} {t : Task}
  {r : Reply t.cmd}

/-- A cycle is at one await point at a time. -/
theorem Reclaiming.eq_singleton (h : Reclaiming s₀ s gone todo procs) {p : Proc} (hp : p ∈ procs) :
    procs = [p] := by
  cases h with
  | finished => cases hp
  | deleting | deleted | discarding | discarded => rw [List.mem_singleton.1 hp]

/-- A container that exits. -/
theorem Reclaiming.halt (h : Reclaiming s₀ s gone todo procs) (name : String) :
    Reclaiming s₀ (s.halt name) gone todo procs := by
  cases h with
  | finished h => exact .finished (h.halt name)
  | deleting a rest h hwait =>
      exact .deleting a rest (h.halt name) fun c hc => (hwait c hc).halt name
  | deleted a rest h hwait =>
      exact .deleted a rest (h.halt name) fun c hc => (hwait c hc).halt name
  | discarding a rest h hwait =>
      exact .discarding a rest (h.halt name) fun c hc => (hwait c hc).halt name
  | discarded a rest h hwait =>
      exact .discarded a rest (h.halt name) fun c hc => (hwait c hc).halt name

/-- A command of the cycle is carried out: the candidates that wait for their turn have other names
and other images. -/
theorem Reclaiming.exec {g g' : Engine} (hcand : Reclaimable s₀ (gone ++ todo))
    (hout : g.outage = false) (hnamed : g.store.Named) (hdistinct : g.store.Distinct)
    (h : Reclaiming s₀ g.store gone todo [⟨t, none⟩]) (hexec : g.exec t.cmd r = some g') :
    Reclaiming s₀ g'.store gone todo [⟨t, some r⟩] := by
  cases h with
  | deleting a rest h hwait =>
      obtain ⟨s, hs, -⟩ := (hwait a List.mem_cons_self).exec_rm
      obtain ⟨⟨out, rfl⟩, rfl⟩ := Engine.store_of_exec hout rfl hs hexec
      refine .deleted a rest ?_ fun c hc => ?_
      · rw [idsOf, List.map_append]
        exact h.rm hs
      · have hne : a.adapterId ≠ c.adapterId := (hcand.ne_of_mem hc).1
        exact (hwait c (List.mem_cons_of_mem _ hc)).exec hs (by simp) (by simpa using hne)
          (by simp)
  | discarding a rest h hwait =>
      have ha : a ∈ gone ++ a :: rest := List.mem_append_right _ List.mem_cons_self
      have himg : a.imageRef ∈ g.store.images :=
        (h.images _).2 ⟨PodmanStore.mem_images_of_intact (hcand.intact a ha),
          hcand.imageRef_not_mem⟩
      have hnone : g.store.containers.lookup (deriveAdapterId a.imageRef) = none := by
        rw [hcand.wellNamed a ha, ← PodmanStore.not_hasContainer_iff, h.containers]
        simp
      obtain ⟨s, hs⟩ := PodmanStore.exec_rmi hnamed himg hnone
      obtain ⟨⟨out, rfl⟩, rfl⟩ := Engine.store_of_exec hout rfl hs hexec
      refine .discarded a rest ?_ fun c hc => ?_
      · rw [refsOf, List.map_append]
        exact h.rmi hdistinct hs
      · have hne : a.imageRef ≠ c.imageRef := (hcand.ne_of_mem hc).2
        exact (hwait c hc).exec hs (by simp) (by simp) (by simpa using hne)

end Reclaiming

/-- A cycle is on its way and nothing else is in flight but monitors, or it is done. -/
structure Cycle (w₀ : World Podman.engine) (candidates : List AdapterEntry)
    (w : World Podman.engine) : Prop where
  outage : w.engine.outage = false
  named : w.engine.store.Named
  distinct : w.engine.store.Distinct
  responses : w.responses = w₀.responses
  phase : ∃ gone todo, candidates = gone ++ todo ∧
    Reclaiming w₀.engine.store w.engine.store gone todo (w.procs.filter Proc.working) ∧
    ∀ id, w.sm.jobAt id = if id ∈ idsOf gone then none else w₀.sm.jobAt id

section Cycle

variable {w₀ w : World Podman.engine} {candidates : List AdapterEntry} {i : ℕ} {t : Task}
  {r : Reply t.cmd}

/-- One of the tasks in flight has its command carried out. -/
theorem Cycle.exec (hcand : Reclaimable w₀.engine.store candidates) (h : Cycle w₀ candidates w)
    {g : Engine} (hp : w.procs[i]? = some ⟨t, none⟩) (hg : w.engine.exec t.cmd r = some g) :
    Cycle w₀ candidates { w with procs := w.procs.set i ⟨t, some r⟩, podman := g } := by
  obtain ⟨gone, todo, rfl, hphase, hknown⟩ := h.phase
  cases hwork : Proc.working ⟨t, none⟩ with
  | false =>
      obtain ⟨job, rfl⟩ := exists_monitorWait hwork
      obtain rfl := Engine.exec_wait hg
      have hfilter := (Pool.filter_of_neg hp hwork).2 ⟨.monitorWait job, some r⟩ rfl
      exact ⟨h.outage, h.named, h.distinct, h.responses,
        gone, todo, rfl, hfilter.symm ▸ hphase, hknown⟩
  | true =>
      have hwork' : Proc.working ⟨t, some r⟩ = true := hwork
      have hmem : (⟨t, none⟩ : Proc) ∈ w.procs.filter Proc.working :=
        List.mem_filter.2 ⟨List.mem_of_getElem? hp, hwork⟩
      have hone := hphase.eq_singleton hmem
      obtain ⟨-, -, hset⟩ := Pool.filter_of_singleton hp hwork hone
      rw [hone] at hphase
      have hphase' := hphase.exec hcand h.outage h.named h.distinct hg
      refine ⟨(Engine.exec_cases hg).1.trans h.outage, ?_, ?_, h.responses,
        gone, todo, rfl, (hset _ hwork').symm ▸ hphase', hknown⟩
      · obtain ⟨-, ⟨-, hexec⟩ | ⟨-, rfl, -⟩⟩ := Engine.exec_cases hg
        · exact h.named.exec hexec fun name ref => named_of_cmd
        · exact h.named
      · obtain ⟨-, ⟨-, hexec⟩ | ⟨-, rfl, -⟩⟩ := Engine.exec_cases hg
        · exact h.distinct.exec hexec
        · exact h.distinct

/-- The cycle turns to the next candidate, or ends. -/
theorem cycle_runOffloadCycle {gone rest : List AdapterEntry} {others : List Proc}
    {before : List Write} (hout : w.engine.outage = false) (hnamed : w.engine.store.Named)
    (hdistinct : w.engine.store.Distinct) (hresp : w.responses = w₀.responses)
    (hnone : others.filter Proc.working = [])
    (hstore : w₀.engine.store.Without (idsOf gone) (refsOf gone) w.engine.store)
    (hwait : AllIntact w.engine.store rest)
    (hknown : ∀ id, (applyAll w.clk w.sm before).jobAt id =
      if id ∈ idsOf gone then none else w₀.sm.jobAt id) :
    Cycle w₀ (gone ++ rest) (w.settle others (runOffloadCycle before rest)) := by
  refine ⟨hout, hnamed, hdistinct, ?_, gone, rest, rfl, ?_, fun id => ?_⟩
  · rw [← hresp]
    cases rest <;> exact List.append_nil _
  · rw [filter_working_settle w _ hnone]
    cases rest with
    | nil => exact .finished hstore
    | cons a rest => exact .deleting a rest hstore hwait
  · rw [World.settle_sm]
    cases rest with
    | nil => exact hknown id
    | cons a rest =>
        rw [runOffloadCycle, applyAll_append, applyAll_cons, applyAll_nil, jobAt_transition]
        exact hknown id

/-- One of the tasks in flight picks up its result. -/
theorem Cycle.resume (h : Cycle w₀ candidates w) (hp : w.procs[i]? = some ⟨t, some r⟩) :
    Cycle w₀ candidates (w.settle (w.procs.eraseIdx i) (t.resume r)) := by
  obtain ⟨gone, todo, rfl, hphase, hknown⟩ := h.phase
  cases hwork : Proc.working ⟨t, some r⟩ with
  | false =>
      obtain ⟨job, rfl⟩ := exists_monitorWait hwork
      obtain ⟨st, msg, -, hturn⟩ := resume_monitorWait job r
      have hfilter := (Pool.filter_of_neg hp hwork).1
      rw [hturn]
      refine ⟨h.outage, h.named, h.distinct, (List.append_nil _).trans h.responses,
        gone, todo, rfl, ?_, fun id => ?_⟩
      · simp only [World.settle_procs, List.map_nil, List.append_nil, hfilter]
        exact hphase
      · rw [World.settle_sm, applyAll_cons, applyAll_nil, jobAt_transition]
        exact hknown id
  | true =>
      have hmem : (⟨t, some r⟩ : Proc) ∈ w.procs.filter Proc.working :=
        List.mem_filter.2 ⟨List.mem_of_getElem? hp, hwork⟩
      have hone := hphase.eq_singleton hmem
      obtain ⟨-, herase, -⟩ := Pool.filter_of_singleton hp hwork hone
      rw [hone] at hphase
      cases hphase with
      | deleted a rest hstore hwait =>
          refine ⟨h.outage, h.named, h.distinct, (List.append_nil _).trans h.responses,
            gone, a :: rest, rfl, ?_, hknown⟩
          rw [filter_working_settle w _ herase]
          exact .discarding a rest hstore hwait
      | discarded a rest hstore hwait =>
          have heq : gone ++ a :: rest = (gone ++ [a]) ++ rest := by simp
          rw [heq]
          refine cycle_runOffloadCycle h.outage h.named h.distinct h.responses herase hstore hwait
            fun id => ?_
          rw [applyAll_cons, applyAll_nil, jobAt_remove, hknown]
          by_cases hid : id = a.adapterId
          · simp [hid]
          · simp [hid]

/-- **A cycle that is left alone stays on its way.** -/
theorem Cycle.step {timeout : ℕ} {w' : World Podman.engine} {a : Action Podman.engine}
    (hcand : Reclaimable w₀.engine.store candidates) (h : Cycle w₀ candidates w)
    (hstep : stepAlone timeout w a = some w') : Cycle w₀ candidates w' := by
  obtain ⟨halone, hstep⟩ := Lts.restrict_eq_some_iff.1 hstep
  cases step_eq_some_iff.1 hstep with
  | install | remove | offload => exact halone.elim
  | exec i answer t r s hp _ hs => exact h.exec hcand hp hs
  | resume i t r hp => exact h.resume hp
  | env e s hs =>
      cases e with
      | outage on => exact halone.elim
      | exit name =>
          obtain ⟨-, hs⟩ := Option.ite_none_right_eq_some.1 hs
          cases hs
          obtain ⟨gone, todo, heq, hphase, hknown⟩ := h.phase
          refine ⟨h.outage, h.named.halt name, ?_, h.responses,
            gone, todo, heq, hphase.halt name, hknown⟩
          exact (congrArg List.Nodup (PodmanStore.images_halt _ name)).mpr h.distinct
  | tick clk _ => exact ⟨h.outage, h.named, h.distinct, h.responses, h.phase⟩

/-- A cycle that is done. -/
theorem Cycle.offloaded (h : Cycle w₀ candidates w) (hquiescent : Quiescent w) :
    Offloaded w₀ candidates w := by
  obtain ⟨gone, todo, rfl, hphase, hknown⟩ := h.phase
  rw [quiescent_iff.1 hquiescent] at hphase
  cases hphase with
  | finished hstore =>
      rw [List.append_nil]
      refine ⟨fun c hc => ?_, fun id hid => ?_, fun name => ?_, fun ref => ?_, h.responses⟩
      · have hnone := hknown c.adapterId
        rw [if_pos (List.mem_map_of_mem hc)] at hnone
        exact Option.map_eq_none_iff.1 hnone
      · rw [hknown, if_neg]
        simpa using hid
      · rw [hstore.containers]
        simp
      · rw [hstore.images]
        simp

end Cycle

/-! ### A cycle comes to an end -/

/-- The work on one candidate comes to an end, and leaves the others intact. -/
theorem reach_of_candidate {timeout : ℕ} {w : World Podman.engine} {procs : List Proc}
    {a : AdapterEntry} {rest : List AdapterEntry}
    (hprocs : w.procs = procs ++ [Proc.start (.offloadRm a rest)])
    (hnamed : w.engine.store.Named) (hcand : Reclaimable w.engine.store (a :: rest)) :
    ∃ w', Lts.Reach (stepAlone timeout) w w' ∧
      w'.procs = procs ++ ((Task.offloadRmi a rest).resume (.ok ())).tasks.map Proc.start ∧
      w'.engine.store.Named ∧ Reclaimable w'.engine.store rest := by
  obtain ⟨s, hs, hnone, himg⟩ := (hcand.intact a List.mem_cons_self).exec_rm
  obtain ⟨w₁, hreach₁, hprocs₁, rfl⟩ :=
    @reach_carriedOut timeout w procs (.offloadRm a rest) s .done () hprocs rfl hs
  have hnamed₁ : w₁.engine.store.Named :=
    hnamed.exec hs fun name ref hcmd => by cases hcmd
  rw [← hcand.wellNamed a List.mem_cons_self] at hnone
  obtain ⟨s', hs'⟩ := PodmanStore.exec_rmi hnamed₁ himg hnone
  obtain ⟨w₂, hreach₂, hprocs₂, rfl⟩ :=
    @reach_carriedOut timeout w₁ procs (.offloadRmi a rest) s' .done () hprocs₁ rfl hs'
  refine ⟨w₂, hreach₁.trans hreach₂, hprocs₂, ?_, ?_⟩
  · exact hnamed₁.exec hs' fun name ref hcmd => by cases hcmd
  · refine ⟨fun c hc => hcand.wellNamed c (List.mem_cons_of_mem _ hc), fun c hc => ?_,
      (List.nodup_cons.1 hcand.nodup).2⟩
    obtain ⟨hid, href⟩ := @Reclaimable.ne_of_mem w.engine.store [] rest a hcand c hc
    have hintact := (hcand.intact c (List.mem_cons_of_mem _ hc)).exec hs (by simp)
      (by simpa using hid) (by simp)
    exact hintact.exec hs' (by simp) (by simp) (by simpa using href)

/-- A cycle comes to an end, by induction on the candidates that it still has to work through. -/
theorem reach_of_cycle {timeout : ℕ} {procs : List Proc} {candidates : List AdapterEntry} :
    ∀ {before : List Write} {w : World Podman.engine},
      w.procs = procs ++ (runOffloadCycle before candidates).tasks.map Proc.start →
      w.engine.store.Named → Reclaimable w.engine.store candidates →
        ∃ w', Lts.Reach (stepAlone timeout) w w' ∧ w'.procs = procs := by
  induction candidates with
  | nil =>
      intro before w hprocs hnamed hcand
      exact ⟨w, .refl, hprocs.trans (List.append_nil _)⟩
  | cons a rest ih =>
      intro before w hprocs hnamed hcand
      obtain ⟨w₁, hreach₁, hprocs₁, hnamed₁, hcand₁⟩ :=
        @reach_of_candidate timeout w procs a rest hprocs hnamed hcand
      obtain ⟨w₂, hreach₂, hprocs₂⟩ := ih hprocs₁ hnamed₁ hcand₁
      exact ⟨w₂, hreach₁.trans hreach₂, hprocs₂⟩

/-! ### Every cycle -/

/-- No image is stored twice. -/
theorem distinct_of_reach {timeout : ℕ} {clk : Clock} {w : World Podman.engine}
    (h : Lts.Reach (World.step timeout) (World.init Podman.engine clk) w) :
    w.engine.store.Distinct := by
  refine h.invariant (I := fun w => w.engine.store.Distinct) List.nodup_nil
    fun w a w' hdistinct hstep => ?_
  cases step_eq_some_iff.1 hstep with
  | install | remove | offload | resume | tick => exact hdistinct
  | exec i answer t r s hp hr hs =>
      obtain ⟨-, ⟨-, hexec⟩ | ⟨-, rfl, -⟩⟩ := Engine.exec_cases hs
      · exact hdistinct.exec hexec
      · exact hdistinct
  | env e s hs =>
      cases e with
      | outage on =>
          cases hs
          exact hdistinct
      | exit name =>
          obtain ⟨-, hs⟩ := Option.ite_none_right_eq_some.1 hs
          cases hs
          exact (congrArg List.Nodup (PodmanStore.images_halt _ name)).mpr hdistinct

/-- **An offload cycle that is left alone takes away its candidates and nothing else**, in every run
that finds podman in order, whatever the order in which the map yields the candidates. -/
theorem offload_left_alone {timeout : ℕ} {clk : Clock} {w : World Podman.engine}
    (h : Lts.Reach (Lts.restrict (World.step timeout) KeepsIntact)
      (World.init Podman.engine clk) w)
    (hquiescent : Quiescent w) (hout : w.engine.outage = false) {candidates : List AdapterEntry}
    (hperm : candidates.Perm (w.sm.getOffloadCandidates w.clk timeout)) :
    OffloadSucceeds timeout w candidates := by
  have hkept : Kept w := by
    refine h.invariant (kept_init clk) fun s a s' hs hstep => ?_
    obtain ⟨hguard, hstep⟩ := Lts.restrict_eq_some_iff.1 hstep
    exact hs.step hguard hstep
  have hdistinct := distinct_of_reach h.of_restrict
  have hnone := quiescent_iff.1 hquiescent
  have hcand : Reclaimable w.engine.store candidates := by
    refine ⟨fun c hc => ?_, fun c hc => ?_, ?_⟩
    · obtain ⟨hget, -⟩ := StateManager.mem_getOffloadCandidates.1 (hperm.mem_iff.1 hc)
      exact hkept.entries _ c hget
    · obtain ⟨hget, hstopped, -⟩ := StateManager.mem_getOffloadCandidates.1 (hperm.mem_iff.1 hc)
      rcases hkept.intact _ c hget with hwork | hintact
      · obtain ⟨p, hp, hid⟩ := atWork_tasksOf.1 hwork
        obtain ⟨job, htask⟩ := hquiescent p hp
        rw [htask] at hid
        cases hid
      · exact hstopped ▸ hintact
    · exact (hperm.map _).nodup_iff.2 (StateManager.nodup_adapterId_filter w.sm _)
  have hidle : ∀ p ∈ w.procs, p.task.isOffload = false := by
    intro p hp
    obtain ⟨job, htask⟩ := hquiescent p hp
    rw [htask]
    rfl
  have hcycle : Cycle w candidates (w.settle w.procs (runOffloadCycle [] candidates)) :=
    @cycle_runOffloadCycle w w [] candidates w.procs [] hout hkept.named hdistinct rfl hnone
      (PodmanStore.Without.refl _) hcand.intact (by simp)
  refine ⟨_, step_eq_some_iff.2 (.offload candidates hidle hperm), fun w' hreach hq => ?_, ?_⟩
  · have hend := hreach.invariant hcycle fun s a s' hs hstep => hs.step hcand hstep
    exact hend.offloaded hq
  · obtain ⟨w', hreach, hprocs⟩ := reach_of_cycle
      (w := w.settle w.procs (runOffloadCycle [] candidates)) rfl hkept.named hcand
    exact ⟨w', hreach, quiescent_iff.2 (hprocs ▸ hnone)⟩

/-- With two adapters installed the first one is stopped, and the timer takes it away. -/
theorem offload_left_alone_bothInstalled :
    ∃ w, Lts.run (Lts.restrict (World.step 0) KeepsIntact) (World.init Podman.engine ⟨0, 0⟩)
        bothInstalled = some w ∧
      (w.sm.getOffloadCandidates w.clk 0).map AdapterEntry.adapterId = ["a-1"] ∧
        OffloadSucceeds 0 w (w.sm.getOffloadCandidates w.clk 0) := by
  have hrun : (Lts.run (Lts.restrict (World.step 0) KeepsIntact)
      (World.init Podman.engine ⟨0, 0⟩) bothInstalled).map (fun w =>
        decide (Quiescent w ∧ w.engine.outage = false ∧
          (w.sm.getOffloadCandidates w.clk 0).map AdapterEntry.adapterId = ["a-1"])) =
            some true := by
    decide +kernel
  obtain ⟨w, hw, hdec⟩ := Option.map_eq_some_iff.1 hrun
  obtain ⟨hquiescent, hout, hids⟩ := of_decide_eq_true hdec
  exact ⟨w, hw, hids, offload_left_alone (Lts.reach_of_run hw) hquiescent hout (List.Perm.refl _)⟩

end UpdateService
