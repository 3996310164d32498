/-
**The image that was verified and the image that is run.**

An install task pulls an image, compares its digest with the checksum of the request, and runs the
image; the second and the third of these go through the image reference, which is a name that other
tasks and the registry give another meaning.  Local images are a map from references to digests, to
which a pull adds the digest that the registry serves at that moment.

Between the digest and the run another task may pull the same reference, so that what is run is not
what was verified.  A successful run starts a container from the image of the checksum in every run
in which no step changes what the reference of a verified job resolves to.

Main definitions:

* `UpdateService.ImageStore`, `UpdateService.Podman.registry` — images under changing tags;
* `UpdateService.Proc.verified` — the job whose image a task has verified and is about to run;
* `UpdateService.ImageHeld` — the side condition on the steps;
* `UpdateService.Vouched` — the invariant.

Main results:

* `UpdateService.tag_moves_before_run` — a pull of another job between the digest and the run;
* `UpdateService.run_starts_verified` — the image run is the image verified, under the side
  condition.
-/

import ParkingFeeService.UpdateSingleRunning

set_option relaxedAutoImplicit false
set_option autoImplicit false

namespace UpdateService

/-! ### Images under changing tags -/

/-- A container that was started: its name, and the reference and digest of its image. -/
structure Start where
  name : String
  imageRef : String
  digest : String
  deriving DecidableEq, Repr

/-- The digests of the local images by reference, the digests that the registry serves, and the
containers started so far. -/
structure ImageStore where
  images : String → Option String
  registry : String → Option String
  started : List Start

namespace ImageStore

/-- The digest a reference stands for: that of the local image, else the one that is served. -/
def resolve (s : ImageStore) (imageRef : String) : Option String :=
  (s.images imageRef).or (s.registry imageRef)

/-- The local image of a reference becomes the one with the digest. -/
def install (s : ImageStore) (imageRef digest : String) : ImageStore :=
  { s with images := Function.update s.images imageRef (some digest) }

/-- A command that succeeds with a result.  `podman run` fetches an image that is not there yet. -/
def exec (s : ImageStore) : (c : Cmd) → c.Out → Option ImageStore
  | .pull ref, () => (s.registry ref).map (s.install ref)
  | .inspectDigest ref, digest => if s.images ref = some digest then some s else none
  | .run name ref, () =>
      (s.resolve ref).map fun digest =>
        { s.install ref digest with started := s.started ++ [⟨name, ref, digest⟩] }
  | .rmi ref, () => some { s with images := Function.update s.images ref none }
  | .stop _, () | .rm _, () | .wait _, _ => some s

/-- The registry serves another digest under a reference, or none. -/
def serve (s : ImageStore) (imageRef : String) (digest : Option String) : ImageStore :=
  { s with registry := Function.update s.registry imageRef digest }

end ImageStore

/-- The podman with a store of images; a command that fails changes nothing, and the registry may
change at any moment. -/
def Podman.registry : Podman where
  State := ImageStore
  Env := String × Option String
  init := ⟨fun _ => none, fun _ => none, []⟩
  exec := fun c r s =>
    match r with
    | .ok out => s.exec c out
    | .error _ => some s
  env := fun e s => some (s.serve e.1 e.2)

/-- The digest of a local image is the one its reference stands for. -/
theorem resolve_of_exec_inspectDigest {s s' : ImageStore} {imageRef digest : String}
    (h : s.exec (.inspectDigest imageRef) digest = some s') :
    s'.resolve imageRef = some digest := by
  obtain ⟨himg, h⟩ := Option.ite_none_right_eq_some.1 h
  cases h
  rw [ImageStore.resolve, himg, Option.some_or]

/-- What `podman run` starts. -/
theorem started_of_exec_run {s s' : ImageStore} {name imageRef digest : String}
    (hres : s.resolve imageRef = some digest) (h : s.exec (.run name imageRef) () = some s') :
    s'.started = s.started ++ [⟨name, imageRef, digest⟩] := by
  rw [ImageStore.exec, hres] at h
  cases h
  rfl

/-! ### The side condition -/

/-- The job whose image a task has verified and not yet run: it has got the right digest, or it has
asked for the run. -/
def Proc.verified : Proc → Option InstallJob
  | ⟨.installInspect job, some (.ok digest)⟩ =>
      if digest = job.checksumSha256 then some job else none
  | ⟨.installRun job, none⟩ => some job
  | _ => none

/-- The step does not change what the image reference of a verified job stands for. -/
def ImageHeld (timeout : ℕ) (w : World Podman.registry) (a : Action Podman.registry) : Prop :=
  ∀ w' ∈ w.step timeout a, ∀ p ∈ w.procs, ∀ job ∈ p.verified,
    ImageStore.resolve w'.podman job.imageRef = ImageStore.resolve w.podman job.imageRef

instance (timeout : ℕ) (w : World Podman.registry) (a : Action Podman.registry) :
    Decidable (ImageHeld timeout w a) :=
  inferInstanceAs (Decidable (∀ w' ∈ w.step timeout a, ∀ p ∈ w.procs, ∀ job ∈ p.verified,
    ImageStore.resolve w'.podman job.imageRef = ImageStore.resolve w.podman job.imageRef))

/-! ### The invariant -/

/-- The image reference of every verified job stands for the digest of the request. -/
def Vouched (w : World Podman.registry) : Prop :=
  ∀ p ∈ w.procs, ∀ job, p.verified = some job →
    ImageStore.resolve w.podman job.imageRef = some job.checksumSha256

theorem vouched_init (clk : Clock) : Vouched (World.init Podman.registry clk) := by
  intro p hp
  cases hp

/-- Only the task that has just got the right digest asks for a run. -/
theorem verified_of_mem_resume {t t' : Task} {r : Reply t.cmd} {job : InstallJob}
    (ht : t' ∈ (t.resume r).tasks) (hv : (Proc.start t').verified = some job) :
    (Proc.mk t (some r)).verified = some job := by
  cases t with
  | installInspect job' =>
      cases r with
      | ok digest =>
          by_cases hd : digest = job'.checksumSha256
          · rw [resume_installInspect_of_eq hd] at ht
            cases List.mem_singleton.1 ht
            rw [← hv]
            simp [Proc.verified, hd, Proc.start]
          · rw [resume_installInspect_of_ne hd] at ht
            cases List.mem_singleton.1 ht
            cases hv
      | error e => cases ht
  | installStop job' running =>
      cases r <;>
      · cases List.mem_singleton.1 ht
        cases hv
  | installPull job' | removeStop id adapter | removeRm id adapter =>
      cases r with
      | ok u =>
          cases List.mem_singleton.1 ht
          cases hv
      | error e => cases ht
  | installRun job' =>
      cases r with
      | ok u =>
          cases List.mem_singleton.1 ht
          cases hv
      | error e => cases ht
  | installRmi job' => cases ht
  | monitorWait job' =>
      obtain ⟨st, msg, -, hturn⟩ := resume_monitorWait job' r
      rw [hturn] at ht
      cases ht
  | removeRmi id adapter => cases r <;> cases ht
  | offloadRm adapter rest | offloadRmi adapter rest =>
      cases r <;> cases rest <;> simp [Task.resume, runOffloadCycle] at ht <;> subst ht <;> cases hv

/-- A turn keeps the invariant if the tasks that follow ask for no run, or have the digest. -/
theorem Vouched.settle {w : World Podman.registry} {others : List Proc} {turn : Turn}
    (h : Vouched w) (hothers : ∀ p ∈ others, p ∈ w.procs)
    (hnew : ∀ t ∈ turn.tasks, ∀ job, (Proc.start t).verified = some job →
      ∃ p ∈ w.procs, p.verified = some job) : Vouched (w.settle others turn) := by
  intro p hp job hv
  rw [World.settle_podman]
  rw [World.settle_procs, List.mem_append] at hp
  rcases hp with hp | hp
  · exact h p (hothers p hp) job hv
  · obtain ⟨t, ht, rfl⟩ := List.mem_map.1 hp
    obtain ⟨q, hq, hqv⟩ := hnew t ht job hv
    exact h q hq job hqv

/-- The task that has got an answer is verified if it was, or if the answer is the digest that the
reference stands for now. -/
theorem resolve_of_verified_exec {t : Task} {r : Reply t.cmd} {s s' : ImageStore}
    {job : InstallJob} (hs : Podman.registry.exec t.cmd r s = some s')
    (hv : (Proc.mk t (some r)).verified = some job) :
    s'.resolve job.imageRef = some job.checksumSha256 := by
  cases t with
  | installInspect job' =>
      cases r with
      | ok digest =>
          rw [Proc.verified, Option.ite_none_right_eq_some] at hv
          obtain ⟨rfl, hv⟩ := hv
          cases hv
          exact resolve_of_exec_inspectDigest hs
      | error e => cases hv
  | installStop | installPull | installRmi | installRun | monitorWait | removeStop | removeRm
  | removeRmi | offloadRm | offloadRmi => cases hv

/-- Every step that meets the side condition keeps the invariant. -/
theorem Vouched.step {timeout : ℕ} {w w' : World Podman.registry} {a : Action Podman.registry}
    (h : Vouched w) (hheld : ImageHeld timeout w a) (hstep : w.step timeout a = some w') :
    Vouched w' := by
  have hkeep : ∀ p ∈ w.procs, ∀ job, p.verified = some job →
      ImageStore.resolve w'.podman job.imageRef = some job.checksumSha256 := fun p hp job hv =>
    (hheld w' hstep p hp job hv).trans (h p hp job hv)
  cases step_eq_some_iff.1 hstep with
  | install job running _ =>
      have hissue : Vouched (w.issue job) := h
      refine hissue.settle (fun p hp => hp) fun t ht job' hv => ?_
      by_cases hval : job.Valid
      · cases running with
        | none =>
            rw [installAdapter_none hval] at ht
            cases List.mem_singleton.1 ht
            cases hv
        | some r =>
            rw [installAdapter_some hval] at ht
            cases List.mem_singleton.1 ht
            cases hv
      · rw [(installAdapter_of_not_valid running hval).2.1] at ht
        cases ht
  | remove id =>
      refine h.settle (fun p hp => hp) fun t ht job' hv => ?_
      obtain ⟨adapter, rfl | rfl⟩ := mem_tasks_removeAdapter ht <;> cases hv
  | offload candidates _ _ =>
      refine h.settle (fun p hp => hp) fun t ht job' hv => ?_
      cases candidates with
      | nil => cases ht
      | cons c rest =>
          cases List.mem_singleton.1 ht
          cases hv
  | exec i answer t r s hp _ hs =>
      intro p hpm job hv
      rcases Pool.eq_or_mem_of_mem_set hpm with rfl | hpm
      · exact resolve_of_verified_exec hs hv
      · exact hkeep p hpm job hv
  | resume i t r hp =>
      refine h.settle (fun p hpm => Pool.mem_of_mem_eraseIdx hpm) fun t' ht job hv => ?_
      exact ⟨_, List.mem_of_getElem? hp, verified_of_mem_resume ht hv⟩
  | env e s _ => exact hkeep
  | tick clk _ => exact hkeep

/-! ### The image that is run -/

/-- **A successful run starts a container from the image of the checksum**, in every run in which no
step changes what the image reference of a verified job stands for. -/
theorem run_starts_verified {timeout : ℕ} {clk : Clock} {w w' : World Podman.registry}
    (h : Lts.Reach (Lts.restrict (World.step timeout) (ImageHeld timeout))
      (World.init Podman.registry clk) w)
    {i : ℕ} {job : InstallJob} (hp : w.procs[i]? = some (Proc.start (.installRun job)))
    (hstep : w.step timeout (.exec i .done) = some w') :
    w'.podman.started = w.podman.started ++
      [(⟨job.adapterId, job.imageRef, job.checksumSha256⟩ : Start)] := by
  have hinv : Vouched w := by
    refine h.invariant (vouched_init clk) fun s a s' hs hstep => ?_
    obtain ⟨hheld, hstep⟩ := Lts.restrict_eq_some_iff.1 hstep
    exact hs.step hheld hstep
  have hres := hinv _ (List.mem_of_getElem? hp) job rfl
  simp only [World.step, hp, Proc.start, Answer.toReply, Option.bind_some] at hstep
  obtain ⟨s, hs, rfl⟩ := Option.map_eq_some_iff.1 hstep
  exact started_of_exec_run hres hs

theorem Proc.eq_start {p : Proc} {t : Task} (ht : p.task = t) (hr : p.reply.isNone) :
    p = Proc.start t := by
  obtain ⟨t', r⟩ := p
  obtain rfl : t' = t := ht
  obtain rfl : r = none := Option.isNone_iff_eq_none.1 hr
  rfl

/-- The registry serves the image of `jobA`, which is pulled and verified; its run is asked for. -/
def verifiesA : List (Action Podman.registry) :=
  [.env ("registry/a:1", some "sum-a"), .install jobA none, .exec 0 .done, .resume 0,
    .exec 0 (.digest "sum-a"), .resume 0]

/-- A job for the same reference as that of `jobA`, when the tag has another image. -/
def retaggedA : InstallJob := ⟨"job-a2", "registry/a:1", "sum-a2"⟩

/-- The tag moves, and the second job pulls it. -/
def tagMoves : List (Action Podman.registry) :=
  [.env ("registry/a:1", some "sum-a2"), .install retaggedA none, .exec 1 .done]

/-- Without interference the image of `jobA` is run. -/
theorem run_starts_verifiesA :
    ∃ w w' : World Podman.registry,
      Lts.run (Lts.restrict (World.step 0) (ImageHeld 0)) (World.init Podman.registry ⟨0, 0⟩)
        verifiesA = some w ∧
      w.step 0 (.exec 0 .done) = some w' ∧
      w'.podman.started = w.podman.started ++
        [(⟨jobA.adapterId, jobA.imageRef, jobA.checksumSha256⟩ : Start)] := by
  have hrun : (Lts.run (Lts.restrict (World.step 0) (ImageHeld 0))
      (World.init Podman.registry ⟨0, 0⟩) verifiesA).map (fun w => decide
        ((∃ p ∈ w.procs[0]?, p.task = .installRun jobA ∧ p.reply.isNone) ∧
          (w.step 0 (.exec 0 .done)).isSome)) = some true := by decide
  obtain ⟨w, hw, hd⟩ := Option.map_eq_some_iff.1 hrun
  obtain ⟨⟨p, hp, htask, hreply⟩, hsome⟩ := of_decide_eq_true hd
  obtain ⟨w', hw'⟩ := Option.isSome_iff_exists.1 hsome
  rw [Proc.eq_start htask hreply] at hp
  exact ⟨w, w', hw, hw', run_starts_verified (Lts.reach_of_run hw) hp hw'⟩

/-- **Another job pulls the reference between the digest and the run**: what `jobA` starts is not
what it has verified. -/
theorem tag_moves_before_run :
    ¬ ∀ (timeout : ℕ) (clk : Clock) (w w' : World Podman.registry) (i : ℕ) (job : InstallJob),
      Lts.Reach (World.step timeout) (World.init Podman.registry clk) w →
        w.procs[i]? = some (Proc.start (.installRun job)) →
        w.step timeout (.exec i .done) = some w' →
        w'.podman.started = w.podman.started ++
          [(⟨job.adapterId, job.imageRef, job.checksumSha256⟩ : Start)] := by
  intro hall
  have hrun : (Lts.run (World.step 0) (World.init Podman.registry ⟨0, 0⟩)
      (verifiesA ++ tagMoves)).map (fun w => decide
        ((∃ p ∈ w.procs[0]?, p.task = .installRun jobA ∧ p.reply.isNone) ∧
          w.podman.started = [] ∧ (w.step 0 (.exec 0 .done)).map (fun w' => w'.podman.started) =
            some [(⟨"a-1", "registry/a:1", "sum-a2"⟩ : Start)])) = some true := by decide
  obtain ⟨w, hw, hd⟩ := Option.map_eq_some_iff.1 hrun
  obtain ⟨⟨p, hp, htask, hreply⟩, hnone, hstarts⟩ := of_decide_eq_true hd
  obtain ⟨w', hw', hstarted⟩ := Option.map_eq_some_iff.1 hstarts
  rw [Proc.eq_start htask hreply] at hp
  have hsame := hall 0 ⟨0, 0⟩ w w' 0 jobA (Lts.reach_of_run hw) hp hw'
  rw [hstarted, hnone] at hsame
  revert hsame
  decide

end UpdateService
