/-
**Podman with commands that fail.**

The containers and images of `UpdatePodman`, with failures.  `podman stop`, `podman rm` and
`podman rmi` fail exactly if they cannot be carried out: there is no such container, it is running,
the image is absent or in use.  Pulling, inspecting, running and waiting may fail for other reasons
as well, and during an outage every command may.  A command that fails changes nothing.

Main definitions:

* `UpdateService.Engine`, `UpdateService.Podman.engine`;
* `UpdateService.PodmanStore.Intact` — podman has what the service tracks;
* `UpdateService.PodmanStore.Named` — containers are named after their images.

Main results:

* `UpdateService.PodmanStore.hasContainer_exec`, `UpdateService.PodmanStore.mem_images_exec` — which
  containers and images there are after a command;
* `UpdateService.PodmanStore.Intact.exec` — commands for other adapters leave an adapter intact;
* `UpdateService.PodmanStore.Intact.exec_stop`, `UpdateService.PodmanStore.Intact.exec_rm`,
  `UpdateService.PodmanStore.exec_rmi` — an adapter that is intact can be taken down.
-/

import ParkingFeeService.UpdatePodman

set_option relaxedAutoImplicit false
set_option autoImplicit false

namespace UpdateService

/-! ### The engine -/

/-- The command fails only if it cannot be carried out. -/
def Cmd.reliable : Cmd → Bool
  | .stop _ | .rm _ | .rmi _ => true
  | .pull _ | .inspectDigest _ | .run _ _ | .wait _ => false

/-- The containers and images, and whether commands fail for reasons of their own at the moment. -/
structure Engine where
  store : PodmanStore
  outage : Bool

/-- A command with its result. -/
def Engine.exec (g : Engine) : (c : Cmd) → Reply c → Option Engine
  | c, .ok _ => (g.store.exec c).map fun s => { g with store := s }
  | c, .error _ =>
      if g.outage = true ∨ c.reliable = false ∨ (g.store.exec c).isNone = true then some g
      else none

/-- What happens in podman on its own. -/
inductive EngineEvent
  /-- a running container exits -/
  | exit (name : String)
  /-- commands begin to fail, or work again -/
  | outage (on : Bool)
  deriving DecidableEq, Repr

/-- The effect of an event. -/
def Engine.event (g : Engine) : EngineEvent → Option Engine
  | .exit name =>
      if g.store.IsRunning name then some { g with store := g.store.halt name } else none
  | .outage on => some { g with outage := on }

/-- The podman whose commands may fail. -/
def Podman.engine : Podman where
  State := Engine
  Env := EngineEvent
  init := ⟨.empty, false⟩
  exec := fun c r g => g.exec c r
  env := fun e g => g.event e

/-- The engine of the world. -/
def World.engine (w : World Podman.engine) : Engine := w.podman

/-- A command that succeeds has its effect; one that fails changes nothing. -/
theorem Engine.exec_cases {g g' : Engine} {c : Cmd} {r : Reply c} (h : g.exec c r = some g') :
    g'.outage = g.outage ∧
      ((∃ out, r = .ok out) ∧ g.store.exec c = some g'.store ∨
        (∃ e, r = .error e) ∧ g' = g ∧
          (g.outage = true ∨ c.reliable = false ∨ g.store.exec c = none)) := by
  cases r with
  | ok out =>
      obtain ⟨s, hs, rfl⟩ := Option.map_eq_some_iff.1 h
      exact ⟨rfl, .inl ⟨⟨out, rfl⟩, hs⟩⟩
  | error e =>
      rw [Engine.exec, Option.ite_none_right_eq_some] at h
      obtain ⟨hfail, h⟩ := h
      cases h
      rw [Option.isNone_iff_eq_none] at hfail
      exact ⟨rfl, .inr ⟨⟨e, rfl⟩, rfl, hfail⟩⟩

/-- A command that can be carried out may succeed. -/
theorem Engine.exec_ok {g : Engine} {c : Cmd} {s : PodmanStore} (hs : g.store.exec c = some s)
    (out : c.Out) : g.exec c (.ok out) = some { g with store := s } := by
  rw [Engine.exec, hs]
  rfl

/-- A command that cannot be carried out fails. -/
theorem Engine.exec_error {g : Engine} {c : Cmd} (hs : g.store.exec c = none) (e : PodmanError) :
    g.exec c (.error e) = some g := by
  rw [Engine.exec, hs]
  simp

namespace PodmanStore

variable {s s' : PodmanStore} {name imageRef : String} {st : AdapterState}

/-! ### Containers by name -/

/-- There is a container of that name, running or not. -/
def HasContainer (s : PodmanStore) (name : String) : Prop :=
  (s.containers.lookup name).isSome = true

instance (s : PodmanStore) (name : String) : Decidable (s.HasContainer name) :=
  inferInstanceAs (Decidable ((s.containers.lookup name).isSome = true))

theorem not_hasContainer_iff : ¬ s.HasContainer name ↔ s.containers.lookup name = none := by
  rw [HasContainer, Bool.not_eq_true, Option.isSome_eq_false_iff, Option.isNone_iff_eq_none]

@[simp] theorem images_halt (s : PodmanStore) (name : String) :
    (s.halt name).images = s.images := by
  rw [PodmanStore.halt]
  split <;> rfl

/-- A container that stands still is still there. -/
@[simp] theorem hasContainer_halt (s : PodmanStore) (name name' : String) :
    (s.halt name').HasContainer name ↔ s.HasContainer name := by
  rw [HasContainer, lookup_halt, HasContainer]
  split
  · rw [Option.isSome_map]
  · exact Iff.rfl

/-- Only `podman run` creates a container, and only `podman rm` deletes one. -/
theorem hasContainer_exec {c : Cmd} (hexec : s.exec c = some s') (hrm : ∀ name, c ≠ .rm name) :
    s'.HasContainer name ↔ s.HasContainer name ∨ ∃ ref, c = .run name ref := by
  rw [HasContainer, lookup_exec hexec]
  cases c with
  | run name' ref =>
      by_cases hname : name = name'
      · simp [containerAfter, hname]
      · simp [containerAfter, hname, Ne.symm hname, HasContainer]
  | rm name' => exact absurd rfl (hrm name')
  | stop name' =>
      simp only [reduceCtorEq, exists_false, or_false]
      exact hasContainer_halt s name name'
  | pull | inspectDigest | rmi | wait => simp [containerAfter, HasContainer]

/-- An image stays unless it is deleted. -/
theorem mem_images_exec {c : Cmd} (hexec : s.exec c = some s') (himg : imageRef ∈ s.images)
    (hrmi : c ≠ .rmi imageRef) : imageRef ∈ s'.images := by
  cases c with
  | pull ref =>
      cases hexec
      exact List.mem_insert_of_mem himg
  | inspectDigest ref =>
      obtain ⟨-, hexec⟩ := Option.ite_none_right_eq_some.1 hexec
      cases hexec
      exact himg
  | run name ref =>
      obtain ⟨-, hexec⟩ := Option.ite_none_right_eq_some.1 hexec
      cases hexec
      exact List.mem_insert_of_mem himg
  | stop name =>
      obtain ⟨-, hexec⟩ := Option.ite_none_left_eq_some.1 hexec
      cases hexec
      rwa [images_halt]
  | rm name =>
      rw [PodmanStore.exec] at hexec
      split at hexec
      · cases hexec
        exact himg
      · cases hexec
  | rmi ref =>
      obtain ⟨-, hexec⟩ := Option.ite_none_right_eq_some.1 hexec
      cases hexec
      have href : imageRef ≠ ref := fun heq => hrmi (by rw [heq])
      exact (List.mem_erase_of_ne href).2 himg
  | wait name =>
      obtain ⟨-, hexec⟩ := Option.ite_none_left_eq_some.1 hexec
      cases hexec
      exact himg

/-! ### Adapters that podman has -/

/-- Podman has the container under the name, running only if the adapter is, and the image. -/
def Intact (s : PodmanStore) (name imageRef : String) (st : AdapterState) : Prop :=
  ∃ c ∈ s.containers.lookup name, (c.running = true → st = .running) ∧ imageRef ∈ s.images

instance (s : PodmanStore) (name imageRef : String) (st : AdapterState) :
    Decidable (s.Intact name imageRef st) :=
  inferInstanceAs (Decidable (∃ c ∈ s.containers.lookup name, _ ∧ _))

/-- Every container is named after its image. -/
def Named (s : PodmanStore) : Prop :=
  ∀ name c, s.containers.lookup name = some c → deriveAdapterId c.imageRef = name

theorem named_empty : empty.Named := by
  intro name c h
  cases h

/-- A container that exits or is stopped. -/
theorem Intact.halt (h : s.Intact name imageRef st) (name' : String) :
    (s.halt name').Intact name imageRef st := by
  obtain ⟨c, hc, hrun, himg⟩ := h
  rw [Option.mem_def] at hc
  rw [Intact, lookup_halt, images_halt, hc]
  split
  · exact ⟨_, rfl, fun h => absurd h Bool.false_ne_true, himg⟩
  · exact ⟨c, rfl, hrun, himg⟩

theorem Named.halt (h : s.Named) (name' : String) : (s.halt name').Named := by
  intro name c hc
  rw [lookup_halt] at hc
  split at hc
  · obtain ⟨c', hc', rfl⟩ := Option.map_eq_some_iff.1 hc
    exact h name c' hc'
  · exact h name c hc

/-- **Commands for other adapters leave an adapter intact.** -/
theorem Intact.exec (h : s.Intact name imageRef st) {c : Cmd} (hexec : s.exec c = some s')
    (hrun : ∀ ref, c ≠ .run name ref) (hrm : c ≠ .rm name) (hrmi : c ≠ .rmi imageRef) :
    s'.Intact name imageRef st := by
  have himages : imageRef ∈ s'.images := by
    obtain ⟨-, -, -, himg⟩ := h
    exact mem_images_exec hexec himg hrmi
  suffices hcont : ∃ k ∈ s.containerAfter name c, k.running = true → st = .running by
    obtain ⟨k, hk, hrunning⟩ := hcont
    exact ⟨k, (lookup_exec hexec name).trans hk, hrunning, himages⟩
  cases c with
  | run name' ref =>
      have hname : name ≠ name' := fun heq => hrun ref (by rw [heq])
      rw [containerAfter, if_neg hname]
      exact h.imp fun k hk => ⟨hk.1, hk.2.1⟩
  | rm name' =>
      have hname : name ≠ name' := fun heq => hrm (by rw [heq])
      rw [containerAfter, if_neg hname]
      exact h.imp fun k hk => ⟨hk.1, hk.2.1⟩
  | stop name' => exact (h.halt name').imp fun k hk => ⟨hk.1, hk.2.1⟩
  | pull | inspectDigest | rmi | wait => exact h.imp fun k hk => ⟨hk.1, hk.2.1⟩

theorem Named.exec (h : s.Named) {c : Cmd} (hexec : s.exec c = some s')
    (hrun : ∀ name ref, c = .run name ref → deriveAdapterId ref = name) : s'.Named := by
  intro name k hk
  rw [lookup_exec hexec] at hk
  cases c with
  | run name' ref =>
      rw [containerAfter] at hk
      split at hk
      · next heq =>
          cases hk
          rw [heq]
          exact hrun name' ref rfl
      · exact h name k hk
  | rm name' =>
      rw [containerAfter] at hk
      split at hk
      · cases hk
      · exact h name k hk
  | stop name' => exact h.halt name' name k hk
  | pull | inspectDigest | rmi | wait => exact h name k hk

/-! ### Taking an adapter down -/

/-- The container is stopped. -/
theorem Intact.exec_stop (h : s.Intact name imageRef st) :
    ∃ s', s.exec (.stop name) = some s' ∧ s'.Intact name imageRef .stopped := by
  obtain ⟨c, hc, -, himg⟩ := h
  have hsome : s.containers.lookup name = some c := hc
  refine ⟨s.halt name, by simp [PodmanStore.exec, hsome], { c with running := false }, ?_,
    fun h => absurd h Bool.false_ne_true, ?_⟩
  · rw [PodmanStore.halt, hsome]
    exact AList.lookup_insert _
  · rw [PodmanStore.halt, hsome]
    exact himg

/-- A container that stands still is deleted. -/
theorem Intact.exec_rm (h : s.Intact name imageRef .stopped) :
    ∃ s', s.exec (.rm name) = some s' ∧ s'.containers.lookup name = none ∧
      imageRef ∈ s'.images := by
  obtain ⟨⟨ref, running⟩, hc, hrun, himg⟩ := h
  have hsome : s.containers.lookup name = some ⟨ref, running⟩ := hc
  cases running with
  | true => cases hrun rfl
  | false =>
      refine ⟨{ s with containers := s.containers.erase name }, by simp [PodmanStore.exec, hsome],
        AList.lookup_erase _ _, himg⟩

/-- The image of a container that has been deleted is deleted. -/
theorem exec_rmi (hnamed : s.Named) (himg : imageRef ∈ s.images)
    (hnone : s.containers.lookup (deriveAdapterId imageRef) = none) :
    ∃ s', s.exec (.rmi imageRef) = some s' := by
  have huses : s.uses imageRef = false := by
    rw [uses, List.any_eq_false]
    rintro ⟨name, c⟩ hmem hc
    have hlook : s.containers.lookup name = some c := AList.mem_lookup_iff.2 hmem
    have href : c.imageRef = imageRef := of_decide_eq_true hc
    rw [← href, hnamed name c hlook, hlook] at hnone
    cases hnone
  exact ⟨{ s with images := s.images.erase imageRef }, by simp [PodmanStore.exec, himg, huses]⟩

end PodmanStore

end UpdateService
