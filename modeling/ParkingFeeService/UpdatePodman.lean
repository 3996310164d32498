/-
**Podman as a store of containers and images, all of whose commands succeed.**

`podman run` creates and starts a container under a name that must be free, `podman stop` stops it,
`podman rm` deletes a stopped one, `podman pull` adds an image and `podman rmi` deletes one that no
container uses.  `podman wait` returns when the container is not running.  A command that could not
succeed has no result, so that its caller stays blocked.  Containers also exit on their own.

Main definitions:

* `UpdateService.PodmanStore` — the containers and the images;
* `UpdateService.Podman.store` — the commands on them;
* `UpdateService.PodmanStore.IsRunning`.

Main results:

* `UpdateService.PodmanStore.lookup_exec` — what a command does to the containers;
* `UpdateService.isRunning_exec` — a command makes nothing run but the container it creates;
* `UpdateService.not_isRunning_of_stop`, `UpdateService.not_isRunning_of_wait` — what a stop and a
  wait that have returned say of the container.
-/

import ParkingFeeService.UpdateWorld

set_option relaxedAutoImplicit false
set_option autoImplicit false

namespace UpdateService

/-- A named container: the image it was created from, and whether it is running. -/
structure Container where
  imageRef : String
  running : Bool
  deriving DecidableEq, Repr

/-- Containers by name, and the local images. -/
structure PodmanStore where
  containers : AList fun _ : String => Container
  images : List String

namespace PodmanStore

/-- No containers and no images. -/
def empty : PodmanStore := ⟨∅, []⟩

/-- The container exists and is running. -/
def IsRunning (s : PodmanStore) (name : String) : Prop :=
  (s.containers.lookup name).map Container.running = some true

instance (s : PodmanStore) (name : String) : Decidable (s.IsRunning name) :=
  inferInstanceAs (Decidable ((s.containers.lookup name).map Container.running = some true))

/-- Some container was created from the image. -/
def uses (s : PodmanStore) (imageRef : String) : Bool :=
  s.containers.entries.any fun c => c.2.imageRef = imageRef

/-- The container under the name stands still. -/
def halt (s : PodmanStore) (name : String) : PodmanStore :=
  match s.containers.lookup name with
  | none => s
  | some c => { s with containers := s.containers.insert name { c with running := false } }

/-- A command that succeeds.  `podman run` fetches an image that is not there yet. -/
def exec (s : PodmanStore) : Cmd → Option PodmanStore
  | .pull ref => some { s with images := s.images.insert ref }
  | .inspectDigest ref => if ref ∈ s.images then some s else none
  | .run name ref =>
      if s.containers.lookup name = none then
        some ⟨s.containers.insert name ⟨ref, true⟩, s.images.insert ref⟩
      else none
  | .stop name => if s.containers.lookup name = none then none else some (s.halt name)
  | .rm name =>
      match s.containers.lookup name with
      | some ⟨_, false⟩ => some { s with containers := s.containers.erase name }
      | _ => none
  | .rmi ref =>
      if ref ∈ s.images ∧ s.uses ref = false then some { s with images := s.images.erase ref }
      else none
  | .wait name => if s.IsRunning name then none else some s

end PodmanStore

/-- The podman that keeps a store and whose commands all succeed; a container that is running may
exit. -/
def Podman.store : Podman where
  State := PodmanStore
  Env := String
  init := .empty
  exec := fun c r s =>
    match r with
    | .ok _ => s.exec c
    | .error _ => none
  env := fun name s => if s.IsRunning name then some (s.halt name) else none

namespace PodmanStore

/-- The container under the name stands still; the others are as they were. -/
theorem lookup_halt (s : PodmanStore) (name' name : String) :
    (s.halt name').containers.lookup name =
      if name = name' then (s.containers.lookup name).map fun c => { c with running := false }
      else s.containers.lookup name := by
  rw [halt]
  split
  · next h =>
      split
      · next heq => rw [heq, h, Option.map_none]
      · rfl
  · next c h =>
      split
      · next heq => rw [heq, h, AList.lookup_insert, Option.map_some]
      · next hne => rw [AList.lookup_insert_ne hne]

/-- The container under the name after a command. -/
def containerAfter (s : PodmanStore) (name : String) : Cmd → Option Container
  | .run name' ref => if name = name' then some ⟨ref, true⟩ else s.containers.lookup name
  | .stop name' => (s.halt name').containers.lookup name
  | .rm name' => if name = name' then none else s.containers.lookup name
  | .pull _ | .inspectDigest _ | .rmi _ | .wait _ => s.containers.lookup name

theorem lookup_exec {s s' : PodmanStore} {c : Cmd} (h : s.exec c = some s') (name : String) :
    s'.containers.lookup name = s.containerAfter name c := by
  cases c with
  | pull ref =>
      cases h
      rfl
  | inspectDigest ref | rmi ref =>
      obtain ⟨-, h⟩ := Option.ite_none_right_eq_some.1 h
      cases h
      rfl
  | run name' ref =>
      obtain ⟨-, h⟩ := Option.ite_none_right_eq_some.1 h
      cases h
      rw [containerAfter]
      split
      · next heq => rw [heq, AList.lookup_insert]
      · next hne => exact AList.lookup_insert_ne hne
  | stop name' | wait name' =>
      obtain ⟨-, h⟩ := Option.ite_none_left_eq_some.1 h
      cases h
      rfl
  | rm name' =>
      rw [exec] at h
      split at h
      · cases h
        rw [containerAfter]
        split
        · next heq => rw [heq, AList.lookup_erase]
        · next hne => exact AList.lookup_erase_ne hne
      · cases h

theorem not_isRunning_halt (s : PodmanStore) (name : String) : ¬ (s.halt name).IsRunning name := by
  rw [IsRunning, lookup_halt, if_pos rfl]
  cases s.containers.lookup name <;> simp

theorem isRunning_halt {s : PodmanStore} {name name' : String}
    (h : (s.halt name).IsRunning name') : s.IsRunning name' := by
  by_cases hname : name' = name
  · subst hname
    exact absurd h (not_isRunning_halt s name')
  · rwa [IsRunning, lookup_halt, if_neg hname] at h

/-- A command makes nothing run but the container it creates. -/
theorem isRunning_exec {s s' : PodmanStore} {c : Cmd} (h : s.exec c = some s') {name : String}
    (hrun : s'.IsRunning name) : s.IsRunning name ∨ ∃ ref, c = .run name ref := by
  rw [IsRunning, lookup_exec h] at hrun
  cases c with
  | run name' ref =>
      by_cases hname : name = name'
      · exact .inr ⟨ref, by rw [hname]⟩
      · rw [containerAfter, if_neg hname] at hrun
        exact .inl hrun
  | stop name' => exact .inl (isRunning_halt hrun)
  | rm name' =>
      by_cases hname : name = name'
      · rw [containerAfter, if_pos hname] at hrun
        cases hrun
      · rw [containerAfter, if_neg hname] at hrun
        exact .inl hrun
  | pull | inspectDigest | rmi | wait => exact .inl hrun

theorem not_isRunning_of_stop {s s' : PodmanStore} {name : String}
    (h : s.exec (.stop name) = some s') : ¬ s'.IsRunning name := by
  obtain ⟨-, h⟩ := Option.ite_none_left_eq_some.1 h
  cases h
  exact not_isRunning_halt s name

theorem not_isRunning_of_wait {s s' : PodmanStore} {name : String}
    (h : s.exec (.wait name) = some s') : ¬ s'.IsRunning name := by
  obtain ⟨hrun, h⟩ := Option.ite_none_left_eq_some.1 h
  cases h
  exact hrun

end PodmanStore

/-- A result of the store's podman is a success, and its effect is that of the command. -/
theorem exec_store {c : Cmd} {r : Reply c} {s s' : PodmanStore}
    (h : Podman.store.exec c r s = some s') : (∃ out, r = .ok out) ∧ s.exec c = some s' := by
  cases r with
  | ok out => exact ⟨⟨out, rfl⟩, h⟩
  | error e => cases h

end UpdateService
