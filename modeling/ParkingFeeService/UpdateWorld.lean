/-
**Interleaved runs of the update service.**

The state of the whole is the adapter map, the pool of blocked tasks and the state of podman.  Every
choice that the code leaves open is in the label of the step: which call arrives, which of the
running adapters a hash map yields first, which task is resumed, and when and with which result a
podman command is carried out.

A turn of a task, from one await point to the next, is one step with all its writes, although each
write locks the adapter map on its own and tasks may run on several threads; `UpdateThreads` takes
the writes one at a time.  Calls are not cancelled: what happens when the future of a handler is
dropped at an await point is left out.

Podman is a parameter: a state, the results a command may have in it, and what may happen in it on
its own.  `Podman.free` allows every result at every moment, and is the setting of the statements
about arbitrary outcomes; a statement over every podman holds for it in particular.

Main definitions:

* `UpdateService.Podman`, `UpdateService.Podman.free`;
* `UpdateService.Proc`, `UpdateService.World`, `UpdateService.Action`;
* `UpdateService.World.step` — one step, as a function;
* `UpdateService.Moves` — the same as a relation.

Main results:

* `UpdateService.step_eq_some_iff` — the two agree, which is how every proof about a step starts.
-/

import ParkingFeeService.Lts
import ParkingFeeService.Pool
import ParkingFeeService.UpdateTasks

set_option relaxedAutoImplicit false
set_option autoImplicit false

namespace UpdateService

/-! ### Podman -/

/-- A podman: `exec` answers whether a command may have a result now, and what that does; `env` is
what containers do on their own. -/
structure Podman where
  State : Type
  Env : Type
  init : State
  exec : (c : Cmd) → Reply c → State → Option State
  env : Env → State → Option State

/-- The podman whose commands may have any result at any moment. -/
def Podman.free : Podman where
  State := Unit
  Env := Empty
  init := ()
  exec := fun _ _ s => some s
  env := fun e _ => e.elim

/-! ### The world -/

/-- A task of the pool, with the result of its command once that has been carried out. -/
structure Proc where
  task : Task
  reply : Option (Reply task.cmd)

/-- A task that has just issued its command. -/
def Proc.start (t : Task) : Proc := ⟨t, none⟩

@[simp] theorem Proc.start_task (t : Task) : (Proc.start t).task = t := rfl

@[simp] theorem Proc.start_reply (t : Task) : (Proc.start t).reply = none := rfl

variable {P : Podman}

/-- The state of the service and of its podman.  `issued` and `created` record the job ids drawn
and the jobs whose entry was created, in order. -/
structure World (P : Podman) where
  sm : StateManager
  procs : List Proc
  issued : List String
  created : List InstallJob
  responses : List Response
  clk : Clock
  podman : P.State

/-- A service that has just started. -/
def World.init (P : Podman) (clk : Clock) : World P where
  sm := .new
  procs := []
  issued := []
  created := []
  responses := []
  clk := clk
  podman := P.init

/-- The labels of the steps. -/
inductive Action (P : Podman)
  /-- an install call with the running adapter it finds -/
  | install (job : InstallJob) (running : Option AdapterEntry)
  /-- a removal call -/
  | remove (adapterId : String)
  /-- the offload timer fires; the candidates in the order they are walked -/
  | offload (candidates : List AdapterEntry)
  /-- the command of the task at a position is carried out -/
  | exec (i : ℕ) (answer : Answer)
  /-- the task at a position picks up its result -/
  | resume (i : ℕ)
  /-- something happens in podman on its own -/
  | env (e : P.Env)
  /-- time passes -/
  | tick (clk : Clock)

/-- The world after a turn of a task, when `others` are the tasks that stay blocked. -/
def World.settle (w : World P) (others : List Proc) (turn : Turn) : World P :=
  { w with
    sm := applyAll w.clk w.sm turn.writes
    procs := others ++ turn.tasks.map Proc.start
    created := w.created ++ turn.created.toList
    responses := w.responses ++ turn.response.toList }

/-- The job id of an install call is drawn. -/
def World.issue (w : World P) (job : InstallJob) : World P :=
  { w with issued := w.issued ++ [job.jobId] }

section Settle

variable (w : World P) (others : List Proc) (turn : Turn) (job : InstallJob)

@[simp] theorem World.settle_sm : (w.settle others turn).sm = applyAll w.clk w.sm turn.writes := rfl

@[simp] theorem World.settle_procs :
    (w.settle others turn).procs = others ++ turn.tasks.map Proc.start := rfl

@[simp] theorem World.settle_created :
    (w.settle others turn).created = w.created ++ turn.created.toList := rfl

@[simp] theorem World.settle_issued : (w.settle others turn).issued = w.issued := rfl

@[simp] theorem World.settle_podman : (w.settle others turn).podman = w.podman := rfl

@[simp] theorem World.issue_sm : (w.issue job).sm = w.sm := rfl

@[simp] theorem World.issue_procs : (w.issue job).procs = w.procs := rfl

@[simp] theorem World.issue_created : (w.issue job).created = w.created := rfl

@[simp] theorem World.issue_clk : (w.issue job).clk = w.clk := rfl

@[simp] theorem World.issue_podman : (w.issue job).podman = w.podman := rfl

@[simp] theorem World.issue_issued : (w.issue job).issued = w.issued ++ [job.jobId] := rfl

end Settle

/-- A task of the offload timer. -/
def Task.isOffload : Task → Bool
  | .offloadRm _ _ => true
  | .offloadRmi _ _ => true
  | _ => false

/-- One step.  The offload timer runs its cycles one after the other. -/
def World.step (timeout : ℕ) (w : World P) : Action P → Option (World P)
  | .install job running =>
      if w.sm.IsRunningAdapter running then
        some ((w.issue job).settle w.procs (installAdapter job running))
      else none
  | .remove id => some (w.settle w.procs (removeAdapter id (w.sm.getAdapter id)))
  | .offload candidates =>
      if (∀ p ∈ w.procs, p.task.isOffload = false) ∧
          candidates.Perm (w.sm.getOffloadCandidates w.clk timeout) then
        some (w.settle w.procs (runOffloadCycle [] candidates))
      else none
  | .exec i answer =>
      match w.procs[i]? with
      | some ⟨t, none⟩ =>
          (answer.toReply t.cmd).bind fun r =>
            (P.exec t.cmd r w.podman).map fun s =>
              { w with procs := w.procs.set i ⟨t, some r⟩, podman := s }
      | _ => none
  | .resume i =>
      match w.procs[i]? with
      | some ⟨t, some r⟩ => some (w.settle (w.procs.eraseIdx i) (t.resume r))
      | _ => none
  | .env e => (P.env e w.podman).map fun s => { w with podman := s }
  | .tick clk => if w.clk.instant ≤ clk.instant then some { w with clk := clk } else none

/-- The steps, one constructor for every kind of label. -/
inductive Moves (timeout : ℕ) (w : World P) : Action P → World P → Prop
  | install (job : InstallJob) (running : Option AdapterEntry)
      (hrun : w.sm.IsRunningAdapter running) :
      Moves timeout w (.install job running)
        ((w.issue job).settle w.procs (installAdapter job running))
  | remove (id : String) :
      Moves timeout w (.remove id) (w.settle w.procs (removeAdapter id (w.sm.getAdapter id)))
  | offload (candidates : List AdapterEntry)
      (hidle : ∀ p ∈ w.procs, p.task.isOffload = false)
      (hperm : candidates.Perm (w.sm.getOffloadCandidates w.clk timeout)) :
      Moves timeout w (.offload candidates) (w.settle w.procs (runOffloadCycle [] candidates))
  | exec (i : ℕ) (answer : Answer) (t : Task) (r : Reply t.cmd) (s : P.State)
      (hp : w.procs[i]? = some ⟨t, none⟩) (hr : answer.toReply t.cmd = some r)
      (hs : P.exec t.cmd r w.podman = some s) :
      Moves timeout w (.exec i answer)
        { w with procs := w.procs.set i ⟨t, some r⟩, podman := s }
  | resume (i : ℕ) (t : Task) (r : Reply t.cmd) (hp : w.procs[i]? = some ⟨t, some r⟩) :
      Moves timeout w (.resume i) (w.settle (w.procs.eraseIdx i) (t.resume r))
  | env (e : P.Env) (s : P.State) (hs : P.env e w.podman = some s) :
      Moves timeout w (.env e) { w with podman := s }
  | tick (clk : Clock) (hclk : w.clk.instant ≤ clk.instant) :
      Moves timeout w (.tick clk) { w with clk := clk }

/-- The step function takes exactly the steps of `Moves`. -/
theorem step_eq_some_iff {timeout : ℕ} {w w' : World P} {a : Action P} :
    w.step timeout a = some w' ↔ Moves timeout w a w' := by
  constructor
  · intro h
    cases a with
    | install job running =>
        rw [World.step, Option.ite_none_right_eq_some] at h
        obtain ⟨hrun, h⟩ := h
        cases h
        exact .install job running hrun
    | remove id => cases h; exact .remove id
    | offload candidates =>
        rw [World.step, Option.ite_none_right_eq_some] at h
        obtain ⟨⟨hidle, hperm⟩, h⟩ := h
        cases h
        exact .offload candidates hidle hperm
    | exec i answer =>
        rw [World.step] at h
        split at h
        · next t hp =>
            obtain ⟨r, hr, h⟩ := Option.bind_eq_some_iff.1 h
            obtain ⟨s, hs, rfl⟩ := Option.map_eq_some_iff.1 h
            exact .exec i answer t r s hp hr hs
        · cases h
    | resume i =>
        rw [World.step] at h
        split at h
        · next t r hp => cases h; exact .resume i t r hp
        · cases h
    | env e =>
        obtain ⟨s, hs, rfl⟩ := Option.map_eq_some_iff.1 h
        exact .env e s hs
    | tick clk =>
        rw [World.step, Option.ite_none_right_eq_some] at h
        obtain ⟨hclk, h⟩ := h
        cases h
        exact .tick clk hclk
  · intro h
    cases h with
    | install job running hrun => rw [World.step, if_pos hrun]
    | remove id => rfl
    | offload candidates hidle hperm => rw [World.step, if_pos ⟨hidle, hperm⟩]
    | exec i answer t r s hp hr hs => simp [World.step, hp, hr, hs]
    | resume i t r hp => simp [World.step, hp]
    | env e s hs => simp [World.step, hs]
    | tick clk hclk => rw [World.step, if_pos hclk]

end UpdateService
