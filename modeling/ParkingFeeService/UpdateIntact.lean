/-
**Adapters that podman has.**

An adapter can be taken down if podman has its container and its image and the container does not
run behind the service's back.  While a task is at work on an adapter all of this may be missing; a
task that is done with it leaves it `running`, `stopped` or in `error`, or removes its entry.  If
every move to one of these states finds podman in order, or another task at work on the adapter,
then so does everything that happens later: containers that exit, other adapters that are installed,
removed and offloaded.

Main definitions:

* `UpdateService.Task.worksOn` — the adapter a task is at work on;
* `UpdateService.KeepsIntact` — the side condition on the steps;
* `UpdateService.Turn.Tidy` — a turn leaves no adapter at work behind;
* `UpdateService.Kept` — the invariant.

Main results:

* `UpdateService.tidy_resume` — every task is tidy when it is resumed;
* `UpdateService.Kept.step` — every step that meets the side condition keeps the invariant.
-/

import ParkingFeeService.UpdateEngine
import ParkingFeeService.UpdateJournal
import ParkingFeeService.UpdateSettled

set_option relaxedAutoImplicit false
set_option autoImplicit false

namespace UpdateService

/-! ### Tasks at work -/

/-- The adapter that an install task, a removal or an offload cycle is at work on. -/
def Task.worksOn : Task → Option String
  | .installPull job | .installInspect job | .installRun job => some job.adapterId
  | .removeStop id _ | .removeRm id _ | .removeRmi id _ => some id
  | .offloadRm adapter _ | .offloadRmi adapter _ => some adapter.adapterId
  | .installStop _ _ | .installRmi _ | .monitorWait _ => none

/-- One of the tasks is at work on the adapter. -/
def AtWork (tasks : List Task) (id : String) : Prop := ∃ t ∈ tasks, t.worksOn = some id

instance (tasks : List Task) (id : String) : Decidable (AtWork tasks id) :=
  inferInstanceAs (Decidable (∃ t ∈ tasks, t.worksOn = some id))

/-- The tasks in flight. -/
def tasksOf (procs : List Proc) : List Task := procs.map Proc.task

@[simp] theorem tasksOf_settle {P : Podman} (w : World P) (others : List Proc) (turn : Turn) :
    tasksOf (w.settle others turn).procs = tasksOf others ++ turn.tasks := by
  simp [tasksOf, Function.comp_def]

theorem atWork_append {tasks tasks' : List Task} {id : String} :
    AtWork (tasks ++ tasks') id ↔ AtWork tasks id ∨ AtWork tasks' id := by
  simp [AtWork, or_and_right, exists_or]

theorem atWork_singleton {t : Task} {id : String} : AtWork [t] id ↔ t.worksOn = some id := by
  simp [AtWork]

theorem atWork_tasksOf {procs : List Proc} {id : String} :
    AtWork (tasksOf procs) id ↔ ∃ p ∈ procs, p.task.worksOn = some id := by
  simp [AtWork, tasksOf]

/-- The job whose image a task deletes after a checksum mismatch. -/
def Task.discards : Task → Option InstallJob
  | .installRmi job => some job
  | _ => none

/-- The adapter and its image are those of an entry: the id is that of the image. -/
def Task.WellNamed : Task → Prop
  | .removeStop id adapter | .removeRm id adapter | .removeRmi id adapter =>
      deriveAdapterId adapter.imageRef = id
  | .offloadRm adapter rest | .offloadRmi adapter rest =>
      ∀ e ∈ adapter :: rest, deriveAdapterId e.imageRef = e.adapterId
  | _ => True

/-! ### The side condition -/

/-- The tasks that stay blocked while a step is taken. -/
def World.others {P : Podman} (w : World P) : Action P → List Proc
  | .resume i => w.procs.eraseIdx i
  | _ => w.procs

/-- A move to `running`, `stopped` or `error` finds the adapter intact, or a task at work on it. -/
def Write.FindsIntact (w : World Podman.engine) (tasks : List Task) : Write → Prop
  | .transition id st _ => st ∈ [AdapterState.running, .stopped, .error] →
      ∀ e ∈ w.sm.getAdapter id, AtWork tasks id ∨ w.engine.store.Intact id e.imageRef st
  | _ => True

instance (w : World Podman.engine) (tasks : List Task) : (x : Write) →
    Decidable (x.FindsIntact w tasks)
  | .transition id st _ => inferInstanceAs (Decidable (
      st ∈ [AdapterState.running, .stopped, .error] →
        ∀ e ∈ w.sm.getAdapter id, AtWork tasks id ∨ w.engine.store.Intact id e.imageRef st))
  | .create _ | .remove _ => isTrue trivial

/-- An image deleted after a checksum mismatch is not that of an adapter that nobody works on. -/
def SparesImages (w : World Podman.engine) : Action Podman.engine → Prop
  | .exec i answer => answer = .done → ∀ p ∈ w.procs[i]?, ∀ job ∈ p.task.discards,
      ∀ e ∈ w.sm.getAdapter job.adapterId, e.imageRef = job.imageRef →
        AtWork (tasksOf w.procs) job.adapterId
  | _ => True

instance (w : World Podman.engine) : (a : Action Podman.engine) → Decidable (SparesImages w a)
  | .exec i answer => inferInstanceAs (Decidable (answer = .done → ∀ p ∈ w.procs[i]?,
      ∀ job ∈ p.task.discards, ∀ e ∈ w.sm.getAdapter job.adapterId, e.imageRef = job.imageRef →
        AtWork (tasksOf w.procs) job.adapterId))
  | .install _ _ | .remove _ | .offload _ | .resume _ | .env _ | .tick _ => isTrue trivial

/-- What the step leaves `running`, `stopped` or in `error` is intact or still at work, and it
deletes no image of an adapter that nobody works on. -/
def KeepsIntact (w : World Podman.engine) (a : Action Podman.engine) : Prop :=
  (∀ x ∈ (w.turn a).writes, x.FindsIntact w (tasksOf (w.others a) ++ (w.turn a).tasks)) ∧
    SparesImages w a

instance (w : World Podman.engine) (a : Action Podman.engine) : Decidable (KeepsIntact w a) :=
  inferInstanceAs (Decidable (_ ∧ _))

/-! ### Turns -/

/-- An entry that is created is named after its image. -/
def Write.WellNamed : Write → Prop
  | .create entry => deriveAdapterId entry.imageRef = entry.adapterId
  | _ => True

/-- Whatever a turn leaves unfinished is at work in a task that follows, and so is the adapter that
was at work before, unless the turn writes to it. -/
structure Turn.Tidy (turn : Turn) (worked : Option String) : Prop where
  writes : ∀ x ∈ turn.writes, x.WellNamed
  tasks : ∀ t ∈ turn.tasks, t.WellNamed
  unfinished : ∀ x ∈ turn.writes, x.Final ∨ AtWork turn.tasks x.target
  handed : ∀ id, worked = some id → AtWork turn.tasks id ∨ ∃ x ∈ turn.writes, x.target = id

/-- The rest of an install call: the background task is at work on the new entry. -/
theorem tidy_installCreate {before : List Write} (job : InstallJob)
    (hbefore : ∀ x ∈ before, x.WellNamed ∧ x.Final) : (installCreate before job).Tidy none := by
  refine ⟨?_, by simp [installCreate, Task.WellNamed], ?_, by simp⟩
  · intro x hx
    rcases List.mem_append.1 hx with hx | hx
    · exact (hbefore x hx).1
    · simp only [List.mem_cons, List.not_mem_nil, or_false] at hx
      rcases hx with rfl | rfl
      · exact rfl
      · exact trivial
  · intro x hx
    rcases List.mem_append.1 hx with hx | hx
    · exact .inl (hbefore x hx).2
    · refine .inr (atWork_singleton.2 ?_)
      simp only [List.mem_cons, List.not_mem_nil, or_false] at hx
      rcases hx with rfl | rfl <;> rfl

/-- An offload cycle goes on: it is at work on the next candidate. -/
theorem tidy_runOffloadCycle {before : List Write} {rest : List AdapterEntry}
    {worked : Option String} (hbefore : ∀ x ∈ before, x.WellNamed ∧ x.Final)
    (hrest : ∀ e ∈ rest, deriveAdapterId e.imageRef = e.adapterId)
    (hworked : ∀ id, worked = some id → ∃ x ∈ before, x.target = id) :
    (runOffloadCycle before rest).Tidy worked := by
  cases rest with
  | nil =>
      exact ⟨fun x hx => (hbefore x hx).1, by simp [runOffloadCycle],
        fun x hx => .inl (hbefore x hx).2, fun id hid => .inr (hworked id hid)⟩
  | cons c rest =>
      refine ⟨?_, ?_, ?_, fun id hid => ?_⟩
      · intro x hx
        rcases List.mem_append.1 hx with hx | hx
        · exact (hbefore x hx).1
        · rw [List.mem_singleton.1 hx]
          exact trivial
      · intro t ht
        rw [List.mem_singleton.1 ht]
        exact hrest
      · intro x hx
        rcases List.mem_append.1 hx with hx | hx
        · exact .inl (hbefore x hx).2
        · rw [List.mem_singleton.1 hx]
          exact .inr (atWork_singleton.2 rfl)
      · obtain ⟨x, hx, htarget⟩ := hworked id hid
        exact .inr ⟨x, List.mem_append_left _ hx, htarget⟩

/-- A turn that ends the work on an adapter with one final write to it. -/
theorem tidy_of_final {turn : Turn} {x : Write} {worked : Option String}
    (hwrites : turn.writes = [x]) (hfinal : x.Final)
    (htasks : ∀ t ∈ turn.tasks, t.WellNamed)
    (hworked : ∀ id, worked = some id → x.target = id) : turn.Tidy worked := by
  refine ⟨?_, htasks, ?_, fun id hid => .inr ⟨x, by simp [hwrites], hworked id hid⟩⟩
  · intro y hy
    rw [hwrites] at hy
    rw [List.mem_singleton.1 hy]
    cases x with
    | create entry => exact hfinal.elim
    | transition id st msg | remove id => exact trivial
  · intro y hy
    rw [hwrites] at hy
    exact .inl (List.mem_singleton.1 hy ▸ hfinal)

/-- A turn that writes nothing and hands the adapter to the task that follows. -/
theorem tidy_of_quiet {turn : Turn} {worked : Option String} (hwrites : turn.writes = [])
    (htasks : ∀ t ∈ turn.tasks, t.WellNamed)
    (hworked : ∀ id, worked = some id → AtWork turn.tasks id) : turn.Tidy worked :=
  ⟨by simp [hwrites], htasks, by simp [hwrites], fun id hid => .inl (hworked id hid)⟩

/-- A turn that writes nothing and goes on with one task at work on the same adapter. -/
theorem tidy_of_next {t : Task} {worked : Option String} (ht : t.WellNamed)
    (hworked : ∀ id, worked = some id → t.worksOn = some id) :
    ({ tasks := [t] } : Turn).Tidy worked := by
  refine tidy_of_quiet rfl (fun t' ht' => ?_) fun id hid => atWork_singleton.2 (hworked id hid)
  rw [List.mem_singleton.1 ht']
  exact ht

theorem tidy_installAdapter (job : InstallJob) (running : Option AdapterEntry) :
    (installAdapter job running).Tidy none := by
  by_cases hv : job.Valid
  · cases running with
    | none =>
        rw [installAdapter_none hv]
        exact tidy_installCreate job (by simp)
    | some r =>
        rw [installAdapter_some hv]
        exact tidy_of_quiet rfl (by simp [Task.WellNamed]) (by simp)
  · obtain ⟨hwrites, htasks, -⟩ := installAdapter_of_not_valid running hv
    exact tidy_of_quiet hwrites (by simp [htasks]) (by simp)

theorem tidy_removeAdapter {id : String} {e : Option AdapterEntry}
    (he : ∀ adapter ∈ e, deriveAdapterId adapter.imageRef = id) :
    (removeAdapter id e).Tidy none := by
  refine tidy_of_quiet (writes_removeAdapter id e) (fun t ht => ?_) (by simp)
  cases e with
  | none => cases ht
  | some adapter =>
      rw [removeAdapter] at ht
      split at ht
      · rw [List.mem_singleton.1 ht]
        exact he adapter rfl
      · rw [List.mem_singleton.1 ht]
        exact he adapter rfl

/-- Every task is tidy when it is resumed. -/
theorem tidy_resume {t : Task} (ht : t.WellNamed) (r : Reply t.cmd) :
    (t.resume r).Tidy t.worksOn := by
  cases t with
  | installStop job running =>
      cases r with
      | ok u =>
          exact tidy_installCreate job
            (by simp [Write.WellNamed, Write.Final, AdapterState.Transient])
      | error e =>
          exact tidy_installCreate job
            (by simp [Write.WellNamed, Write.Final, AdapterState.Transient])
  | installPull job =>
      cases r with
      | ok u => exact tidy_of_next (t := .installInspect job) trivial fun id hid => hid
      | error e =>
          exact tidy_of_final rfl (fun h => h) (by simp [Task.resume])
            fun id hid => Option.some.inj hid
  | installInspect job =>
      cases r with
      | ok digest =>
          by_cases hd : digest = job.checksumSha256
          · rw [resume_installInspect_of_eq hd]
            refine ⟨by simp [Write.WellNamed], by simp [Task.WellNamed], ?_,
              fun id hid => .inl (atWork_singleton.2 hid)⟩
            intro x hx
            rw [List.mem_singleton.1 hx]
            exact .inr (atWork_singleton.2 rfl)
          · rw [resume_installInspect_of_ne hd]
            exact tidy_of_final rfl (fun h => h) (by simp [Task.WellNamed])
              fun id hid => Option.some.inj hid
      | error e =>
          exact tidy_of_final rfl (fun h => h) (by simp [Task.resume])
            fun id hid => Option.some.inj hid
  | installRmi job => exact tidy_of_quiet rfl (by simp [Task.resume]) (by simp [Task.worksOn])
  | installRun job =>
      cases r with
      | ok u =>
          exact tidy_of_final rfl (fun h => h) (by simp [Task.resume, Task.WellNamed])
            fun id hid => Option.some.inj hid
      | error e =>
          exact tidy_of_final rfl (fun h => h) (by simp [Task.resume])
            fun id hid => Option.some.inj hid
  | monitorWait job =>
      obtain ⟨st, msg, hst, hturn⟩ := resume_monitorWait job r
      rw [hturn]
      rcases hst with rfl | rfl
      · exact tidy_of_final rfl (fun h => h) (by simp) (by simp [Task.worksOn])
      · exact tidy_of_final rfl (fun h => h) (by simp) (by simp [Task.worksOn])
  | removeStop id adapter | removeRm id adapter =>
      cases r with
      | ok u => exact tidy_of_next ht fun id hid => hid
      | error e =>
          exact tidy_of_final rfl (fun h => h) (by simp [Task.resume, removeFail])
            fun id hid => Option.some.inj hid
  | removeRmi id adapter =>
      cases r with
      | ok u =>
          exact tidy_of_final rfl trivial (by simp [Task.resume])
            fun id hid => Option.some.inj hid
      | error e =>
          exact tidy_of_final rfl (fun h => h) (by simp [Task.resume, removeFail])
            fun id hid => Option.some.inj hid
  | offloadRm adapter rest =>
      cases r with
      | ok u => exact tidy_of_next (t := .offloadRmi adapter rest) ht fun id hid => hid
      | error e =>
          exact tidy_runOffloadCycle (by simp [Write.WellNamed, Write.Final,
            AdapterState.Transient]) (fun e he => ht e (List.mem_cons_of_mem _ he))
            fun id hid => ⟨_, List.mem_cons_self, Option.some.inj hid⟩
  | offloadRmi adapter rest =>
      cases r with
      | ok u =>
          exact tidy_runOffloadCycle (by simp [Write.WellNamed, Write.Final])
            (fun e he => ht e (List.mem_cons_of_mem _ he))
            fun id hid => ⟨_, List.mem_cons_self, Option.some.inj hid⟩
      | error e =>
          exact tidy_runOffloadCycle (by simp [Write.WellNamed, Write.Final,
            AdapterState.Transient]) (fun e he => ht e (List.mem_cons_of_mem _ he))
            fun id hid => ⟨_, List.mem_cons_self, Option.some.inj hid⟩

/-! ### The invariant -/

/-- Entries, tasks and containers are named after their images, and every entry is at work or
intact. -/
structure Kept (w : World Podman.engine) : Prop where
  entries : ∀ id e, w.sm.getAdapter id = some e → deriveAdapterId e.imageRef = id
  tasks : ∀ p ∈ w.procs, p.task.WellNamed
  named : w.engine.store.Named
  intact : ∀ id e, w.sm.getAdapter id = some e →
    AtWork (tasksOf w.procs) id ∨ w.engine.store.Intact id e.imageRef e.state

theorem kept_init (clk : Clock) : Kept (World.init Podman.engine clk) := by
  refine ⟨?_, ?_, PodmanStore.named_empty, ?_⟩
  · intro id e he
    simp [World.init] at he
  · intro p hp
    cases hp
  · intro id e he
    simp [World.init] at he

theorem entries_applyAll {clk : Clock} {ws : List Write} (hws : ∀ x ∈ ws, x.WellNamed) :
    ∀ {sm : StateManager},
      (∀ id e, sm.getAdapter id = some e → deriveAdapterId e.imageRef = id) →
      ∀ id e, (applyAll clk sm ws).getAdapter id = some e → deriveAdapterId e.imageRef = id := by
  induction ws with
  | nil => intro sm h; exact h
  | cons x ws ih =>
      intro sm h
      refine ih (fun y hy => hws y (List.mem_cons_of_mem _ hy)) fun id e he => ?_
      by_cases hid : id = x.target
      · subst hid
        have hx := hws x List.mem_cons_self
        cases x with
        | create entry =>
            rw [getAdapter_apply_target] at he
            cases he
            exact hx
        | transition id st msg =>
            rw [getAdapter_apply_target] at he
            obtain ⟨e₀, he₀, rfl⟩ := Option.map_eq_some_iff.1 he
            exact h _ e₀ he₀
        | remove id =>
            rw [getAdapter_apply_target] at he
            cases he
      · rw [getAdapter_apply_of_ne clk sm hid] at he
        exact h id e he

/-- The entries after some of the writes of a step: at work, or still the one that the step began
with, and intact if it was so or has been written to. -/
def IntactOn (w : World Podman.engine) (tasks : List Task) (settled : String → Prop)
    (sm : StateManager) : Prop :=
  ∀ id e, sm.getAdapter id = some e → AtWork tasks id ∨
    (∃ e₀ ∈ w.sm.getAdapter id, e₀.imageRef = e.imageRef) ∧
      (settled id → w.engine.store.Intact id e.imageRef e.state)

/-- One write: what it leaves unfinished is at work, and the rest it finds intact. -/
theorem IntactOn.apply {w : World Podman.engine} {tasks : List Task} {settled : String → Prop}
    {sm : StateManager} (h : IntactOn w tasks settled sm) (clk : Clock) {x : Write}
    (hx : x.Final ∨ AtWork tasks x.target) (hfinds : x.FindsIntact w tasks) :
    IntactOn w tasks (fun id => settled id ∨ x.target = id) (x.apply clk sm) := by
  intro id e he
  by_cases hid : id = x.target
  · subst hid
    rcases hx with hfinal | hwork
    · cases x with
      | create entry => exact hfinal.elim
      | transition id st msg =>
          rw [getAdapter_apply_target] at he
          obtain ⟨e₁, he₁, rfl⟩ := Option.map_eq_some_iff.1 he
          rcases h _ e₁ he₁ with hwork | ⟨⟨e₀, he₀, href⟩, -⟩
          · exact .inl hwork
          · have hst : st ∈ [AdapterState.running, .stopped, .error] := by
              simpa using AdapterState.not_transient_iff.1 hfinal
            rcases hfinds hst e₀ he₀ with hwork | hintact
            · exact .inl hwork
            · rw [href] at hintact
              exact .inr ⟨⟨e₀, he₀, href⟩, fun _ => hintact⟩
      | remove id =>
          rw [getAdapter_apply_target] at he
          cases he
    · exact .inl hwork
  · rw [getAdapter_apply_of_ne clk sm hid] at he
    rcases h id e he with hwork | ⟨href, hintact⟩
    · exact .inl hwork
    · refine .inr ⟨href, fun hsettled => hintact ?_⟩
      rcases hsettled with hsettled | htarget
      · exact hsettled
      · exact absurd htarget.symm hid

/-- All writes of a step. -/
theorem IntactOn.applyAll {w : World Podman.engine} {tasks : List Task} (clk : Clock)
    {ws : List Write} (hws : ∀ x ∈ ws, x.Final ∨ AtWork tasks x.target)
    (hfinds : ∀ x ∈ ws, x.FindsIntact w tasks) :
    ∀ {settled : String → Prop} {sm : StateManager}, IntactOn w tasks settled sm →
      IntactOn w tasks (fun id => settled id ∨ ∃ x ∈ ws, x.target = id) (applyAll clk sm ws) := by
  induction ws with
  | nil =>
      intro settled sm h
      simpa using h
  | cons x ws ih =>
      intro settled sm h
      have hrest := ih (fun y hy => hws y (List.mem_cons_of_mem _ hy))
        (fun y hy => hfinds y (List.mem_cons_of_mem _ hy))
        (h.apply clk (hws x List.mem_cons_self) (hfinds x List.mem_cons_self))
      simpa [or_assoc] using hrest

/-- A tidy turn that meets the side condition keeps the invariant. -/
theorem Kept.settle {w : World Podman.engine} {others : List Proc} {turn : Turn}
    {worked : Option String} (h : Kept w) (hothers : ∀ p ∈ others, p ∈ w.procs)
    (hworked : ∀ p ∈ w.procs, p.task.worksOn = worked ∨ p ∈ others) (hturn : turn.Tidy worked)
    (hfinds : ∀ x ∈ turn.writes, x.FindsIntact w (tasksOf others ++ turn.tasks)) :
    Kept (w.settle others turn) := by
  refine ⟨entries_applyAll hturn.writes h.entries, fun p hp => ?_, h.named, fun id e he => ?_⟩
  · rcases List.mem_append.1 hp with hp | hp
    · exact h.tasks p (hothers p hp)
    · obtain ⟨t, ht, rfl⟩ := List.mem_map.1 hp
      exact hturn.tasks t ht
  · rw [tasksOf_settle]
    have hbegin : IntactOn w (tasksOf others ++ turn.tasks) (fun id => worked ≠ some id) w.sm := by
      intro id e he
      rcases h.intact id e he with hwork | hintact
      · obtain ⟨p, hp, hid⟩ := atWork_tasksOf.1 hwork
        rcases hworked p hp with heq | hp'
        · exact .inr ⟨⟨e, he, rfl⟩, fun hne => absurd (heq.symm.trans hid) hne⟩
        · exact .inl (atWork_append.2 (.inl (atWork_tasksOf.2 ⟨p, hp', hid⟩)))
      · exact .inr ⟨⟨e, he, rfl⟩, fun _ => hintact⟩
    have hend := IntactOn.applyAll w.clk
      (fun x hx => (hturn.unfinished x hx).imp_right fun hwork => atWork_append.2 (.inr hwork))
      hfinds hbegin
    rcases hend id e he with hwork | ⟨-, hintact⟩
    · exact .inl hwork
    · by_cases hid : worked = some id
      · rcases hturn.handed id hid with hwork | htarget
        · exact .inl (atWork_append.2 (.inr hwork))
        · exact .inr (hintact (.inr htarget))
      · exact .inr (hintact (.inl hid))

/-- The command of a task that is not at work on an adapter, and deletes no image of it after a
checksum mismatch, does not take it down. -/
theorem cmd_spares {t : Task} (ht : t.WellNamed) {id imageRef : String}
    (href : deriveAdapterId imageRef = id) (hwork : t.worksOn ≠ some id)
    (hdiscards : ∀ job ∈ t.discards, job.imageRef ≠ imageRef) :
    (∀ ref, t.cmd ≠ .run id ref) ∧ t.cmd ≠ .rm id ∧ t.cmd ≠ .rmi imageRef := by
  cases t with
  | installRun job | removeRm id' adapter | offloadRm adapter rest =>
      refine ⟨?_, ?_, ?_⟩ <;> simp_all [Task.worksOn]
  | installRmi job =>
      have hne : job.imageRef ≠ imageRef := hdiscards job rfl
      exact ⟨by simp, by simp, by simpa using hne⟩
  | removeRmi id' adapter =>
      have hid : id' ≠ id := fun heq => hwork (congrArg some heq)
      refine ⟨by simp, by simp, fun hcmd => hid ?_⟩
      rw [← href, ← Cmd.rmi.inj hcmd, ht]
  | offloadRmi adapter rest =>
      have hid : adapter.adapterId ≠ id := fun heq => hwork (congrArg some heq)
      refine ⟨by simp, by simp, fun hcmd => hid ?_⟩
      rw [← href, ← Cmd.rmi.inj hcmd, ht adapter List.mem_cons_self]
  | installStop | installPull | installInspect | monitorWait | removeStop =>
      exact ⟨by simp, by simp, by simp⟩

/-- A container is named after the image that its task runs. -/
theorem named_of_cmd {t : Task} {name ref : String} (h : t.cmd = .run name ref) :
    deriveAdapterId ref = name := by
  cases t with
  | installRun job =>
      obtain ⟨hname, href⟩ := Cmd.run.inj h
      rw [← hname, ← href]
      rfl
  | installStop | installPull | installInspect | installRmi | monitorWait | removeStop | removeRm
  | removeRmi | offloadRm | offloadRmi => cases h

theorem tasksOf_set {procs : List Proc} {i : ℕ} {t : Task} {r r' : Option (Reply t.cmd)}
    (hp : procs[i]? = some ⟨t, r⟩) : tasksOf (procs.set i ⟨t, r'⟩) = tasksOf procs := by
  have ht : (tasksOf procs)[i]? = some t := by simp [tasksOf, hp]
  obtain ⟨hi, hget⟩ := List.getElem?_eq_some_iff.1 ht
  rw [tasksOf, List.map_set]
  exact (congrArg ((tasksOf procs).set i) hget.symm).trans (List.set_getElem_self hi)

/-- A command is carried out. -/
theorem Kept.exec {w : World Podman.engine} (h : Kept w) {i : ℕ} {answer : Answer} {t : Task}
    {r : Reply t.cmd} {g : Engine} (hp : w.procs[i]? = some ⟨t, none⟩)
    (hr : answer.toReply t.cmd = some r) (hg : w.engine.exec t.cmd r = some g)
    (hspares : SparesImages w (.exec i answer)) :
    Kept { w with procs := w.procs.set i ⟨t, some r⟩, podman := g } := by
  have hmem : (⟨t, none⟩ : Proc) ∈ w.procs := List.mem_of_getElem? hp
  have htasks : ∀ p ∈ w.procs.set i ⟨t, some r⟩, p.task.WellNamed := by
    intro p hp'
    rcases Pool.eq_or_mem_of_mem_set hp' with rfl | hp'
    · exact h.tasks ⟨t, none⟩ hmem
    · exact h.tasks p hp'
  obtain ⟨-, ⟨⟨out, rfl⟩, hexec⟩ | ⟨-, rfl, -⟩⟩ := Engine.exec_cases hg
  · refine ⟨h.entries, htasks, h.named.exec hexec fun name ref => named_of_cmd, fun id e he => ?_⟩
    rw [tasksOf_set hp]
    rcases h.intact id e he with hwork | hintact
    · exact .inl hwork
    · by_cases hwork : AtWork (tasksOf w.procs) id
      · exact .inl hwork
      · have href : deriveAdapterId e.imageRef = id := h.entries id e he
        have hdiscards : ∀ job ∈ t.discards, job.imageRef ≠ e.imageRef := by
          intro job hjob heq
          have hid : job.adapterId = id := by rw [← href, ← heq]; rfl
          have hdone : answer = .done := by
            cases t with
            | installRmi job' => cases answer <;> first | rfl | cases hr
            | _ => cases hjob
          exact hwork (hid ▸ hspares hdone _ hp job hjob e (hid ▸ he) heq.symm)
        obtain ⟨hrun, hrm, hrmi⟩ := cmd_spares (h.tasks _ hmem) href
          (fun hid => hwork (atWork_tasksOf.2 ⟨_, hmem, hid⟩)) hdiscards
        exact .inr (hintact.exec hexec hrun hrm hrmi)
  · refine ⟨h.entries, htasks, h.named, fun id e he => ?_⟩
    rw [tasksOf_set hp]
    exact h.intact id e he

/-- **Every step that meets the side condition keeps the invariant.** -/
theorem Kept.step {timeout : ℕ} {w w' : World Podman.engine} {a : Action Podman.engine}
    (h : Kept w) (hguard : KeepsIntact w a) (hstep : w.step timeout a = some w') : Kept w' := by
  obtain ⟨hfinds, hspares⟩ := hguard
  cases step_eq_some_iff.1 hstep with
  | install job running hrun =>
      have hissue : Kept (w.issue job) := ⟨h.entries, h.tasks, h.named, h.intact⟩
      exact hissue.settle (fun p hp => hp) (fun p hp => .inr hp) (tidy_installAdapter job running)
        hfinds
  | remove id =>
      exact h.settle (fun p hp => hp) (fun p hp => .inr hp)
        (tidy_removeAdapter fun adapter hadapter => h.entries id adapter hadapter) hfinds
  | offload candidates _ hperm =>
      have hturn : (runOffloadCycle [] candidates).Tidy none := by
        refine tidy_runOffloadCycle (by simp) (fun e he => ?_) (by simp)
        exact h.entries _ e (StateManager.mem_getOffloadCandidates.1 (hperm.mem_iff.1 he)).1
      exact h.settle (fun p hp => hp) (fun p hp => .inr hp) hturn hfinds
  | exec i answer t r s hp hr hs => exact h.exec hp hr hs hspares
  | resume i t r hp =>
      have hturn : w.turn (.resume i) = t.resume r := by simp [World.turn, hp]
      rw [hturn] at hfinds
      refine h.settle (fun p hp' => Pool.mem_of_mem_eraseIdx hp') (fun p hp' => ?_)
        (tidy_resume (h.tasks _ (List.mem_of_getElem? hp)) r) hfinds
      rcases Pool.eq_or_mem_eraseIdx hp hp' with rfl | hp'
      · exact .inl rfl
      · exact .inr hp'
  | env e s hs =>
      cases e with
      | exit name =>
          obtain ⟨-, hs⟩ := Option.ite_none_right_eq_some.1 hs
          cases hs
          exact ⟨h.entries, h.tasks, h.named.halt name,
            fun id e he => (h.intact id e he).imp_right fun hintact => hintact.halt name⟩
      | outage on =>
          cases hs
          exact ⟨h.entries, h.tasks, h.named, h.intact⟩
  | tick clk _ => exact ⟨h.entries, h.tasks, h.named, h.intact⟩

end UpdateService
