/-
**No adapter stays in a transient state.**

`unknown`, `downloading`, `installing` and `offloading` are states on the way to another one: some
task in flight owes the adapter its next write.  Tasks overlap on one id, a later write may find the
entry removed or created anew, and errors of writes are discarded; but a task leaves an adapter it
owes a write only by making it, or by handing it to the task that follows, and a state becomes
transient only by a write whose task goes on.

Main definitions:

* `UpdateService.AdapterState.Transient`;
* `UpdateService.Task.owes` — the adapter to which a task owes a write;
* `UpdateService.Turn.Pays` — what a turn leaves transient is owed;
* `UpdateService.Owed` — the invariant.

Main results:

* `UpdateService.pays_resume` — every task pays when it is resumed;
* `UpdateService.settled_of_idle` — every adapter has a final state once only monitors and
  calls waiting to begin their installation are left.
-/

import ParkingFeeService.UpdateSingleRunning

set_option relaxedAutoImplicit false
set_option autoImplicit false

namespace UpdateService

variable {P : Podman}

/-! ### Transient states -/

/-- A state on the way to another one. -/
def AdapterState.Transient : AdapterState → Prop
  | .unknown | .downloading | .installing | .offloading => True
  | .running | .stopped | .error => False

theorem AdapterState.not_transient_iff {st : AdapterState} :
    ¬ st.Transient ↔ st = .running ∨ st = .stopped ∨ st = .error := by
  cases st <;> simp [Transient]

/-- The adapter to which a task owes a write. -/
def Task.owes : Task → Option String
  | .installPull job => some job.adapterId
  | .installInspect job => some job.adapterId
  | .installRun job => some job.adapterId
  | .offloadRm adapter _ => some adapter.adapterId
  | .offloadRmi adapter _ => some adapter.adapterId
  | _ => none

/-- The write leaves no transient state behind. -/
def Write.Final : Write → Prop
  | .create _ => False
  | .transition _ st _ => ¬ st.Transient
  | .remove _ => True

/-- An adapter that is in a transient state after final writes was in it before, and none of them
was to it. -/
theorem untouched_of_final {clk : Clock} {ws : List Write} {id : String} {st : AdapterState}
    (htr : st.Transient) :
    ∀ {sm : StateManager}, (∀ w ∈ ws, w.Final) → (applyAll clk sm ws).stateAt id = some st →
      sm.stateAt id = some st ∧ ∀ w ∈ ws, w.target ≠ id := by
  induction ws with
  | nil =>
      intro sm _ h
      exact ⟨h, by simp⟩
  | cons w ws ih =>
      intro sm hfinal h
      obtain ⟨hst, hne⟩ := ih (fun w' hw' => hfinal w' (List.mem_cons_of_mem _ hw')) h
      have hw : w.Final := hfinal w List.mem_cons_self
      have htarget : w.target ≠ id := by
        rintro rfl
        rw [stateAt_apply, if_pos rfl] at hst
        cases w with
        | create entry => exact hw
        | transition id' st' msg =>
            obtain ⟨old, -, rfl⟩ := Option.map_eq_some_iff.1 hst
            exact hw htr
        | remove id' => cases hst
      rw [stateAt_apply, if_neg htarget.symm] at hst
      refine ⟨hst, fun w' hw' => ?_⟩
      rcases List.mem_cons.1 hw' with rfl | hw'
      · exact htarget
      · exact hne w' hw'

/-! ### Turns -/

/-- What a turn leaves transient is owed by a task that follows, or was transient already and not
owed by the task whose turn it is. -/
def Turn.Pays (turn : Turn) (clk : Clock) (sm : StateManager) (owed : Option String) : Prop :=
  ∀ id st, (applyAll clk sm turn.writes).stateAt id = some st → st.Transient →
    (∃ t ∈ turn.tasks, t.owes = some id) ∨
      (sm.stateAt id = some st ∧ owed ≠ some id)

variable {clk : Clock} {sm : StateManager} {owed : Option String}

/-- A turn of final writes, one of them to the adapter owed, or followed by a task that owes it. -/
theorem pays_of_final {turn : Turn} (hfinal : ∀ w ∈ turn.writes, w.Final)
    (howed : ∀ id, owed = some id →
      (∃ w ∈ turn.writes, w.target = id) ∨ ∃ t ∈ turn.tasks, t.owes = some id) :
    turn.Pays clk sm owed := by
  intro id st hst htr
  obtain ⟨hsm, hne⟩ := untouched_of_final htr hfinal hst
  by_cases hid : owed = some id
  · rcases howed id hid with ⟨w, hw, htarget⟩ | howes
    · exact absurd htarget (hne w hw)
    · exact .inl howes
  · exact .inr ⟨hsm, hid⟩

/-- The turn of a task that makes the final write it owes. -/
theorem pays_transition {turn : Turn} (id : String) (st : AdapterState) (msg : Option String)
    (hw : turn.writes = [.transition id st msg]) (hst : ¬ st.Transient)
    (howed : owed = some id ∨ owed = none) : turn.Pays clk sm owed := by
  refine pays_of_final ?_ fun id' hid' => .inl ⟨.transition id st msg, ?_, ?_⟩
  · rw [hw]
    intro w hw'
    cases List.mem_singleton.1 hw'
    exact hst
  · rw [hw]
    exact List.mem_singleton_self _
  · rcases howed with rfl | rfl
    · exact Option.some.inj hid'
    · cases hid'

/-- A turn that writes nothing and hands what it owes to the task that follows. -/
theorem pays_of_quiet {turn : Turn} (hw : turn.writes = [])
    (howed : ∀ id, owed = some id → ∃ t ∈ turn.tasks, t.owes = some id) :
    turn.Pays clk sm owed := by
  refine pays_of_final ?_ fun id hid => .inr (howed id hid)
  rw [hw]
  intro w hw'
  cases hw'

/-- A turn of final writes by a task that owes nothing. -/
theorem pays_of_unowed {turn : Turn} (hfinal : ∀ w ∈ turn.writes, w.Final) :
    turn.Pays clk sm none := pays_of_final hfinal (by simp)

/-- A turn that makes final writes, and then moves one more adapter into the transient state that
the task following it owes. -/
theorem pays_of_begins {turn : Turn} (before : List Write) (id : String) {tail : List Write}
    {t : Task} (hw : turn.writes = before ++ tail) (htail : ∀ w ∈ tail, w.target = id)
    (ht : t ∈ turn.tasks) (howes : t.owes = some id) (hfinal : ∀ w ∈ before, w.Final)
    (howed : ∀ id', owed = some id' → id' = id ∨ ∃ w ∈ before, w.target = id') :
    turn.Pays clk sm owed := by
  intro id' st hst htr
  by_cases hid : id' = id
  · exact .inl ⟨t, ht, hid ▸ howes⟩
  · have hbefore : (applyAll clk sm before).stateAt id' = some st := by
      rw [hw, applyAll_append] at hst
      rw [StateManager.stateAt] at hst ⊢
      rwa [← getAdapter_applyAll_of_ne clk (applyAll clk sm before) fun w hw' heq =>
        hid (heq.trans (htail w hw'))]
    obtain ⟨hsm, hne⟩ := untouched_of_final htr hfinal hbefore
    refine .inr ⟨hsm, fun heq => ?_⟩
    rcases howed id' heq with rfl | ⟨w, hwm, htarget⟩
    · exact hid rfl
    · exact hne w hwm htarget

/-- The rest of an install call: the new entry is owed by the background task. -/
theorem pays_installCreate {before : List Write} (job : InstallJob)
    (hfinal : ∀ w ∈ before, w.Final) : (installCreate before job).Pays clk sm none := by
  refine pays_of_begins before job.adapterId rfl ?_ List.mem_cons_self rfl hfinal (by simp)
  simp [Write.target]

/-- An offload cycle goes on: the next candidate is owed by the cycle, and the one before has got
its last write. -/
theorem pays_runOffloadCycle {before : List Write} (rest : List AdapterEntry)
    (hfinal : ∀ w ∈ before, w.Final)
    (howed : ∀ id, owed = some id → ∃ w ∈ before, w.target = id) :
    (runOffloadCycle before rest).Pays clk sm owed := by
  cases rest with
  | nil => exact pays_of_final hfinal fun id hid => .inl (howed id hid)
  | cons c rest =>
      refine pays_of_begins before c.adapterId rfl ?_ List.mem_cons_self rfl hfinal
        fun id hid => .inr (howed id hid)
      simp [Write.target]

/-- Every task pays when it is resumed. -/
theorem pays_resume (t : Task) (r : Reply t.cmd) : (t.resume r).Pays clk sm t.owes := by
  cases t with
  | installStop job running =>
      cases r with
      | ok u => exact pays_installCreate job (by simp [Write.Final, AdapterState.Transient])
      | error e => exact pays_installCreate job (by simp [Write.Final, AdapterState.Transient])
  | installPull job =>
      cases r with
      | ok u => exact pays_of_quiet rfl fun id hid => ⟨_, List.mem_cons_self, hid⟩
      | error e => exact pays_transition _ _ _ rfl (fun h => h) (.inl rfl)
  | installInspect job =>
      cases r with
      | ok digest =>
          by_cases hd : digest = job.checksumSha256
          · rw [resume_installInspect_of_eq hd]
            exact pays_of_begins [] job.adapterId rfl (by simp [Write.target])
              List.mem_cons_self rfl (by simp) fun id hid => .inl (Option.some.inj hid).symm
          · rw [resume_installInspect_of_ne hd]
            exact pays_transition _ _ _ rfl (fun h => h) (.inl rfl)
      | error e => exact pays_transition _ _ _ rfl (fun h => h) (.inl rfl)
  | installRmi job => exact pays_of_unowed (by simp [Task.resume])
  | installRun job =>
      cases r with
      | ok u => exact pays_transition _ _ _ rfl (fun h => h) (.inl rfl)
      | error e => exact pays_transition _ _ _ rfl (fun h => h) (.inl rfl)
  | monitorWait job =>
      obtain ⟨st, msg, hst, hturn⟩ := resume_monitorWait job r
      rw [hturn]
      rcases hst with rfl | rfl
      · exact pays_transition _ _ _ rfl (fun h => h) (.inr rfl)
      · exact pays_transition _ _ _ rfl (fun h => h) (.inr rfl)
  | removeStop id adapter =>
      cases r with
      | ok u => exact pays_of_unowed (by simp [Task.resume])
      | error e => exact pays_transition _ _ _ rfl (fun h => h) (.inr rfl)
  | removeRm id adapter =>
      cases r with
      | ok u => exact pays_of_unowed (by simp [Task.resume])
      | error e => exact pays_transition _ _ _ rfl (fun h => h) (.inr rfl)
  | removeRmi id adapter =>
      cases r with
      | ok u => exact pays_of_unowed (by simp [Task.resume, Write.Final])
      | error e => exact pays_transition _ _ _ rfl (fun h => h) (.inr rfl)
  | offloadRm adapter rest =>
      cases r with
      | ok u => exact pays_of_quiet rfl fun id hid => ⟨_, List.mem_cons_self, hid⟩
      | error e =>
          exact pays_runOffloadCycle rest (by simp [Write.Final, AdapterState.Transient])
            fun id hid => ⟨_, List.mem_cons_self, Option.some.inj hid⟩
  | offloadRmi adapter rest =>
      cases r with
      | ok u =>
          exact pays_runOffloadCycle rest (by simp [Write.Final])
            fun id hid => ⟨_, List.mem_cons_self, Option.some.inj hid⟩
      | error e =>
          exact pays_runOffloadCycle rest (by simp [Write.Final, AdapterState.Transient])
            fun id hid => ⟨_, List.mem_cons_self, Option.some.inj hid⟩

/-! ### Runs -/

/-- Every adapter in a transient state is owed a write by a task in flight. -/
def Owed (w : World P) : Prop :=
  ∀ id st, w.sm.stateAt id = some st → st.Transient → ∃ p ∈ w.procs, p.task.owes = some id

theorem owed_init (clk : Clock) : Owed (World.init P clk) := by
  intro id st hst
  simp [World.init] at hst

/-- A turn that pays keeps the invariant, if the tasks that stay are all but the one whose turn it
is. -/
theorem Owed.settle {w : World P} {others : List Proc} {turn : Turn} (h : Owed w)
    (owed : Option String)
    (hothers : ∀ p ∈ w.procs, p.task.owes = owed ∨ p ∈ others)
    (hpays : turn.Pays w.clk w.sm owed) : Owed (w.settle others turn) := by
  intro id st hst htr
  rw [World.settle_procs]
  rcases hpays id st hst htr with ⟨t, ht, howes⟩ | ⟨hsm, hne⟩
  · exact ⟨Proc.start t, List.mem_append_right _ (List.mem_map_of_mem ht), howes⟩
  · obtain ⟨p, hp, howes⟩ := h id st hsm htr
    rcases hothers p hp with heq | hp'
    · exact absurd (heq.symm.trans howes) hne
    · exact ⟨p, List.mem_append_left _ hp', howes⟩

/-- Every step keeps the invariant. -/
theorem Owed.step {timeout : ℕ} {w w' : World P} {a : Action P} (h : Owed w)
    (hstep : w.step timeout a = some w') : Owed w' := by
  cases step_eq_some_iff.1 hstep with
  | install job running _ =>
      have hissue : Owed (w.issue job) := h
      refine hissue.settle none (fun p hp => .inr hp) ?_
      by_cases hv : job.Valid
      · cases running with
        | none =>
            rw [installAdapter_none hv]
            exact pays_installCreate job (by simp)
        | some r =>
            rw [installAdapter_some hv]
            exact pays_of_unowed (by simp)
      · exact pays_of_unowed (by simp [(installAdapter_of_not_valid running hv).1])
  | remove id =>
      exact h.settle none (fun p hp => .inr hp) (pays_of_unowed (by simp))
  | offload candidates _ _ =>
      exact h.settle none (fun p hp => .inr hp)
        (pays_runOffloadCycle candidates (by simp) (by simp))
  | exec i answer t r s hp _ _ =>
      intro id st hst htr
      obtain ⟨p, hpm, howes⟩ := h id st hst htr
      rcases Pool.eq_or_mem_set hp hpm ⟨t, some r⟩ with rfl | hpm'
      · exact ⟨⟨t, some r⟩, Pool.mem_set_self hp _, howes⟩
      · exact ⟨p, hpm', howes⟩
  | resume i t r hp =>
      refine h.settle t.owes (fun p hpm => ?_) (pays_resume t r)
      rcases Pool.eq_or_mem_eraseIdx hp hpm with rfl | hpm'
      · exact .inl rfl
      · exact .inr hpm'
  | env e s _ => exact h
  | tick clk' _ => exact h

/-- The task is the monitor of a container, or an install call that has not created its entry. -/
def Task.Idle : Task → Prop
  | .monitorWait _ | .installStop _ _ => True
  | _ => False

instance : (t : Task) → Decidable t.Idle
  | .monitorWait _ | .installStop _ _ => isTrue trivial
  | .installPull _ | .installInspect _ | .installRmi _ | .installRun _ | .removeStop _ _
  | .removeRm _ _ | .removeRmi _ _ | .offloadRm _ _ | .offloadRmi _ _ => isFalse id

theorem Task.Idle.owes_eq_none {t : Task} (h : t.Idle) : t.owes = none := by
  cases t with
  | monitorWait | installStop => rfl
  | installPull | installInspect | installRmi | installRun | removeStop | removeRm | removeRmi
  | offloadRm | offloadRmi => exact h.elim

/-- **Every adapter is running, stopped or in error** once every install task, removal and offload
cycle has run to completion. -/
theorem settled_of_idle {timeout : ℕ} {clk : Clock} {w : World P}
    (h : Lts.Reach (World.step timeout) (World.init P clk) w)
    (hq : ∀ p ∈ w.procs, p.task.Idle) {id : String} {e : AdapterEntry}
    (he : w.sm.getAdapter id = some e) :
    e.state = .running ∨ e.state = .stopped ∨ e.state = .error := by
  have howed : Owed w := h.invariant (owed_init clk) fun s a s' hs hstep => hs.step hstep
  rw [← AdapterState.not_transient_iff]
  intro htr
  obtain ⟨p, hp, howes⟩ := howed id e.state (StateManager.stateAt_of_getAdapter he) htr
  rw [(hq p hp).owes_eq_none] at howes
  cases howes

/-- The same adapter is installed twice: the download of the first call fails while the second call
is running it. -/
def installsTwice : List (Action Podman.free) :=
  [.install jobA none, .install jobA none, .exec 0 (.failed ⟨"no network"⟩)] ++
    bringUp jobA 1 1 ++ [.resume 0]

/-- The failure is written to the entry of the second call, and nothing is left to be done. -/
theorem settled_installsTwice :
    ∃ w, Lts.run (World.step 0) (World.init Podman.free ⟨0, 0⟩) installsTwice = some w ∧
      ∃ e, w.sm.getAdapter "a-1" = some e ∧
        (e.state = .running ∨ e.state = .stopped ∨ e.state = .error) := by
  have hrun : (Lts.run (World.step 0) (World.init Podman.free ⟨0, 0⟩) installsTwice).map (fun w =>
      decide ((∀ p ∈ w.procs, p.task.Idle) ∧ (w.sm.getAdapter "a-1").isSome)) =
        some true := by decide
  obtain ⟨w, hw, hd⟩ := Option.map_eq_some_iff.1 hrun
  obtain ⟨hq, hsome⟩ := of_decide_eq_true hd
  obtain ⟨e, he⟩ := Option.isSome_iff_exists.1 hsome
  exact ⟨w, hw, e, he, settled_of_idle (Lts.reach_of_run hw) hq he⟩

end UpdateService
