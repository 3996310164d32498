/-
**Offload candidates over histories.**

The time of a stop is stored in one place, when a transition enters `stopped`, and never cleared; it
is looked at together with the state only.  As long as entries are created the way an install call
creates them, neither stopped nor with a time, this makes the candidates those adapters whose latest
transition was to `stopped` and is long enough ago, however often they have been stopped, started
and created before.

Main definitions:

* `UpdateService.CreatesFresh` — entries are created as install calls create them;
* `UpdateService.Tracks`, `UpdateService.LatestStop` — an adapter has been created and not removed;
  its latest transition since then was to `stopped`.

Main results:

* `UpdateService.stored_replay` — what is stored of an adapter;
* `UpdateService.offloadCandidates_exact` — the candidates of every history.
-/

import Mathlib.Data.List.Induction
import ParkingFeeService.UpdateHistory

set_option relaxedAutoImplicit false
set_option autoImplicit false

namespace UpdateService

/-- Entries are created as an install call creates them. -/
def CreatesFresh (ops : History) : Prop :=
  ∀ x ∈ ops, ∀ entry, x.2 = .write (.create entry) →
    entry.state = .unknown ∧ entry.stoppedAt = none

/-- The history consists of `before`, the most recent creation of the adapter, and `since`, in which
it is not removed. -/
def Tracks (id : String) (ops : History) (since : History) : Prop :=
  ∃ before clk entry, ops = before ++ (clk, .write (.create entry)) :: since ∧
    entry.adapterId = id ∧ ¬ Creates id since ∧ ¬ Removes id since

/-- The latest transition of the adapter since its most recent creation was to `stopped`, at the
given time, and the adapter has not been removed. -/
def LatestStop (id : String) (time : ℕ) (ops : History) : Prop :=
  ∃ upTo since clk msg after, ops = upTo ++ (clk, .write (.transition id .stopped msg)) :: after ∧
    Tracks id upTo since ∧ (∀ x ∈ after, ¬ x.2.Writes id) ∧ clk.instant = time

/-! ### Histories that go on -/

theorem CreatesFresh.left {ops ops' : History} (h : CreatesFresh (ops ++ ops')) :
    CreatesFresh ops := fun x hx => h x (List.mem_append_left _ hx)

theorem writes_of_creates {id : String} {op : Operation} (h : op.Creates id) : op.Writes id := by
  match op, h with
  | .write (.create _), h => exact h

/-- The time stored on entering `stopped`. -/
@[simp] theorem AdapterEntry.stoppedAt_enter_stopped (clk : Clock) (msg : Option String)
    (e : AdapterEntry) : (e.enter clk .stopped msg).stoppedAt = some clk.instant := by
  simp [enter]

/-- An operation that neither creates nor removes the adapter leaves it tracked. -/
theorem Tracks.concat {id : String} {ops since : History} (h : Tracks id ops since)
    {x : Clock × Operation} (hc : ¬ x.2.Creates id) (hr : x.2 ≠ .write (.remove id)) :
    Tracks id (ops ++ [x]) (since ++ [x]) := by
  obtain ⟨before, clk, entry, rfl, hid, hcreates, hremoves⟩ := h
  refine ⟨before, clk, entry, by simp, hid, ?_, ?_⟩
  · rintro ⟨y, hy, hcy⟩
    rcases List.mem_append.1 hy with hy | hy
    · exact hcreates ⟨y, hy, hcy⟩
    · rw [List.mem_singleton.1 hy] at hcy
      exact hc hcy
  · rintro ⟨y, hy, hry⟩
    rcases List.mem_append.1 hy with hy | hy
    · exact hremoves ⟨y, hy, hry⟩
    · rw [List.mem_singleton.1 hy] at hry
      exact hr hry

/-- An operation that does not write to the adapter leaves its latest stop. -/
theorem LatestStop.concat {id : String} {time : ℕ} {ops : History} (h : LatestStop id time ops)
    {x : Clock × Operation} (hx : ¬ x.2.Writes id) : LatestStop id time (ops ++ [x]) := by
  obtain ⟨upTo, since, clk, msg, after, rfl, htracks, hafter, htime⟩ := h
  refine ⟨upTo, since, clk, msg, after ++ [x], by simp, htracks, ?_, htime⟩
  intro y hy
  rcases List.mem_append.1 hy with hy | hy
  · exact hafter y hy
  · rw [List.mem_singleton.1 hy]
    exact hx

theorem replay_concat (sm : StateManager) (ops : History) (x : Clock × Operation) :
    replay sm (ops ++ [x]) = x.2.apply x.1 (replay sm ops) := replay_append sm ops [x]

/-! ### What is stored -/

/-- A stored entry is that of a tracked adapter, and if it is stopped, it has the time of the latest
stop. -/
theorem stored_replay {ops : History} {id : String} (hfresh : CreatesFresh ops) :
    ∀ {e : AdapterEntry}, (replay .new ops).getAdapter id = some e →
      (∃ since, Tracks id ops since) ∧
        (e.state = .stopped → ∃ time, e.stoppedAt = some time ∧ LatestStop id time ops) := by
  induction ops using List.reverseRecOn with
  | nil =>
      intro e he
      simp at he
  | append_singleton ops x ih =>
      obtain ⟨clk, op⟩ := x
      intro e he
      rw [replay_concat] at he
      by_cases hw : op.Writes id
      · match op, hw with
        | .write (.create entry), hid =>
            obtain rfl : entry.adapterId = id := hid
            have hentry : some entry = some e := by
              simpa [Operation.apply, Write.apply, StateManager.getAdapter_createAdapter] using he
            obtain rfl := Option.some.inj hentry
            refine ⟨⟨[], ops, clk, _, rfl, rfl, ?_, ?_⟩, ?_⟩
            · rintro ⟨y, hy, -⟩
              cases hy
            · rintro ⟨y, hy, -⟩
              cases hy
            · intro hst
              have hunknown := (hfresh _ (List.mem_append_right _ List.mem_cons_self) _ rfl).1
              rw [hunknown] at hst
              cases hst
        | .write (.transition id' st msg), hid =>
            obtain rfl : id' = id := hid
            have hentered : ((replay .new ops).getAdapter id').map (AdapterEntry.enter clk st msg) =
                some e := by
              simpa [Operation.apply, Write.apply, StateManager.getAdapter_keepTransition] using he
            obtain ⟨old, hold, rfl⟩ := Option.map_eq_some_iff.1 hentered
            obtain ⟨⟨since, htracks⟩, -⟩ := ih hfresh.left hold
            refine ⟨⟨_, htracks.concat id (by simp)⟩, ?_⟩
            intro hst
            obtain rfl : st = .stopped := hst
            exact ⟨clk.instant, by simp, ops, since, clk, msg, [], rfl, htracks, by simp, rfl⟩
        | .write (.remove id'), hid =>
            obtain rfl : id' = id := hid
            simp [Operation.apply, Write.apply, StateManager.getAdapter_keepRemove] at he
      · rw [(operation_of_not_writes clk _ hw).1] at he
        obtain ⟨⟨since, htracks⟩, hstop⟩ := ih hfresh.left he
        refine ⟨⟨_, htracks.concat (fun hc => hw (writes_of_creates hc)) ?_⟩, fun hst => ?_⟩
        · rintro rfl
          exact hw rfl
        · obtain ⟨time, htime, hlatest⟩ := hstop hst
          exact ⟨time, htime, hlatest.concat hw⟩

/-- A tracked adapter has an entry. -/
theorem getAdapter_of_tracks {id : String} {ops since : History} (h : Tracks id ops since) :
    ∃ e, (replay .new ops).getAdapter id = some e := by
  obtain ⟨before, clk, entry, rfl, rfl, hcreates, hremoves⟩ := h
  have hcreated : ((Operation.write (.create entry)).apply clk (replay .new before)).stateAt
      entry.adapterId = some entry.state := by simp [Operation.apply]
  obtain ⟨events, last, -, -, -, hkeep⟩ := leads_replay hcreates hcreated
  rw [replay_append, replay_cons]
  obtain ⟨e, he, -⟩ := Option.map_eq_some_iff.1 (hkeep hremoves)
  exact ⟨e, he⟩

/-- Operations that do not write to an adapter leave its entry. -/
theorem getAdapter_replay_of_not_writes {id : String} {ops : History}
    (h : ∀ x ∈ ops, ¬ x.2.Writes id) :
    ∀ sm : StateManager, (replay sm ops).getAdapter id = sm.getAdapter id := by
  induction ops with
  | nil => intro sm; rfl
  | cons x ops ih =>
      intro sm
      rw [replay_cons, ih fun y hy => h y (List.mem_cons_of_mem _ hy)]
      exact (operation_of_not_writes x.1 sm (h x List.mem_cons_self)).1

/-- An adapter whose latest transition was to `stopped` is stopped, with that time. -/
theorem stopped_of_latestStop {id : String} {time : ℕ} {ops : History}
    (h : LatestStop id time ops) :
    ∃ e, (replay .new ops).getAdapter id = some e ∧ e.state = .stopped ∧
      e.stoppedAt = some time := by
  obtain ⟨upTo, since, clk, msg, after, rfl, htracks, hafter, rfl⟩ := h
  obtain ⟨old, hold⟩ := getAdapter_of_tracks htracks
  refine ⟨old.enter clk .stopped msg, ?_, rfl, by simp⟩
  rw [replay_append, replay_cons, getAdapter_replay_of_not_writes hafter]
  simp [Operation.apply, Write.apply, StateManager.getAdapter_keepTransition, hold]

/-! ### The candidates -/

/-- **The candidates are exactly the adapters whose latest transition was to `stopped`, at least the
timeout ago**, each of them once, and the time stored with a stopped adapter is that of its latest
transition to `stopped`. -/
theorem offloadCandidates_exact {ops : History} (hfresh : CreatesFresh ops) (clk : Clock)
    (timeout : ℕ) :
    ((((replay .new ops).getOffloadCandidates clk timeout).map AdapterEntry.adapterId).Nodup ∧
      ∀ id, id ∈ ((replay .new ops).getOffloadCandidates clk timeout).map AdapterEntry.adapterId ↔
        ∃ time, LatestStop id time ops ∧ timeout ≤ clk.instant - time) ∧
    ∀ id e, (replay .new ops).getAdapter id = some e → e.state = .stopped →
      ∃ time, e.stoppedAt = some time ∧ LatestStop id time ops := by
  refine ⟨⟨StateManager.nodup_adapterId_filter _ _, fun id => ?_⟩, fun id e he hst =>
    (stored_replay hfresh he).2 hst⟩
  rw [List.mem_map]
  constructor
  · rintro ⟨e, he, rfl⟩
    obtain ⟨hget, hst, time, htime, helapsed⟩ := StateManager.mem_getOffloadCandidates.1 he
    obtain ⟨time', htime', hlatest⟩ := (stored_replay hfresh hget).2 hst
    cases htime.symm.trans htime'
    exact ⟨time, hlatest, helapsed⟩
  · rintro ⟨time, hlatest, helapsed⟩
    obtain ⟨e, hget, hst, htime⟩ := stopped_of_latestStop hlatest
    have hid := StateManager.adapterId_of_getAdapter hget
    refine ⟨e, StateManager.mem_getOffloadCandidates.2 ⟨?_, hst, time, htime, helapsed⟩, hid⟩
    rw [hid]
    exact hget

/-- An adapter that was stopped, left `stopped`, and was stopped again. -/
def stopsTwice : History :=
  [(⟨0, 0⟩, .write (.create ⟨"a-1", "registry/a:1", "sum-a", .unknown, "job-a", none, none⟩)),
    (⟨10, 10⟩, .write (.transition "a-1" .stopped none)),
    (⟨20, 20⟩, .write (.transition "a-1" .running none)),
    (⟨30, 30⟩, .write (.transition "a-1" .stopped none))]

/-- It is a candidate once the timeout has passed since the second stop. -/
theorem offloadCandidates_stopsTwice :
    ∃ time, LatestStop "a-1" time stopsTwice ∧ 100 ≤ 130 - time := by
  have hfresh : CreatesFresh stopsTwice := by
    intro x hx entry hentry
    simp only [stopsTwice, List.mem_cons, List.not_mem_nil, or_false] at hx
    rcases hx with rfl | rfl | rfl | rfl <;> cases hentry
    exact ⟨rfl, rfl⟩
  refine ((offloadCandidates_exact hfresh ⟨130, 130⟩ 100).1.2 "a-1").1 ?_
  decide

end UpdateService
