/-
**A journal of the writes to the adapter map.**

What a task found when it wrote, and who wrote before it, is not in the state of the service.  The
journaled service keeps both beside the state: one record for every write to the map, with its
author, the clocks and the state the adapter was in.  It takes the steps of the service and no
others, so that what is proved about the journal is proved about every run.

The offload timer runs one cycle after the other; a cycle is named by its number.

Main definitions:

* `UpdateService.Author`, `UpdateService.Record`, `UpdateService.recordAll`;
* `UpdateService.lastStopped` — when an adapter was last moved to `stopped`, by the journal;
* `UpdateService.World.turn` — the turn that a step takes;
* `UpdateService.Journaled`, `UpdateService.Journaled.step`.

Main results:

* `UpdateService.reach_journaled_iff` — the journaled service reaches the states the service does;
* `UpdateService.replay_records`, `UpdateService.finds_records` — the journal, replayed, gives the
  map, and every record holds the state that the records before it leave.
-/

import ParkingFeeService.UpdateHistory
import ParkingFeeService.UpdateWorld

set_option relaxedAutoImplicit false
set_option autoImplicit false

namespace UpdateService

variable {P : Podman}

/-! ### Records -/

/-- Who makes a write: an offload cycle, or any other task or call. -/
inductive Author
  | cycle (n : ℕ)
  | other
  deriving DecidableEq, Repr

/-- A write as it was made, with the state its adapter was in before. -/
structure Record where
  author : Author
  clk : Clock
  old : Option AdapterState
  write : Write
  deriving DecidableEq, Repr

/-- The record as an operation of a history. -/
def Record.operation (r : Record) : Clock × Operation := (r.clk, .write r.write)

/-- The adapter and the state of a transition that has an effect. -/
def Record.enters (r : Record) : Option (String × AdapterState) :=
  match r.write with
  | .transition id st _ => r.old.map fun _ => (id, st)
  | _ => none

/-- The adapter of a removal that has an effect. -/
def Record.removes (r : Record) : Option String :=
  match r.write with
  | .remove id => r.old.map fun _ => id
  | _ => none

/-- The record of a write that is made now. -/
def recordOf (author : Author) (clk : Clock) (sm : StateManager) (w : Write) : Record :=
  ⟨author, clk, sm.stateAt w.target, w⟩

/-- The records of a list of writes, in order. -/
def recordAll (author : Author) (clk : Clock) : StateManager → List Write → List Record
  | _, [] => []
  | sm, w :: ws => recordOf author clk sm w :: recordAll author clk (w.apply clk sm) ws

@[simp] theorem recordAll_nil (author : Author) (clk : Clock) (sm : StateManager) :
    recordAll author clk sm [] = [] := rfl

@[simp] theorem recordAll_cons (author : Author) (clk : Clock) (sm : StateManager) (w : Write)
    (ws : List Write) : recordAll author clk sm (w :: ws) =
      recordOf author clk sm w :: recordAll author clk (w.apply clk sm) ws := rfl

theorem recordAll_append (author : Author) (clk : Clock) (ws ws' : List Write) :
    ∀ sm : StateManager, recordAll author clk sm (ws ++ ws') =
      recordAll author clk sm ws ++ recordAll author clk (applyAll clk sm ws) ws' := by
  induction ws with
  | nil => intro sm; rfl
  | cons w ws ih => intro sm; exact congrArg (recordOf author clk sm w :: ·) (ih _)

/-- Replaying the records of a list of writes makes these writes. -/
theorem replay_recordAll (author : Author) (clk : Clock) (ws : List Write) :
    ∀ sm : StateManager,
      replay sm ((recordAll author clk sm ws).map Record.operation) = applyAll clk sm ws := by
  induction ws with
  | nil => intro sm; rfl
  | cons w ws ih =>
      intro sm
      rw [recordAll_cons, List.map_cons, replay_cons, applyAll_cons, ← ih]
      rfl

/-- Every record holds the state its adapter was in when the records before it had been made. -/
def Finds : StateManager → List Record → Prop
  | _, [] => True
  | sm, r :: rs => r.old = sm.stateAt r.write.target ∧ Finds (r.write.apply r.clk sm) rs

theorem finds_append {rs rs' : List Record} :
    ∀ {sm : StateManager}, Finds sm (rs ++ rs') ↔
      Finds sm rs ∧ Finds (replay sm (rs.map Record.operation)) rs' := by
  induction rs with
  | nil => intro sm; simp [Finds]
  | cons r rs ih =>
      intro sm
      rw [List.cons_append, Finds, ih, Finds, and_assoc]
      rfl

theorem finds_recordAll (author : Author) (clk : Clock) (ws : List Write) :
    ∀ sm : StateManager, Finds sm (recordAll author clk sm ws) := by
  induction ws with
  | nil => intro sm; trivial
  | cons w ws ih => intro sm; exact ⟨rfl, ih _⟩

/-- When the adapter was last moved to `stopped`. -/
def lastStopped (id : String) (rs : List Record) : Option ℕ :=
  (rs.filter fun r => r.enters = some (id, .stopped)).getLast?.map fun r => r.clk.instant

theorem lastStopped_concat (id : String) (rs : List Record) (r : Record) :
    lastStopped id (rs ++ [r]) =
      if r.enters = some (id, .stopped) then some r.clk.instant else lastStopped id rs := by
  rw [lastStopped, List.filter_append]
  by_cases h : r.enters = some (id, .stopped)
  · simp [h]
  · simp [h, lastStopped]

/-- A record about another adapter. -/
theorem enters_ne_of_target_ne {r : Record} {id : String} (st : AdapterState)
    (h : r.write.target ≠ id) : r.enters ≠ some (id, st) := by
  intro henters
  rw [Record.enters] at henters
  split at henters
  · next id' st' msg hw =>
      obtain ⟨old, -, heq⟩ := Option.map_eq_some_iff.1 henters
      cases heq
      exact h (by rw [hw]; rfl)
  · cases henters

/-! ### The journaled service -/

/-- The turn that a step takes: that of a call, of the offload timer, or of a task. -/
def World.turn (w : World P) : Action P → Turn
  | .install job running => installAdapter job running
  | .remove id => removeAdapter id (w.sm.getAdapter id)
  | .offload candidates => runOffloadCycle [] candidates
  | .resume i =>
      match w.procs[i]? with
      | some ⟨t, some r⟩ => t.resume r
      | _ => {}
  | .exec _ _ | .env _ | .tick _ => {}

/-- The step is one of the offload timer. -/
def World.byCycle (w : World P) : Action P → Bool
  | .offload _ => true
  | .resume i => w.procs[i]?.any fun p => p.task.isOffload
  | .install _ _ | .remove _ | .exec _ _ | .env _ | .tick _ => false

/-- A step writes what its turn writes, and nothing else. -/
theorem sm_of_moves {timeout : ℕ} {w w' : World P} {a : Action P} (h : Moves timeout w a w') :
    w'.sm = applyAll w.clk w.sm (w.turn a).writes := by
  cases h with
  | install | remove | offload | exec | env | tick => rfl
  | resume i t r hp => simp [World.turn, hp]

/-- The service with the number of the latest offload cycle and the journal of its writes. -/
structure Journaled (P : Podman) where
  world : World P
  cycle : ℕ
  records : List Record

/-- A service that has just started has written nothing. -/
def Journaled.init (P : Podman) (clk : Clock) : Journaled P := ⟨World.init P clk, 0, []⟩

/-- The number of the latest cycle after a step. -/
def Action.cycleAfter (n : ℕ) : Action P → ℕ
  | .offload _ => n + 1
  | .install _ _ | .remove _ | .exec _ _ | .resume _ | .env _ | .tick _ => n

/-- The author of what a step writes. -/
def Journaled.author (s : Journaled P) (a : Action P) : Author :=
  if s.world.byCycle a then .cycle (a.cycleAfter s.cycle) else .other

/-- One step of the service, with its writes recorded. -/
def Journaled.step (timeout : ℕ) (s : Journaled P) (a : Action P) : Option (Journaled P) :=
  (s.world.step timeout a).map fun w =>
    { world := w
      cycle := a.cycleAfter s.cycle
      records := s.records ++
        recordAll (s.author a) s.world.clk s.world.sm (s.world.turn a).writes }

theorem journaled_step_iff {timeout : ℕ} {s s' : Journaled P} {a : Action P} :
    s.step timeout a = some s' ↔
      Moves timeout s.world a s'.world ∧ s'.cycle = a.cycleAfter s.cycle ∧
        s'.records = s.records ++
          recordAll (s.author a) s.world.clk s.world.sm (s.world.turn a).writes := by
  rw [Journaled.step, Option.map_eq_some_iff]
  constructor
  · rintro ⟨w, hw, rfl⟩
    exact ⟨step_eq_some_iff.1 hw, rfl, rfl⟩
  · obtain ⟨world, cycle, records⟩ := s'
    rintro ⟨hw, hcycle, hrecords⟩
    cases hcycle
    cases hrecords
    exact ⟨world, step_eq_some_iff.2 hw, rfl⟩

/-- The journal takes no step away and adds none. -/
theorem reach_journaled_iff {timeout : ℕ} {clk : Clock} {w : World P} :
    (∃ s, Lts.Reach (Journaled.step timeout) (Journaled.init P clk) s ∧ s.world = w) ↔
      Lts.Reach (World.step timeout) (World.init P clk) w := by
  constructor
  · rintro ⟨s, h, rfl⟩
    induction h with
    | refl => exact .refl
    | tail a _ hstep ih => exact ih.tail a (step_eq_some_iff.2 (journaled_step_iff.1 hstep).1)
  · intro h
    induction h with
    | refl => exact ⟨_, .refl, rfl⟩
    | @tail w w' a _ hstep ih =>
        obtain ⟨s, hs, rfl⟩ := ih
        exact ⟨_, hs.tail a (by rw [Journaled.step, hstep]; rfl), rfl⟩

/-- **The journal tells what is in the map.** -/
theorem replay_records {timeout : ℕ} {clk : Clock} {s : Journaled P}
    (h : Lts.Reach (Journaled.step timeout) (Journaled.init P clk) s) :
    replay .new (s.records.map Record.operation) = s.world.sm := by
  induction h with
  | refl => rfl
  | @tail s s' a _ hstep ih =>
      obtain ⟨hmoves, -, hrecords⟩ := journaled_step_iff.1 hstep
      rw [hrecords, List.map_append, replay_append, ih, replay_recordAll, sm_of_moves hmoves]

/-- The states in the records are those the writes found. -/
theorem finds_records {timeout : ℕ} {clk : Clock} {s : Journaled P}
    (h : Lts.Reach (Journaled.step timeout) (Journaled.init P clk) s) : Finds .new s.records := by
  induction h with
  | refl => trivial
  | @tail s s' a hs hstep ih =>
      rw [(journaled_step_iff.1 hstep).2.2, finds_append, replay_records hs]
      exact ⟨ih, finds_recordAll _ _ _ _⟩

end UpdateService
