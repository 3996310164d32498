/-
**Offloading touches only idle adapters.**

An offload cycle reads its candidates once and then works through them, with two podman commands
for each.  What it read about a candidate may no longer be true when it comes to it, and the entry
it removes in the end may be another one than it moved to `offloading`: an adapter that is installed
again while the cycle is busy with an earlier candidate is taken away from its installation.

A cycle does only touch idle adapters in every run in which nothing else changes or creates an
adapter between the moment a cycle takes it as a candidate and the moment the cycle is done with it.
Removing it in between is harmless.  The invariant is about the one cycle that may be in flight: the
candidates it has not come to are still stopped for long enough or gone, and the one it is at is
gone or was last written by the cycle itself.

Main definitions:

* `UpdateService.OffloadsIdle` — what the journal has to say about every cycle;
* `UpdateService.Write.Spares`, `UpdateService.SparesCandidates` — the side condition on the steps;
* `UpdateService.Cycling`, `UpdateService.OffloadKept` — the invariant.

Main results:

* `UpdateService.stale_candidate_offloaded` — a candidate that is installed again;
* `UpdateService.offloads_idle_of_spared` — every cycle offloads idle adapters under the side
  condition.
-/

import ParkingFeeService.UpdateJournal
import ParkingFeeService.UpdateSingleRunning

set_option relaxedAutoImplicit false
set_option autoImplicit false

namespace UpdateService

variable {P : Podman}

/-! ### The property -/

/-- The last write to the adapter was the cycle's own move to `offloading`. -/
def Owns (n : ℕ) (id : String) (rs : List Record) : Prop :=
  ∃ before r after, rs = before ++ r :: after ∧ r.author = .cycle n ∧
    r.enters = some (id, .offloading) ∧ ∀ r' ∈ after, r'.write.target ≠ id

/-- Every cycle offloads idle adapters. -/
structure OffloadsIdle (timeout : ℕ) (rs : List Record) : Prop where
  /-- an adapter that a cycle moves to `offloading` was stopped, and for at least the timeout -/
  idle : ∀ before r after n id, rs = before ++ r :: after → r.author = .cycle n →
    r.enters = some (id, .offloading) →
      r.old = some .stopped ∧ ∃ t, lastStopped id before = some t ∧ timeout ≤ r.clk.instant - t
  /-- an entry that a cycle removes is one it moved itself, and not written since -/
  own : ∀ before r after n id, rs = before ++ r :: after → r.author = .cycle n →
    r.removes = some id → Owns n id before

/-- The list cut at one of its elements, when it has a last one. -/
theorem eq_or_eq_of_concat {α : Type*} {l before after : List α} {x y : α}
    (h : l ++ [x] = before ++ y :: after) :
    (l = before ∧ x = y ∧ after = []) ∨ ∃ after', after = after' ++ [x] ∧
      l = before ++ y :: after' := by
  rcases List.eq_nil_or_concat after with rfl | ⟨after', z, rfl⟩
  · obtain ⟨hl, hx⟩ := List.append_inj' h rfl
    exact .inl ⟨hl, (List.cons.inj hx).1, rfl⟩
  · rw [List.concat_eq_append, ← List.cons_append, ← List.append_assoc] at h
    obtain ⟨hl, hx⟩ := List.append_inj' h rfl
    cases hx
    exact .inr ⟨after', List.concat_eq_append, hl⟩

theorem offloadsIdle_nil (timeout : ℕ) : OffloadsIdle timeout [] := by
  constructor
  · intro before r after n id h
    simp at h
  · intro before r after n id h
    simp at h

/-- One more record. -/
theorem OffloadsIdle.concat {timeout : ℕ} {rs : List Record} {r : Record}
    (h : OffloadsIdle timeout rs)
    (hidle : ∀ n id, r.author = .cycle n → r.enters = some (id, .offloading) →
      r.old = some .stopped ∧ ∃ t, lastStopped id rs = some t ∧ timeout ≤ r.clk.instant - t)
    (hown : ∀ n id, r.author = .cycle n → r.removes = some id → Owns n id rs) :
    OffloadsIdle timeout (rs ++ [r]) := by
  constructor
  · intro before r' after n id heq
    rcases eq_or_eq_of_concat heq with ⟨rfl, rfl, rfl⟩ | ⟨after', rfl, rfl⟩
    · exact hidle n id
    · exact h.idle before r' after' n id rfl
  · intro before r' after n id heq
    rcases eq_or_eq_of_concat heq with ⟨rfl, rfl, rfl⟩ | ⟨after', rfl, rfl⟩
    · exact hown n id
    · exact h.own before r' after' n id rfl

/-- A write to another adapter. -/
theorem Owns.concat {n : ℕ} {id : String} {rs : List Record} (h : Owns n id rs) {r : Record}
    (hr : r.write.target ≠ id) : Owns n id (rs ++ [r]) := by
  obtain ⟨before, r', after, rfl, hauthor, henters, hafter⟩ := h
  refine ⟨before, r', after ++ [r], by simp, hauthor, henters, ?_⟩
  intro r'' hr''
  rcases List.mem_append.1 hr'' with hr'' | hr''
  · exact hafter r'' hr''
  · rw [List.mem_singleton.1 hr'']
    exact hr

/-- The move itself. -/
theorem owns_concat_self {n : ℕ} {id : String} (rs : List Record) {r : Record}
    (hauthor : r.author = .cycle n) (henters : r.enters = some (id, .offloading)) :
    Owns n id (rs ++ [r]) := ⟨rs, r, [], rfl, hauthor, henters, by simp⟩

/-! ### One cycle -/

/-- A stopped entry holds the moment at which it was last moved to `stopped`. -/
def StampsStopped (sm : StateManager) (rs : List Record) : Prop :=
  ∀ id e, sm.getAdapter id = some e → e.state = .stopped → e.stoppedAt = lastStopped id rs

/-- The adapter is gone, or stopped for at least the timeout. -/
def Expired (timeout : ℕ) (clk : Clock) (sm : StateManager) (id : String) : Prop :=
  ∀ e, sm.getAdapter id = some e →
    e.state = .stopped ∧ ∃ t, e.stoppedAt = some t ∧ timeout ≤ clk.instant - t

/-- The state of the map and of the journal while a cycle is at one candidate, or between two, and
the others are waiting. -/
structure Cycling (timeout : ℕ) (clk : Clock) (sm : StateManager) (rs : List Record) (n : ℕ)
    (current : Option String) (waiting : List String) : Prop where
  idle : OffloadsIdle timeout rs
  stamps : StampsStopped sm rs
  distinct : (current.toList ++ waiting).Nodup
  expired : ∀ id ∈ waiting, Expired timeout clk sm id
  owned : ∀ id, current = some id → sm.getAdapter id ≠ none → Owns n id rs

/-- The write does not create the adapters, or change them if they are known. -/
def Write.Spares (sm : StateManager) (ids : List String) : Write → Prop
  | .create entry => entry.adapterId ∉ ids
  | .transition id _ _ => id ∈ ids → sm.getAdapter id = none
  | .remove _ => True

instance (sm : StateManager) (ids : List String) : (w : Write) → Decidable (w.Spares sm ids)
  | .create entry => inferInstanceAs (Decidable (entry.adapterId ∉ ids))
  | .transition id _ _ => inferInstanceAs (Decidable (id ∈ ids → sm.getAdapter id = none))
  | .remove _ => isTrue trivial

/-- The entry a write creates is not a stopped one. -/
def Write.CreatesNoStopped : Write → Prop
  | .create entry => entry.state ≠ .stopped
  | .transition _ _ _ | .remove _ => True

variable {timeout : ℕ} {clk : Clock} {sm : StateManager} {rs : List Record} {n : ℕ}
  {current : Option String} {waiting : List String}

/-- A spared adapter that is written to is gone afterwards. -/
theorem getAdapter_apply_of_spares {ids : List String} {w : Write} (h : w.Spares sm ids)
    (hmem : w.target ∈ ids) : (w.apply clk sm).getAdapter w.target = none := by
  cases w with
  | create entry => exact absurd hmem h
  | transition id st msg =>
      have hnone : sm.getAdapter id = none := h hmem
      rw [Write.apply, Write.target, StateManager.keepTransition_of_none st msg hnone]
      exact hnone
  | remove id => exact (sm.getAdapter_keepRemove id id).trans (if_pos rfl)

/-- Adapters are spared by a write after another one has spared them. -/
theorem Write.Spares.apply {ids : List String} {w w' : Write} (h : w.Spares sm ids)
    (h' : w'.Spares sm ids) : w'.Spares (w.apply clk sm) ids := by
  cases w' with
  | create entry => exact h'
  | remove id => trivial
  | transition id st msg =>
      intro hmem
      by_cases hid : id = w.target
      · subst hid
        exact getAdapter_apply_of_spares h hmem
      · rw [getAdapter_apply_of_ne clk sm hid]
        exact h' hmem

/-- Every write keeps the moments that stopped entries hold. -/
theorem StampsStopped.apply (h : StampsStopped sm rs) (author : Author) {w : Write}
    (hw : w.CreatesNoStopped) :
    StampsStopped (w.apply clk sm) (rs ++ [recordOf author clk sm w]) := by
  intro id e he hst
  rw [lastStopped_concat]
  by_cases hid : id = w.target
  · subst hid
    cases w with
    | create entry =>
        rw [Write.apply, Write.target, StateManager.getAdapter_createAdapter, if_pos rfl] at he
        cases he
        exact absurd hst hw
    | transition id st msg =>
        rw [Write.apply, Write.target, StateManager.getAdapter_keepTransition, if_pos rfl] at he
        obtain ⟨e', he', rfl⟩ := Option.map_eq_some_iff.1 he
        obtain rfl : st = .stopped := hst
        have henters : (recordOf author clk sm (.transition id .stopped msg)).enters =
            some (id, .stopped) := by
          simp [recordOf, Record.enters, Write.target, StateManager.stateAt_of_getAdapter he']
        rw [Write.target, if_pos henters]
        rfl
    | remove id =>
        rw [Write.apply, Write.target, StateManager.getAdapter_keepRemove, if_pos rfl] at he
        cases he
  · rw [getAdapter_apply_of_ne clk sm hid] at he
    rw [if_neg (enters_ne_of_target_ne _ (Ne.symm hid))]
    exact h id e he hst

/-- An adapter that is not written to stays expired. -/
theorem Expired.apply {id : String} (h : Expired timeout clk sm id) {w : Write}
    (hid : id ≠ w.target) : Expired timeout clk (w.apply clk sm) id := by
  intro e he
  rw [getAdapter_apply_of_ne clk sm hid] at he
  exact h e he

/-- A write by another task or call that spares the adapters of the cycle. -/
theorem Cycling.other (h : Cycling timeout clk sm rs n current waiting) {w : Write}
    (hw : w.CreatesNoStopped) (hspares : w.Spares sm (current.toList ++ waiting)) :
    Cycling timeout clk (w.apply clk sm) (rs ++ [recordOf .other clk sm w]) n current waiting := by
  refine ⟨?_, h.stamps.apply .other hw, h.distinct, ?_, ?_⟩
  · refine h.idle.concat ?_ ?_
    · intro n id hauthor
      cases hauthor
    · intro n id hauthor
      cases hauthor
  · intro id hid
    by_cases htarget : id = w.target
    · subst htarget
      intro e he
      rw [getAdapter_apply_of_spares hspares (List.mem_append_right _ hid)] at he
      cases he
    · exact (h.expired id hid).apply htarget
  · intro id hid hknown
    by_cases htarget : id = w.target
    · subst htarget
      have hmem : w.target ∈ current.toList ++ waiting := by simp [hid]
      exact absurd (getAdapter_apply_of_spares hspares hmem) hknown
    · rw [getAdapter_apply_of_ne clk sm htarget] at hknown
      exact (h.owned id hid hknown).concat (Ne.symm htarget)

/-- The writes of a turn of another task or call. -/
theorem Cycling.others {ws : List Write} :
    ∀ {sm : StateManager} {rs : List Record}, Cycling timeout clk sm rs n current waiting →
      (∀ w ∈ ws, w.CreatesNoStopped) → (∀ w ∈ ws, w.Spares sm (current.toList ++ waiting)) →
        Cycling timeout clk (applyAll clk sm ws) (rs ++ recordAll .other clk sm ws) n
          current waiting := by
  induction ws with
  | nil =>
      intro sm rs h _ _
      rw [recordAll_nil, List.append_nil]
      exact h
  | cons w ws ih =>
      intro sm rs h hws hspares
      have hw : w.Spares sm (current.toList ++ waiting) := hspares w List.mem_cons_self
      rw [applyAll_cons, recordAll_cons, List.append_cons]
      refine ih (h.other (hws w List.mem_cons_self) hw) ?_ ?_
      · exact fun w' hw' => hws w' (List.mem_cons_of_mem _ hw')
      · exact fun w' hw' => hw.apply (hspares w' (List.mem_cons_of_mem _ hw'))

/-- The cycle writes to the adapter it is at for the last time: it marks it as failed, or removes
it. -/
theorem Cycling.done {id : String} (h : Cycling timeout clk sm rs n (some id) waiting) {w : Write}
    (hw : (∃ msg, w = .transition id .error msg) ∨ w = .remove id) :
    Cycling timeout clk (w.apply clk sm) (rs ++ [recordOf (.cycle n) clk sm w]) n none waiting := by
  have htarget : w.target = id := by rcases hw with ⟨msg, rfl⟩ | rfl <;> rfl
  have hcreate : w.CreatesNoStopped := by rcases hw with ⟨msg, rfl⟩ | rfl <;> trivial
  have hdistinct : (id :: waiting).Nodup := h.distinct
  obtain ⟨hid, hwaiting⟩ := List.nodup_cons.1 hdistinct
  refine ⟨h.idle.concat ?_ ?_, h.stamps.apply _ hcreate, hwaiting, ?_, by simp⟩
  · intro m id' _ henters
    rcases hw with ⟨msg, rfl⟩ | rfl <;> simp [recordOf, Record.enters] at henters
  · intro m id' hauthor hremoves
    cases hauthor
    rcases hw with ⟨msg, rfl⟩ | rfl
    · cases hremoves
    · obtain ⟨old, hold, rfl⟩ := Option.map_eq_some_iff.1 hremoves
      refine h.owned id rfl fun hnone => ?_
      rw [recordOf, Write.target, StateManager.stateAt, hnone] at hold
      cases hold
  · intro id' hid'
    refine (h.expired id' hid').apply ?_
    rw [htarget]
    rintro rfl
    exact hid hid'

/-- The cycle comes to the next candidate. -/
theorem Cycling.begins {id : String} (h : Cycling timeout clk sm rs n none (id :: waiting)) :
    Cycling timeout clk ((Write.transition id .offloading none).apply clk sm)
      (rs ++ [recordOf (.cycle n) clk sm (.transition id .offloading none)]) n (some id)
      waiting := by
  have hexpired : Expired timeout clk sm id := h.expired id List.mem_cons_self
  have hdistinct : (id :: waiting).Nodup := h.distinct
  refine ⟨h.idle.concat ?_ ?_, h.stamps.apply _ trivial, hdistinct, ?_, ?_⟩
  · intro m id' _ henters
    obtain ⟨old, hold, heq⟩ := Option.map_eq_some_iff.1 henters
    cases heq
    obtain ⟨e, he, rfl⟩ := Option.map_eq_some_iff.1 hold
    obtain ⟨hst, t, ht, hle⟩ := hexpired e he
    refine ⟨hold.trans (congrArg some hst), t, ?_, hle⟩
    rw [← h.stamps id e he hst, ht]
  · intro m id' _ hremoves
    cases hremoves
  · intro id' hid'
    refine (h.expired id' (List.mem_cons_of_mem _ hid')).apply ?_
    rintro rfl
    exact (List.nodup_cons.1 hdistinct).1 hid'
  · rintro id' hid' hknown
    cases hid'
    refine owns_concat_self rs rfl ?_
    cases he : sm.getAdapter id with
    | none => simp [Write.apply, StateManager.getAdapter_keepTransition, he] at hknown
    | some e => simp [recordOf, Record.enters, Write.target, StateManager.stateAt_of_getAdapter he]

/-- The turn of a cycle from one candidate to the next, once the writes before it are made. -/
theorem Cycling.next {before : List Write} (rest : List AdapterEntry)
    (h : Cycling timeout clk (applyAll clk sm before) (rs ++ recordAll (.cycle n) clk sm before) n
      none (rest.map AdapterEntry.adapterId)) :
    Cycling timeout clk (applyAll clk sm (runOffloadCycle before rest).writes)
      (rs ++ recordAll (.cycle n) clk sm (runOffloadCycle before rest).writes) n
      (rest.head?.map AdapterEntry.adapterId) (rest.tail.map AdapterEntry.adapterId) := by
  cases rest with
  | nil => exact h
  | cons c rest =>
      rw [runOffloadCycle, recordAll_append, applyAll_append, ← List.append_assoc]
      exact h.begins

/-! ### The side condition -/

/-- The adapter an offload task is at, and those it has not come to. -/
def Task.offloads : Task → Option (String × List String)
  | .offloadRm adapter rest => some (adapter.adapterId, rest.map AdapterEntry.adapterId)
  | .offloadRmi adapter rest => some (adapter.adapterId, rest.map AdapterEntry.adapterId)
  | .installStop _ _ | .installPull _ | .installInspect _ | .installRmi _ | .installRun _
  | .monitorWait _ | .removeStop _ _ | .removeRm _ _ | .removeRmi _ _ => none

theorem Task.offloads_eq_none_iff {t : Task} : t.offloads = none ↔ t.isOffload = false := by
  cases t <;> simp [offloads, isOffload]

/-- The offload cycles in flight. -/
def cyclesOf (procs : List Proc) : List (String × List String) :=
  procs.filterMap fun p => p.task.offloads

/-- The adapters that cycles in flight have taken as candidates and are not done with. -/
def World.candidates (w : World P) : List String :=
  (cyclesOf w.procs).flatMap fun x => x.1 :: x.2

/-- Only a cycle changes or creates an adapter that a cycle has taken as a candidate. -/
def SparesCandidates (s : Journaled P) (a : Action P) : Prop :=
  s.world.byCycle a = false →
    ∀ w ∈ (s.world.turn a).writes, w.Spares s.world.sm s.world.candidates

instance (s : Journaled P) (a : Action P) : Decidable (SparesCandidates s a) :=
  inferInstanceAs (Decidable (_ → _))

theorem cyclesOf_append (procs procs' : List Proc) :
    cyclesOf (procs ++ procs') = cyclesOf procs ++ cyclesOf procs' := List.filterMap_append

/-- The cycles of a pool in which the task at a position is replaced by others. -/
theorem cyclesOf_eraseIdx {procs : List Proc} {i : ℕ} {p : Proc} (hp : procs[i]? = some p) :
    ∃ pre post, cyclesOf procs = pre ++ p.task.offloads.toList ++ post ∧
      cyclesOf (procs.eraseIdx i) = pre ++ post := by
  obtain ⟨hi, hget⟩ := List.getElem?_eq_some_iff.1 hp
  refine ⟨cyclesOf (procs.take i), cyclesOf (procs.drop (i + 1)), ?_, ?_⟩
  · conv_lhs => rw [← List.take_append_drop i procs, List.drop_eq_getElem_cons hi, hget]
    cases h : p.task.offloads <;> simp [cyclesOf, h]
  · rw [List.eraseIdx_eq_take_drop_succ, cyclesOf_append]

/-- The result of a command does not change the cycles. -/
theorem cyclesOf_set {procs : List Proc} {i : ℕ} {t : Task} {r r' : Option (Reply t.cmd)}
    (hp : procs[i]? = some ⟨t, r⟩) : cyclesOf (procs.set i ⟨t, r'⟩) = cyclesOf procs := by
  obtain ⟨hi, hget⟩ := List.getElem?_eq_some_iff.1 hp
  conv_rhs => rw [← List.take_append_drop i procs, List.drop_eq_getElem_cons hi, hget]
  rw [List.set_eq_take_append_cons_drop, if_pos hi]
  simp [cyclesOf, List.filterMap_cons]

/-! ### The invariant -/

/-- No cycle is in flight, or one is, at a candidate and with others waiting. -/
inductive OffloadKept (timeout : ℕ) (s : Journaled P) : Prop
  | between (hcycles : cyclesOf s.world.procs = [])
      (h : Cycling timeout s.world.clk s.world.sm s.records s.cycle none [])
  | within (id : String) (waiting : List String)
      (hcycles : cyclesOf s.world.procs = [(id, waiting)])
      (h : Cycling timeout s.world.clk s.world.sm s.records s.cycle (some id) waiting)

theorem offloadKept_init (timeout : ℕ) (clk : Clock) :
    OffloadKept timeout (Journaled.init P clk) := by
  refine .between rfl ⟨offloadsIdle_nil timeout, ?_, List.nodup_nil, by simp, by simp⟩
  intro id e he
  simp [Journaled.init, World.init] at he

/-- Time does not make an expired adapter less so. -/
theorem Cycling.tick (h : Cycling timeout clk sm rs n current waiting) {clk' : Clock}
    (hclk : clk.instant ≤ clk'.instant) : Cycling timeout clk' sm rs n current waiting := by
  refine ⟨h.idle, h.stamps, h.distinct, fun id hid e he => ?_, h.owned⟩
  obtain ⟨hst, t, ht, hle⟩ := h.expired id hid e he
  exact ⟨hst, t, ht, Nat.le_trans hle (Nat.sub_le_sub_right hclk t)⟩

/-- A step of another task or call, which leaves the cycle in flight where it is. -/
theorem OffloadKept.other {s s' : Journaled P} (h : OffloadKept timeout s) (ws : List Write)
    (hcycles : cyclesOf s'.world.procs = cyclesOf s.world.procs)
    (hclk : s'.world.clk = s.world.clk) (hsm : s'.world.sm = applyAll s.world.clk s.world.sm ws)
    (hcycle : s'.cycle = s.cycle)
    (hrecords : s'.records = s.records ++ recordAll .other s.world.clk s.world.sm ws)
    (hws : ∀ w ∈ ws, w.CreatesNoStopped)
    (hspares : ∀ w ∈ ws, w.Spares s.world.sm s.world.candidates) : OffloadKept timeout s' := by
  cases h with
  | between hp h =>
      refine .between (hcycles.trans hp) ?_
      rw [hclk, hsm, hcycle, hrecords]
      rw [World.candidates, hp] at hspares
      exact h.others hws hspares
  | within id waiting hp h =>
      refine .within id waiting (hcycles.trans hp) ?_
      rw [hclk, hsm, hcycle, hrecords]
      rw [World.candidates, hp] at hspares
      exact h.others hws (by simpa using hspares)

/-- A step of the cycle in flight, or the first of a new one. -/
theorem offloadKept_next {s' : Journaled P} {others : List Proc} (rs : List Record)
    (before : List Write) (rest : List AdapterEntry)
    (h : Cycling timeout clk (applyAll clk sm before) (rs ++ recordAll (.cycle n) clk sm before) n
      none (rest.map AdapterEntry.adapterId))
    (hothers : cyclesOf others = [])
    (hprocs : s'.world.procs = others ++ (runOffloadCycle before rest).tasks.map Proc.start)
    (hclk : s'.world.clk = clk)
    (hsm : s'.world.sm = applyAll clk sm (runOffloadCycle before rest).writes)
    (hcycle : s'.cycle = n)
    (hrecords : s'.records =
      rs ++ recordAll (.cycle n) clk sm (runOffloadCycle before rest).writes) :
    OffloadKept timeout s' := by
  have hnext := h.next rest
  rw [← hrecords, ← hsm] at hnext
  subst hclk hcycle
  have hcycles : cyclesOf s'.world.procs =
      cyclesOf ((runOffloadCycle before rest).tasks.map Proc.start) := by
    rw [hprocs, cyclesOf_append, hothers, List.nil_append]
  cases rest with
  | nil => exact .between hcycles hnext
  | cons c rest => exact .within c.adapterId (rest.map AdapterEntry.adapterId) hcycles hnext

/-- The turn of a task or call that is not a cycle: no cycle follows, and what it creates is not
stopped. -/
structure Turn.Plain (turn : Turn) : Prop where
  writes : ∀ w ∈ turn.writes, w.CreatesNoStopped
  tasks : ∀ t ∈ turn.tasks, t.offloads = none

theorem plain_installCreate {before : List Write} (job : InstallJob)
    (h : ∀ w ∈ before, w.CreatesNoStopped) : (installCreate before job).Plain := by
  refine ⟨fun w hw => ?_, by simp [installCreate, Task.offloads]⟩
  rcases List.mem_append.1 hw with hw | hw
  · exact h w hw
  · simp only [List.mem_cons, List.not_mem_nil, or_false] at hw
    rcases hw with rfl | rfl
    · simp [Write.CreatesNoStopped]
    · trivial

theorem plain_installAdapter (job : InstallJob) (running : Option AdapterEntry) :
    (installAdapter job running).Plain := by
  by_cases hv : job.Valid
  · cases running with
    | none =>
        rw [installAdapter_none hv]
        exact plain_installCreate job (by simp)
    | some r =>
        rw [installAdapter_some hv]
        exact ⟨by simp, by simp [Task.offloads]⟩
  · obtain ⟨hw, ht, -⟩ := installAdapter_of_not_valid running hv
    exact ⟨by simp [hw], by simp [ht]⟩

theorem plain_removeAdapter (id : String) (e : Option AdapterEntry) :
    (removeAdapter id e).Plain := by
  refine ⟨by simp, fun t ht => ?_⟩
  obtain ⟨adapter, rfl | rfl⟩ := mem_tasks_removeAdapter ht <;> rfl

theorem plain_resume {t : Task} (ht : t.isOffload = false) (r : Reply t.cmd) :
    (t.resume r).Plain := by
  cases t with
  | installStop job running =>
      cases r <;> exact plain_installCreate job (by simp [Write.CreatesNoStopped])
  | installInspect job =>
      cases r with
      | ok digest =>
          by_cases hd : digest = job.checksumSha256 <;>
            exact ⟨by simp [Task.resume, hd, Write.CreatesNoStopped],
              by simp [Task.resume, hd, Task.offloads]⟩
      | error e =>
          exact ⟨by simp [Task.resume, Write.CreatesNoStopped], by simp [Task.resume]⟩
  | monitorWait job =>
      obtain ⟨st, msg, -, hturn⟩ := resume_monitorWait job r
      rw [hturn]
      exact ⟨by simp [Write.CreatesNoStopped], by simp⟩
  | installRmi job => exact ⟨by simp [Task.resume], by simp [Task.resume]⟩
  | installPull | installRun | removeStop | removeRm | removeRmi =>
      cases r <;> exact ⟨by simp [Task.resume, removeFail, Write.CreatesNoStopped],
        by simp [Task.resume, removeFail, Task.offloads]⟩
  | offloadRm | offloadRmi => cases ht

/-- A plain turn starts no cycle. -/
theorem Turn.Plain.cyclesOf_tasks {turn : Turn} (h : turn.Plain) :
    cyclesOf (turn.tasks.map Proc.start) = [] := by
  rw [cyclesOf, List.filterMap_map, List.filterMap_eq_nil_iff]
  exact h.tasks

/-- What the invariant says when the task at a position is the one of the cycle in flight. -/
theorem OffloadKept.at_task {s : Journaled P} (h : OffloadKept timeout s) {i : ℕ} {p : Proc}
    (hp : s.world.procs[i]? = some p) {id : String} {waiting : List String}
    (hcycles : p.task.offloads = some (id, waiting)) :
    cyclesOf (s.world.procs.eraseIdx i) = [] ∧
      Cycling timeout s.world.clk s.world.sm s.records s.cycle (some id) waiting := by
  obtain ⟨pre, post, hall, herase⟩ := cyclesOf_eraseIdx hp
  rw [hcycles] at hall
  cases h with
  | between hnone _ =>
      rw [hnone] at hall
      simp at hall
  | within id' waiting' hone h =>
      rw [hone, List.append_assoc] at hall
      rcases List.singleton_eq_append_iff.1 hall with ⟨hpre, hpost⟩ | ⟨hpre, hpost⟩
      · obtain ⟨heq, rfl⟩ := List.cons.inj hpost
        cases heq
        rw [herase, hpre]
        exact ⟨rfl, h⟩
      · simp at hpost

/-- A task that is not one of a cycle leaves the cycles where they are. -/
theorem cyclesOf_eraseIdx_of_plain {procs : List Proc} {i : ℕ} {p : Proc}
    (hp : procs[i]? = some p) (ht : p.task.isOffload = false) :
    cyclesOf (procs.eraseIdx i) = cyclesOf procs := by
  obtain ⟨pre, post, hall, herase⟩ := cyclesOf_eraseIdx hp
  rw [hall, herase, Task.offloads_eq_none_iff.2 ht]
  simp

/-- A cycle picks up the result of a command. -/
theorem OffloadKept.resume {s s' : Journaled P} (h : OffloadKept timeout s) {i : ℕ} {t : Task}
    {r : Reply t.cmd} (hp : s.world.procs[i]? = some ⟨t, some r⟩) (ht : t.isOffload = true)
    (hworld : s'.world = s.world.settle (s.world.procs.eraseIdx i) (t.resume r))
    (hcycle : s'.cycle = s.cycle)
    (hrecords : s'.records = s.records ++
      recordAll (.cycle s.cycle) s.world.clk s.world.sm (t.resume r).writes) :
    OffloadKept timeout s' := by
  obtain ⟨w', n', rs'⟩ := s'
  simp only at hworld hcycle hrecords
  subst hworld hcycle hrecords
  cases t with
  | offloadRm adapter rest =>
      obtain ⟨hothers, hcyc⟩ := h.at_task hp rfl
      cases r with
      | ok u =>
          refine .within adapter.adapterId (rest.map AdapterEntry.adapterId) ?_ ?_
          · rw [World.settle_procs, cyclesOf_append, hothers]
            rfl
          · change Cycling timeout s.world.clk s.world.sm (s.records ++ []) s.cycle _ _
            rwa [List.append_nil]
      | error e =>
          exact offloadKept_next s.records [.transition adapter.adapterId .error (some e.message)]
            rest (hcyc.done (.inl ⟨_, rfl⟩)) hothers rfl rfl rfl rfl rfl
  | offloadRmi adapter rest =>
      obtain ⟨hothers, hcyc⟩ := h.at_task hp rfl
      cases r with
      | ok u =>
          exact offloadKept_next s.records [.remove adapter.adapterId] rest (hcyc.done (.inr rfl))
            hothers rfl rfl rfl rfl rfl
      | error e =>
          exact offloadKept_next s.records [.transition adapter.adapterId .error (some e.message)]
            rest (hcyc.done (.inl ⟨_, rfl⟩)) hothers rfl rfl rfl rfl rfl
  | installStop | installPull | installInspect | installRmi | installRun | monitorWait
  | removeStop | removeRm | removeRmi => cases ht

/-- The candidates that a cycle reads are expired, and of different adapters. -/
theorem cycling_candidates {candidates : List AdapterEntry}
    (h : Cycling timeout clk sm rs n none [])
    (hperm : candidates.Perm (sm.getOffloadCandidates clk timeout)) (m : ℕ) :
    Cycling timeout clk sm rs m none (candidates.map AdapterEntry.adapterId) := by
  refine ⟨h.idle, h.stamps, ?_, ?_, by simp⟩
  · exact (hperm.map _).nodup_iff.2 (sm.nodup_adapterId_filter _)
  · intro id hid e he
    obtain ⟨c, hc, rfl⟩ := List.mem_map.1 hid
    obtain ⟨hget, hst⟩ := StateManager.mem_getOffloadCandidates.1 (hperm.mem_iff.1 hc)
    rw [hget] at he
    cases he
    exact hst

/-- Every step that spares the candidates keeps the invariant. -/
theorem OffloadKept.step {s s' : Journaled P} {a : Action P} (h : OffloadKept timeout s)
    (hspares : SparesCandidates s a) (hstep : s.step timeout a = some s') :
    OffloadKept timeout s' := by
  obtain ⟨w', n', rs'⟩ := s'
  obtain ⟨hmoves, hn, hrs⟩ := journaled_step_iff.1 hstep
  simp only at hmoves hn hrs
  subst hn hrs
  cases hmoves with
  | install job running _ =>
      have hplain := plain_installAdapter job running
      refine h.other _ ?_ rfl rfl rfl rfl hplain.writes (hspares rfl)
      rw [World.settle_procs, cyclesOf_append, hplain.cyclesOf_tasks, List.append_nil]
  | remove id =>
      have hplain := plain_removeAdapter id (s.world.sm.getAdapter id)
      refine h.other _ ?_ rfl rfl rfl rfl hplain.writes (hspares rfl)
      rw [World.settle_procs, cyclesOf_append, hplain.cyclesOf_tasks, List.append_nil]
  | offload candidates hidle hperm =>
      have hnone : cyclesOf s.world.procs = [] := by
        rw [cyclesOf, List.filterMap_eq_nil_iff]
        exact fun p hp => Task.offloads_eq_none_iff.2 (hidle p hp)
      cases h with
      | within id waiting hcycles _ =>
          rw [hnone] at hcycles
          cases hcycles
      | between _ h =>
          have hcyc := cycling_candidates h hperm (s.cycle + 1)
          rw [← List.append_nil s.records] at hcyc
          exact offloadKept_next s.records [] candidates hcyc hnone rfl rfl rfl rfl rfl
  | exec i answer t r st hp _ _ =>
      refine h.other [] (cyclesOf_set hp) rfl rfl rfl rfl ?_ ?_ <;> simp
  | resume i t r hp =>
      have hturn : s.world.turn (.resume i) = t.resume r := by simp [World.turn, hp]
      cases ht : t.isOffload with
      | false =>
          have hplain := plain_resume ht r
          have hby : s.world.byCycle (.resume i) = false := by simp [World.byCycle, hp, ht]
          have hsp := hspares hby
          rw [hturn] at hsp
          refine h.other _ ?_ rfl rfl rfl ?_ hplain.writes hsp
          · rw [World.settle_procs, cyclesOf_append, hplain.cyclesOf_tasks, List.append_nil]
            exact cyclesOf_eraseIdx_of_plain hp ht
          · rw [Journaled.author, hby, hturn]
            rfl
      | true =>
          refine h.resume hp ht rfl rfl ?_
          simp [Journaled.author, World.byCycle, hp, ht, hturn, Action.cycleAfter]
  | env e st _ =>
      refine h.other [] rfl rfl rfl rfl rfl ?_ ?_ <;> simp
  | tick clk hclk =>
      cases h with
      | between hcycles h =>
          refine .between hcycles ?_
          simpa [World.turn, Action.cycleAfter] using h.tick hclk
      | within id waiting hcycles h =>
          refine .within id waiting hcycles ?_
          simpa [World.turn, Action.cycleAfter] using h.tick hclk

/-! ### Runs -/

/-- **Every cycle offloads idle adapters**, in every run in which only a cycle changes or creates an
adapter that a cycle has taken as a candidate. -/
theorem offloads_idle_of_spared {timeout : ℕ} {clk : Clock} {s : Journaled P}
    (h : Lts.Reach (Lts.restrict (Journaled.step timeout) SparesCandidates)
      (Journaled.init P clk) s) : OffloadsIdle timeout s.records := by
  have hkept : OffloadKept timeout s := by
    refine h.invariant (offloadKept_init timeout clk) fun s a s' hs hstep => ?_
    obtain ⟨hspares, hstep⟩ := Lts.restrict_eq_some_iff.1 hstep
    exact hs.step hspares hstep
  cases hkept with
  | between _ h => exact h.idle
  | within _ _ _ h => exact h.idle

/-- A job is installed and its container runs to its end, with no other task in flight. -/
def runsToEnd (job : InstallJob) : List (Action Podman.free) :=
  [.install job none] ++ bringUp job 0 0 ++ [.exec 0 (.exited 0), .resume 0]

/-- The entry of a job whose container has ended. -/
def stoppedEntry (job : InstallJob) (instant : ℕ) : AdapterEntry :=
  { job.entry with state := .stopped, stoppedAt := some instant }

/-- An adapter is offloaded a day after its container ended, while another one is installed. -/
def offloadsIdleAdapter : List (Action Podman.free) :=
  runsToEnd jobA ++ [.tick ⟨86400, 86400⟩, .offload [stoppedEntry jobA 0], .install jobB none,
    .exec 0 .done, .resume 0, .exec 1 .done, .resume 1]

theorem offloads_idle_of_offloadsIdleAdapter :
    ∃ s, Lts.run (Lts.restrict (Journaled.step 86400) SparesCandidates)
        (Journaled.init Podman.free ⟨0, 0⟩) offloadsIdleAdapter = some s ∧
      OffloadsIdle 86400 s.records := by
  obtain ⟨s, hs⟩ := Option.isSome_iff_exists.1 (show (Lts.run
    (Lts.restrict (Journaled.step 86400) SparesCandidates) (Journaled.init Podman.free ⟨0, 0⟩)
    offloadsIdleAdapter).isSome by decide)
  exact ⟨s, hs, offloads_idle_of_spared (Lts.reach_of_run hs)⟩

/-- The second of two candidates is installed again while the cycle is busy with the first. -/
def reinstallsCandidate : List (Action Podman.free) :=
  runsToEnd jobA ++ runsToEnd jobB ++
    [.tick ⟨86400, 86400⟩, .offload [stoppedEntry jobA 0, stoppedEntry jobB 0],
      .install jobB none, .exec 0 .done, .resume 0, .exec 1 .done, .resume 1]

/-- **A stale candidate is offloaded**: it is moved from `downloading` to `offloading`. -/
theorem stale_candidate_offloaded :
    ¬ ∀ (timeout : ℕ) (clk : Clock) (s : Journaled Podman.free),
      Lts.Reach (Journaled.step timeout) (Journaled.init Podman.free clk) s →
        OffloadsIdle timeout s.records := by
  intro hall
  have hrun : (Lts.run (Journaled.step 86400) (Journaled.init Podman.free ⟨0, 0⟩)
      reinstallsCandidate).map (fun s => s.records.getLast?.map fun r =>
        (r.author, r.enters, r.old)) =
      some (some (.cycle 1, some ("b-1", .offloading), some .downloading)) := by decide
  obtain ⟨s, hs, hlast⟩ := Option.map_eq_some_iff.1 hrun
  obtain ⟨r, hr, hfields⟩ := Option.map_eq_some_iff.1 hlast
  obtain ⟨before, hrecords⟩ := List.getLast?_eq_some_iff.1 hr
  obtain ⟨hauthor, henters, hold⟩ : r.author = .cycle 1 ∧
      r.enters = some ("b-1", .offloading) ∧ r.old = some .downloading := by simpa using hfields
  have hidle := (hall 86400 ⟨0, 0⟩ s (Lts.reach_of_run hs)).idle before r [] 1 "b-1" hrecords
    hauthor henters
  rw [hold] at hidle
  cases hidle.1

end UpdateService
