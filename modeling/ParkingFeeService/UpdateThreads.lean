/-
**Turns that are not atomic.**

In `UpdateWorld` a turn of a task is one step.  But the adapter map is locked for every call on its
own, and the tasks run on several threads, so that other tasks and calls may come between two writes
of a turn.  Here a turn begins with what it reads, makes its writes one at a time, and ends when its
tasks wait again.

A new entry is created in the state `UNKNOWN`, and its install call makes the first transition
afterwards.  So an adapter that is found `UNKNOWN` has been created by an install call that is about
to make this transition.

Main definitions:

* `UpdateService.World.begin` — what a step does before the first write of its turn;
* `UpdateService.Thread`, `UpdateService.Threads`, `UpdateService.Threads.step` — the service with
  the turns that have not ended;
* `UpdateService.Announced` — writes in which every creation is followed by a transition;
* `UpdateService.Threads.Creating` — an install call is about to make its first transition.

Main results:

* `UpdateService.reach_threads` — the runs with atomic turns are among these;
* `UpdateService.announced_turn` — what the service writes is announced;
* `UpdateService.Threads.Inv.step` — an adapter that is `UNKNOWN` is being created.
-/

import ParkingFeeService.UpdateJournal

set_option relaxedAutoImplicit false
set_option autoImplicit false

namespace UpdateService

variable {P : Podman}

/-! ### The service with its threads -/

/-- What a step does before the first write of its turn: a job id is drawn, or a task leaves its
await point. -/
def World.begin (timeout : ℕ) (w : World P) : Action P → Option (World P)
  | .install job running =>
      if w.sm.IsRunningAdapter running then some (w.issue job) else none
  | .remove _ => some w
  | .offload candidates =>
      if (∀ p ∈ w.procs, p.task.isOffload = false) ∧
          candidates.Perm (w.sm.getOffloadCandidates w.clk timeout) then some w
      else none
  | .resume i =>
      match w.procs[i]? with
      | some ⟨_, some _⟩ => some { w with procs := w.procs.eraseIdx i }
      | _ => none
  | .exec i answer => w.step timeout (.exec i answer)
  | .env e => w.step timeout (.env e)
  | .tick clk => w.step timeout (.tick clk)

/-- A turn with the writes that it has still to make, and whether it is one of the offload timer. -/
structure Thread where
  byCycle : Bool
  turn : Turn

/-- The service with the turns that have not ended. -/
structure Threads (P : Podman) where
  world : World P
  running : List Thread

/-- A service that has just started. -/
def Threads.init (P : Podman) (clk : Clock) : Threads P := ⟨World.init P clk, []⟩

/-- The labels of the steps. -/
inductive ThreadLabel (P : Podman)
  /-- a turn begins; one that writes nothing if the step is none of the service -/
  | begin (a : Action P)
  /-- the turn at a position makes its next write -/
  | write (k : ℕ)
  /-- the turn at a position has made its writes and ends -/
  | finish (k : ℕ)

/-- One step.  The offload timer runs its cycles one after the other. -/
def Threads.step (timeout : ℕ) (s : Threads P) : ThreadLabel P → Option (Threads P)
  | .begin a =>
      if s.world.byCycle a = true ∧ s.running.any Thread.byCycle = true then none
      else (s.world.begin timeout a).map fun w =>
        { world := w, running := s.running ++ [⟨s.world.byCycle a, s.world.turn a⟩] }
  | .write k =>
      match s.running[k]? with
      | some ⟨byCycle, turn⟩ =>
          match turn.writes with
          | [] => none
          | w :: rest => some
              { world := { s.world with sm := w.apply s.world.clk s.world.sm }
                running := s.running.set k ⟨byCycle, { turn with writes := rest }⟩ }
      | none => none
  | .finish k =>
      match s.running[k]? with
      | some ⟨_, turn⟩ =>
          if turn.writes = [] then some
            { world := s.world.settle s.world.procs turn, running := s.running.eraseIdx k }
          else none
      | none => none

/-- The steps, one constructor for every kind of label. -/
inductive Threads.Moves (timeout : ℕ) (s : Threads P) : ThreadLabel P → Threads P → Prop
  | begin (a : Action P) (w : World P) (hw : s.world.begin timeout a = some w) :
      Moves timeout s (.begin a)
        { world := w, running := s.running ++ [⟨s.world.byCycle a, s.world.turn a⟩] }
  | write (k : ℕ) (byCycle : Bool) (turn : Turn) (w : Write) (rest : List Write)
      (hth : s.running[k]? = some ⟨byCycle, turn⟩) (hws : turn.writes = w :: rest) :
      Moves timeout s (.write k)
        { world := { s.world with sm := w.apply s.world.clk s.world.sm }
          running := s.running.set k ⟨byCycle, { turn with writes := rest }⟩ }
  | finish (k : ℕ) (byCycle : Bool) (turn : Turn)
      (hth : s.running[k]? = some ⟨byCycle, turn⟩) (hws : turn.writes = []) :
      Moves timeout s (.finish k)
        { world := s.world.settle s.world.procs turn, running := s.running.eraseIdx k }

/-- Every step is one of these. -/
theorem Threads.moves_of_step {timeout : ℕ} {s s' : Threads P} {l : ThreadLabel P}
    (h : s.step timeout l = some s') : Threads.Moves timeout s l s' := by
  cases l with
  | begin a =>
      obtain ⟨-, h⟩ := Option.ite_none_left_eq_some.1 h
      obtain ⟨w, hw, rfl⟩ := Option.map_eq_some_iff.1 h
      exact .begin a w hw
  | write k =>
      rw [Threads.step] at h
      split at h
      · next byCycle turn hth =>
          split at h
          · cases h
          · next w rest hws =>
              cases h
              exact .write k byCycle turn w rest hth hws
      · cases h
  | finish k =>
      rw [Threads.step] at h
      split at h
      · next byCycle turn hth =>
          obtain ⟨hws, h⟩ := Option.ite_none_right_eq_some.1 h
          cases h
          exact .finish k byCycle turn hth hws
      · cases h

/-! ### Atomic turns -/

theorem World.settle_nothing (w : World P) : w.settle w.procs {} = w := by
  simp [World.settle]

/-- A step with an atomic turn begins and makes all writes at once. -/
theorem step_eq_begin (timeout : ℕ) (w : World P) (a : Action P) :
    w.step timeout a =
      (w.begin timeout a).map fun w₁ => w₁.settle w₁.procs (w.turn a) := by
  cases a with
  | install job running =>
      simp only [World.step, World.begin]
      split <;> rfl
  | remove id => rfl
  | offload candidates =>
      simp only [World.step, World.begin]
      split <;> rfl
  | resume i =>
      rw [World.step, World.begin]
      split
      · next t r hp =>
          rw [World.turn, hp]
          rfl
      · next hno =>
          split
          · next t r hp => exact (hno t r hp).elim
          · rfl
  | exec i answer | env e | tick clk =>
      rw [World.begin, World.turn]
      simp only [World.settle_nothing, Option.map_id']

/-- The writes of a turn, with nothing between them. -/
theorem reach_writes (timeout : ℕ) (byCycle : Bool) {ws : List Write} :
    ∀ (w : World P) (turn : Turn), turn.writes = ws →
      Lts.Reach (Threads.step timeout) ⟨w, [⟨byCycle, turn⟩]⟩
        ⟨{ w with sm := applyAll w.clk w.sm ws }, [⟨byCycle, { turn with writes := [] }⟩]⟩ := by
  induction ws with
  | nil =>
      rintro w ⟨writes, tasks, created, response⟩ rfl
      exact .refl
  | cons x ws ih =>
      intro w turn hws
      have hstep : Threads.step timeout ⟨w, [⟨byCycle, turn⟩]⟩ (.write 0) =
          some ⟨{ w with sm := x.apply w.clk w.sm }, [⟨byCycle, { turn with writes := ws }⟩]⟩ := by
        simp [Threads.step, hws]
      exact (Lts.Reach.refl.tail _ hstep).trans (ih _ { turn with writes := ws } rfl)

/-- A step with an atomic turn. -/
theorem reach_threads_step {timeout : ℕ} {w w' : World P} {a : Action P}
    (h : w.step timeout a = some w') :
    Lts.Reach (Threads.step timeout) ⟨w, []⟩ ⟨w', []⟩ := by
  rw [step_eq_begin, Option.map_eq_some_iff] at h
  obtain ⟨w₁, hbegin, rfl⟩ := h
  have hbegins : Threads.step timeout ⟨w, []⟩ (.begin a) =
      some ⟨w₁, [⟨w.byCycle a, w.turn a⟩]⟩ := by
    simp [Threads.step, hbegin]
  have hwrites := reach_writes timeout (w.byCycle a) w₁ (w.turn a) rfl
  refine ((Lts.Reach.refl.tail _ hbegins).trans hwrites).tail (.finish 0) ?_
  simp [Threads.step, World.settle]

/-- **The runs with atomic turns** are among those of the threads. -/
theorem reach_threads {timeout : ℕ} {w w' : World P}
    (h : Lts.Reach (World.step timeout) w w') :
    Lts.Reach (Threads.step timeout) ⟨w, []⟩ ⟨w', []⟩ := by
  induction h with
  | refl => exact .refl
  | tail a _ hstep ih => exact ih.trans (reach_threads_step hstep)

/-! ### What the service writes is announced -/

/-- Writes in which an entry is created by an install call that makes its first transition next; no
transition is to `UNKNOWN`. -/
inductive Announced : List Write → Prop
  | nil : Announced []
  | transition (id : String) {st : AdapterState} (msg : Option String) {ws : List Write}
      (hst : st ≠ .unknown) (h : Announced ws) : Announced (.transition id st msg :: ws)
  | remove (id : String) {ws : List Write} (h : Announced ws) : Announced (.remove id :: ws)
  | create (job : InstallJob) {ws : List Write} (h : Announced ws) :
      Announced (.create job.entry :: .transition job.adapterId .downloading none :: ws)

theorem Announced.append {ws ws' : List Write} (h : Announced ws) (h' : Announced ws') :
    Announced (ws ++ ws') := by
  induction h with
  | nil => exact h'
  | transition id msg hst _ ih => exact .transition id msg hst ih
  | remove id _ ih => exact .remove id ih
  | create job _ ih => exact .create job ih

theorem announced_transition (id : String) {st : AdapterState} (msg : Option String)
    (hst : st ≠ .unknown) : Announced [.transition id st msg] := .transition id msg hst .nil

/-- The rest of an install call makes a transition of its new entry. -/
theorem announced_installCreate {before : List Write} (h : Announced before) (job : InstallJob) :
    Announced (installCreate before job).writes :=
  h.append (.create job .nil)

theorem announced_runOffloadCycle {before : List Write} (h : Announced before)
    (rest : List AdapterEntry) : Announced (runOffloadCycle before rest).writes := by
  cases rest with
  | nil => exact h
  | cons adapter rest => exact h.append (announced_transition _ _ (by decide))

theorem announced_installAdapter (job : InstallJob) (running : Option AdapterEntry) :
    Announced (installAdapter job running).writes := by
  by_cases hv : job.Valid
  · cases running with
    | none =>
        rw [installAdapter_none hv]
        exact announced_installCreate .nil job
    | some r =>
        rw [installAdapter_some hv]
        exact .nil
  · rw [(installAdapter_of_not_valid running hv).1]
    exact .nil

/-- What a task writes when it goes on is announced. -/
theorem announced_resume (t : Task) (r : Reply t.cmd) : Announced (t.resume r).writes := by
  cases t with
  | installStop job running =>
      cases r <;> exact announced_installCreate (announced_transition _ _ (by decide)) job
  | installInspect job =>
      cases r with
      | ok digest =>
          by_cases hd : digest = job.checksumSha256
          · rw [resume_installInspect_of_eq hd]
            exact announced_transition _ _ (by decide)
          · rw [resume_installInspect_of_ne hd]
            exact announced_transition _ _ (by decide)
      | error e => exact announced_transition _ _ (by decide)
  | installPull job =>
      cases r with
      | ok u => exact .nil
      | error e => exact announced_transition _ _ (by decide)
  | installRun job => cases r <;> exact announced_transition _ _ (by decide)
  | installRmi job => exact .nil
  | monitorWait job =>
      obtain ⟨st, msg, hst, hturn⟩ := resume_monitorWait job r
      rw [hturn]
      rcases hst with rfl | rfl <;> exact announced_transition _ _ (by decide)
  | removeStop id adapter | removeRm id adapter =>
      cases r with
      | ok u => exact .nil
      | error e => exact announced_transition _ _ (by decide)
  | removeRmi id adapter =>
      cases r with
      | ok u => exact .remove id .nil
      | error e => exact announced_transition _ _ (by decide)
  | offloadRm adapter rest =>
      cases r with
      | ok u => exact .nil
      | error e => exact announced_runOffloadCycle (announced_transition _ _ (by decide)) rest
  | offloadRmi adapter rest =>
      cases r with
      | ok u => exact announced_runOffloadCycle (.remove _ .nil) rest
      | error e => exact announced_runOffloadCycle (announced_transition _ _ (by decide)) rest

/-- **Every turn of the service writes what is announced.** -/
theorem announced_turn (w : World P) (a : Action P) : Announced (w.turn a).writes := by
  cases a with
  | install job running => exact announced_installAdapter job running
  | remove id =>
      rw [World.turn, writes_removeAdapter]
      exact .nil
  | offload candidates => exact announced_runOffloadCycle .nil candidates
  | resume i =>
      rw [World.turn]
      split
      · next t r _ => exact announced_resume t r
      · exact .nil
  | exec | env | tick => exact .nil

/-! ### Adapters that are being created -/

/-- A turn whose next write is the first transition of an install call of the adapter. -/
def Thread.Creates (th : Thread) (id : String) : Prop :=
  ∃ rest, th.turn.writes = .transition id .downloading none :: rest

/-- An install call of the adapter has created the entry and is about to make its first
transition. -/
def Threads.Creating (s : Threads P) (id : String) : Prop := ∃ th ∈ s.running, th.Creates id

/-- The writes that are still to be made are announced, and an adapter that is `UNKNOWN` is being
created. -/
structure Threads.Inv (s : Threads P) : Prop where
  announced : ∀ th ∈ s.running, Announced th.turn.writes
  creating : ∀ id, s.world.sm.stateAt id = some .unknown → s.Creating id

theorem threads_inv_init (clk : Clock) : (Threads.init P clk).Inv where
  announced := by rintro th ⟨⟩
  creating := by rintro id ⟨⟩

section Inv

variable {s s' : Threads P} {timeout : ℕ}

/-- Another turn goes on being where it is. -/
theorem Threads.Creating.set {id : String} (h : s.Creating id) {k : ℕ} {th th' : Thread}
    (hth : s.running[k]? = some th) (hno : ¬ th.Creates id) :
    ∃ th₁ ∈ s.running.set k th', th₁.Creates id := by
  obtain ⟨th₁, hth₁, hcreates⟩ := h
  obtain ⟨j, hj⟩ := List.mem_iff_getElem?.1 hth₁
  have hne : k ≠ j := by
    rintro rfl
    cases hth.symm.trans hj
    exact hno hcreates
  exact ⟨th₁, List.mem_iff_getElem?.2 ⟨j, by rw [List.getElem?_set_ne hne, hj]⟩, hcreates⟩

/-- Nothing is written when a turn begins. -/
theorem sm_of_begin {w w' : World P} {a : Action P} (hw : w.begin timeout a = some w') :
    w'.sm = w.sm := by
  cases a with
  | install job running =>
      obtain ⟨-, hw⟩ := Option.ite_none_right_eq_some.1 hw
      cases hw
      rfl
  | offload candidates =>
      obtain ⟨-, hw⟩ := Option.ite_none_right_eq_some.1 hw
      cases hw
      rfl
  | remove id =>
      cases hw
      rfl
  | resume i =>
      rw [World.begin] at hw
      split at hw <;> cases hw
      rfl
  | exec | env | tick =>
      rw [World.begin] at hw
      exact sm_of_moves (step_eq_some_iff.1 hw)

/-- A turn begins. -/
theorem Threads.Inv.begin (h : s.Inv) {a : Action P} {w : World P} {byCycle : Bool}
    (hw : s.world.begin timeout a = some w) :
    Threads.Inv ⟨w, s.running ++ [⟨byCycle, s.world.turn a⟩]⟩ := by
  refine ⟨fun th hth => ?_, fun id hid => ?_⟩
  · rcases List.mem_append.1 hth with hth | hth
    · exact h.announced th hth
    · rw [List.mem_singleton.1 hth]
      exact announced_turn s.world a
  · rw [sm_of_begin hw] at hid
    obtain ⟨th, hth, hcreates⟩ := h.creating id hid
    exact ⟨th, List.mem_append_left _ hth, hcreates⟩

/-- A turn makes its next write. -/
theorem Threads.Inv.write (h : s.Inv) {k : ℕ} {byCycle : Bool} {turn : Turn} {w : Write}
    {rest : List Write} (hth : s.running[k]? = some ⟨byCycle, turn⟩)
    (hws : turn.writes = w :: rest) :
    Threads.Inv ⟨{ s.world with sm := w.apply s.world.clk s.world.sm },
      s.running.set k ⟨byCycle, { turn with writes := rest }⟩⟩ := by
  have hann : Announced (w :: rest) := hws ▸ h.announced _ (List.mem_of_getElem? hth)
  have hothers : ∀ {id}, s.world.sm.stateAt id = some .unknown →
      (∀ more, w :: rest ≠ .transition id .downloading none :: more) →
        ∃ th ∈ s.running.set k ⟨byCycle, { turn with writes := rest }⟩, th.Creates id := by
    intro id hid hno
    refine (h.creating id hid).set hth ?_
    rintro ⟨more, hmore⟩
    exact hno more (hws.symm.trans hmore)
  refine ⟨fun th hmem => ?_, fun id hid => ?_⟩
  · rcases List.mem_or_eq_of_mem_set hmem with hmem | rfl
    · exact h.announced th hmem
    · cases hann with
      | transition _ _ _ hrest | remove _ hrest => exact hrest
      | create job hrest => exact .transition _ _ (by decide) hrest
  · cases hann with
    | transition id' msg hst hrest =>
        rw [stateAt_transition] at hid
        split at hid
        · obtain ⟨-, -, rfl⟩ := Option.map_eq_some_iff.1 hid
          exact absurd rfl hst
        · next hne =>
            refine hothers hid fun more heq => hne ?_
            cases heq
            rfl
    | remove id' hrest =>
        rw [stateAt_remove] at hid
        split at hid
        · cases hid
        · exact hothers hid fun more heq => by cases heq
    | create job hrest =>
        rw [stateAt_create] at hid
        split at hid
        · next heq =>
            have hk : k < s.running.length := (List.getElem?_eq_some_iff.1 hth).1
            exact ⟨_, List.mem_set hk _, _, by rw [heq]; rfl⟩
        · exact hothers hid fun more heq => by cases heq

/-- A turn ends. -/
theorem Threads.Inv.finish (h : s.Inv) {k : ℕ} {byCycle : Bool} {turn : Turn}
    (hth : s.running[k]? = some ⟨byCycle, turn⟩) (hws : turn.writes = []) :
    Threads.Inv ⟨s.world.settle s.world.procs turn, s.running.eraseIdx k⟩ := by
  refine ⟨fun th hmem => h.announced th (List.mem_of_mem_eraseIdx hmem), fun id hid => ?_⟩
  rw [World.settle_sm, hws, applyAll_nil] at hid
  obtain ⟨th, hmem, hcreates⟩ := h.creating id hid
  obtain ⟨j, hj⟩ := List.mem_iff_getElem?.1 hmem
  refine ⟨th, List.mem_eraseIdx_iff_getElem?.2 ⟨j, ?_, hj⟩, hcreates⟩
  rintro rfl
  cases hth.symm.trans hj
  obtain ⟨rest, hrest⟩ := hcreates
  cases hws.symm.trans hrest

/-- **Every step keeps the invariant**: an adapter that is `UNKNOWN` is being created. -/
theorem Threads.Inv.step (h : s.Inv) {l : ThreadLabel P} (hs : s.step timeout l = some s') :
    s'.Inv := by
  cases Threads.moves_of_step hs with
  | begin a w hw => exact h.begin hw
  | write k byCycle turn w rest hth hws => exact h.write hth hws
  | finish k byCycle turn hth hws => exact h.finish hth hws

/-- A step makes at most one write, which is announced. -/
theorem Threads.Inv.sm_step (h : s.Inv) {l : ThreadLabel P} (hs : s.step timeout l = some s') :
    s'.world.sm = s.world.sm ∨
      ∃ w rest, Announced (w :: rest) ∧ s'.world.sm = w.apply s.world.clk s.world.sm := by
  cases Threads.moves_of_step hs with
  | begin a w hw => exact .inl (sm_of_begin hw)
  | write k byCycle turn w rest hth hws =>
      exact .inr ⟨w, rest, hws ▸ h.announced _ (List.mem_of_getElem? hth), rfl⟩
  | finish k byCycle turn hth hws =>
      refine .inl ?_
      rw [World.settle_sm, hws, applyAll_nil]

end Inv

end UpdateService
