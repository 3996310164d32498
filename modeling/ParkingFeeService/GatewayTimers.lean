/-
**The timers map of the response store.**

The map is meant to hold, for every command id, the one timer that may still act.  It is written
with the timer started last and cleared by any response and by any callback, and nothing checks
which timer the entry is: a command that is submitted again loses its first timer, which a response
then no longer stops, and the callback of a timer that a response came too late to stop clears the
entry of the next one.

To say that a timer has been stopped, the calls of `Stop` are recorded next to the store: on a timer
that has fired the call has no effect, but the timer counts as stopped.

Main definitions:

* `CloudGateway.Watched` — the store with a record of the calls of `Stop`;
* `CloudGateway.Watched.Live` — a timer has neither been stopped nor run its callback;
* `CloudGateway.Watched.Tracks` — the map holds exactly the live timers;
* `CloudGateway.Watched.Unambiguous` — the steps that do not mix up two timers of a command id.

Main results:

* `CloudGateway.Watched.run_store` — the record does not change the runs;
* `CloudGateway.Watched.tracks_step_iff` — which steps keep the map exact;
* `CloudGateway.resubmission_loses_timer` — a timer that stays armed after the response;
* `CloudGateway.timers_track_live` — the map is exact in every run of such steps.
-/

import ParkingFeeService.GatewayStoreRuns

set_option relaxedAutoImplicit false
set_option autoImplicit false

namespace CloudGateway

/-- The store, and for each command id the numbers of the timers on which `Stop` was called. -/
structure Watched where
  store : Store
  stops : String → List ℕ

namespace Watched

def new : Watched := ⟨Store.new, fun _ => []⟩

/-- The calls of `Stop` in a step. -/
def stopsAfter (w : Watched) : StoreOp → String → List ℕ
  | .storeResponse resp =>
      Function.update w.stops resp.commandId
        (w.stops resp.commandId ++ (w.store.timers resp.commandId).toList)
  | .startTimeout _ _ | .fire _ _ | .callback _ _ => w.stops

/-- A step of the store, with its calls of `Stop` recorded. -/
def step (w : Watched) (op : StoreOp) : Option Watched :=
  (w.store.step op).map fun s => ⟨s, w.stopsAfter op⟩

theorem step_eq_some_iff {w w' : Watched} {op : StoreOp} :
    w.step op = some w' ↔ w.store.step op = some w'.store ∧ w'.stops = w.stopsAfter op := by
  rw [step, Option.map_eq_some_iff]
  constructor
  · rintro ⟨s, hs, rfl⟩
    exact ⟨hs, rfl⟩
  · rintro ⟨hs, hstops⟩
    exact ⟨w'.store, hs, by rw [← hstops]⟩

theorem of_step_storeResponse {w w' : Watched} {resp : CommandResponse}
    (h : w.step (.storeResponse resp) = some w') :
    w'.store = w.store.storeResponse resp ∧
      w'.stops = Function.update w.stops resp.commandId
        (w.stops resp.commandId ++ (w.store.timers resp.commandId).toList) := by
  cases h
  exact ⟨rfl, rfl⟩

theorem of_step_startTimeout {w w' : Watched} {id : String} {d : Int64}
    (h : w.step (.startTimeout id d) = some w') :
    w'.store = w.store.startTimeout id d ∧ w'.stops = w.stops := by
  cases h
  exact ⟨rfl, rfl⟩

theorem of_step_fire {w w' : Watched} {id : String} {n : ℕ} (h : w.step (.fire id n) = some w') :
    w.store.phase id n = some .armed ∧ w'.store = w.store.fire id n ∧ w'.stops = w.stops := by
  obtain ⟨hstep, hstops⟩ := step_eq_some_iff.1 h
  obtain ⟨harmed, hstore⟩ := Option.ite_none_right_eq_some.1 hstep
  exact ⟨harmed, (Option.some.inj hstore).symm, hstops⟩

theorem of_step_callback {w w' : Watched} {id : String} {n : ℕ}
    (h : w.step (.callback id n) = some w') :
    w.store.phase id n = some .fired ∧ w'.store = w.store.callback id n ∧
      w'.stops = w.stops := by
  obtain ⟨hstep, hstops⟩ := step_eq_some_iff.1 h
  obtain ⟨hfired, hstore⟩ := Option.ite_none_right_eq_some.1 hstep
  exact ⟨hfired, (Option.some.inj hstore).symm, hstops⟩

/-- **The record takes part in nothing:** the runs of the store are those with a record. -/
theorem run_store {ops : List StoreOp} {s : Store} :
    Lts.run Store.step Store.new ops = some s ↔
      ∃ w, Lts.run step new ops = some w ∧ w.store = s := by
  induction ops using List.reverseRecOn generalizing s with
  | nil =>
      constructor
      · intro h
        exact ⟨new, rfl, Option.some.inj h⟩
      · rintro ⟨w, h, rfl⟩
        rw [← Option.some.inj h]
        rfl
  | append_singleton ops op ih =>
      constructor
      · intro h
        obtain ⟨s₁, hrun, hstep⟩ := Lts.run_concat_eq_some_iff.1 h
        obtain ⟨w₁, hw₁, rfl⟩ := ih.1 hrun
        exact ⟨⟨s, w₁.stopsAfter op⟩,
          Lts.run_concat_eq_some_iff.2 ⟨w₁, hw₁, step_eq_some_iff.2 ⟨hstep, rfl⟩⟩, rfl⟩
      · rintro ⟨w, h, rfl⟩
        obtain ⟨w₁, hrun, hstep⟩ := Lts.run_concat_eq_some_iff.1 h
        exact Lts.run_concat_eq_some_iff.2
          ⟨w₁.store, ih.2 ⟨w₁, hrun, rfl⟩, (step_eq_some_iff.1 hstep).1⟩

/-- The timer has been armed, `Stop` was not called on it, and it has not run its callback. -/
def Live (w : Watched) (id : String) (n : ℕ) : Prop :=
  (∃ p, w.store.phase id n = some p ∧ p.Pending) ∧ n ∉ w.stops id

/-- The map has an entry for a command id exactly if the id has a live timer, and the entry is its
only live timer. -/
def Tracks (w : Watched) : Prop := ∀ id n, w.store.timers id = some n ↔ w.Live id n

/-- The step does not mix up two timers of a command id: none is started while the map has an entry,
and no callback clears the entry of another timer. -/
def Unambiguous (w : Watched) : StoreOp → Prop
  | .startTimeout id _ => w.store.timers id = none
  | .callback id n => w.store.timers id = none ∨ w.store.timers id = some n
  | _ => True

instance (w : Watched) : (op : StoreOp) → Decidable (w.Unambiguous op)
  | .storeResponse _ => .isTrue trivial
  | .startTimeout id _ => inferInstanceAs (Decidable (w.store.timers id = none))
  | .fire _ _ => .isTrue trivial
  | .callback id n =>
      inferInstanceAs (Decidable (w.store.timers id = none ∨ w.store.timers id = some n))

end Watched

/-! ### What the steps do to the timers -/

theorem Timer.stop_not_armed (t : Timer) : t.stop.phase ≠ .armed := by
  rw [Timer.stop]
  split
  · exact fun h => by cases h
  · assumption

namespace Store

theorem started_modifyTimer (s : Store) (commandId : String) (n : ℕ) (f : Timer → Timer)
    (id : String) :
    (s.modifyTimer commandId n f).started id =
      if id = commandId then (s.started commandId).modify n f else s.started id :=
  Function.update_apply ..

theorem timers_startTimeout (s : Store) (commandId : String) (d : Int64) (id : String) :
    (s.startTimeout commandId d).timers id =
      if id = commandId then some (s.started commandId).length else s.timers id :=
  Function.update_apply ..

theorem started_startTimeout (s : Store) (commandId : String) (d : Int64) (id : String) :
    (s.startTimeout commandId d).started id =
      if id = commandId then s.started commandId ++ [⟨d, .armed⟩] else s.started id :=
  Function.update_apply ..

theorem phase_modifyTimer (s : Store) (commandId : String) (n : ℕ) (f : Timer → Timer) (id : String)
    (m : ℕ) :
    (s.modifyTimer commandId n f).phase id m =
      if id = commandId ∧ m = n then ((s.started id)[m]?).map fun t => (f t).phase
      else s.phase id m := by
  rw [phase, phase, started_modifyTimer]
  by_cases hid : id = commandId
  · subst hid
    rw [if_pos rfl, List.getElem?_modify]
    by_cases hm : m = n
    · simp [hm, Function.comp_def]
    · simp [hm, Ne.symm hm]
  · simp [hid]

theorem timers_storeResponse (s : Store) (resp : CommandResponse) (id : String) :
    (s.storeResponse resp).timers id = if id = resp.commandId then none else s.timers id := by
  cases h : s.timers resp.commandId with
  | none =>
      simp only [storeResponse, h]
      split
      · next hid => rw [hid]; exact h
      · rfl
  | some n =>
      rw [storeResponse, h]
      exact Function.update_apply ..

/-- The response stops the timer in the map, and no other. -/
theorem phase_storeResponse (s : Store) (resp : CommandResponse) (id : String) (m : ℕ) :
    (s.storeResponse resp).phase id m =
      if id = resp.commandId ∧ s.timers resp.commandId = some m then
        ((s.started id)[m]?).map fun t => t.stop.phase
      else s.phase id m := by
  cases h : s.timers resp.commandId with
  | none => simp [storeResponse, h, phase]
  | some n =>
      have := phase_modifyTimer s resp.commandId n Timer.stop id m
      simpa [storeResponse, h, phase, modifyTimer, eq_comm] using this

theorem phase_startTimeout (s : Store) (commandId : String) (d : Int64) (id : String) (m : ℕ) :
    (s.startTimeout commandId d).phase id m =
      if id = commandId ∧ m = (s.started commandId).length then some .armed else s.phase id m := by
  rw [phase, phase, started_startTimeout]
  by_cases hid : id = commandId
  · subst hid
    rw [if_pos rfl]
    rcases Nat.lt_trichotomy m (s.started id).length with hlt | rfl | hgt
    · rw [List.getElem?_append_left hlt, if_neg (by omega)]
    · simp
    · rw [List.getElem?_eq_none (by simp; omega), if_neg (by omega),
        List.getElem?_eq_none (by omega)]
  · simp [hid]

theorem phase_fire {s : Store} {commandId : String} {n : ℕ}
    (h : s.phase commandId n = some .armed) (id : String) (m : ℕ) :
    (s.fire commandId n).phase id m =
      if id = commandId ∧ m = n then some .fired else s.phase id m := by
  rw [fire, phase_modifyTimer]
  split
  · next heq =>
      obtain ⟨rfl, rfl⟩ := heq
      obtain ⟨t, ht, harmed⟩ := Option.map_eq_some_iff.1 h
      simp [ht, Timer.fire, harmed]
  · rfl

theorem phase_callback {s : Store} {commandId : String} {n : ℕ}
    (h : s.phase commandId n = some .fired) (id : String) (m : ℕ) :
    (s.callback commandId n).phase id m =
      if id = commandId ∧ m = n then some .done else s.phase id m := by
  have hcallback : (s.callback commandId n).phase id m =
      (s.modifyTimer commandId n Timer.finish).phase id m := by
    rw [phase] at h
    rw [callback, if_pos h]
    rfl
  rw [hcallback, phase_modifyTimer]
  split
  · next heq =>
      obtain ⟨rfl, rfl⟩ := heq
      obtain ⟨t, ht, -⟩ := Option.map_eq_some_iff.1 h
      simp [ht, Timer.finish]
  · rfl

theorem timers_callback {s : Store} {commandId : String} {n : ℕ}
    (h : s.phase commandId n = some .fired) (id : String) :
    (s.callback commandId n).timers id = if id = commandId then none else s.timers id := by
  rw [phase] at h
  rw [callback, if_pos h]
  exact Function.update_apply ..

end Store

/-! ### Live timers -/

namespace Watched

variable {w w' : Watched}

/-- The numbers in the map and in the record are those of timers that were started. -/
def InRange (w : Watched) : Prop :=
  ∀ id n, w.store.timers id = some n ∨ n ∈ w.stops id → n < (w.store.started id).length

theorem InRange.step {op : StoreOp} (h : w.InRange) (hstep : w.step op = some w') :
    w'.InRange := by
  intro id n hn
  have hgrows := (step_grows (step_eq_some_iff.1 hstep).1 id).2
  -- an entry of the map that was there before, or a recorded one
  suffices hold : (w.store.timers id = some n ∨ n ∈ w.stops id) ∨
      n < (w'.store.started id).length by
    rcases hold with hold | hnew
    · exact (h id n hold).trans_le hgrows
    · exact hnew
  cases op with
  | storeResponse resp =>
      obtain ⟨hstore, hstops⟩ := of_step_storeResponse hstep
      rw [hstore, hstops, Store.timers_storeResponse, Function.update_apply] at hn
      refine .inl ?_
      split at hn
      · next hid =>
          subst hid
          rcases hn with hn | hn
          · cases hn
          · rcases List.mem_append.1 hn with hn | hn
            · exact .inr hn
            · exact .inl (Option.mem_toList.1 hn)
      · exact hn
  | startTimeout id' d =>
      obtain ⟨hstore, hstops⟩ := of_step_startTimeout hstep
      rw [hstore, hstops, Store.timers_startTimeout] at hn
      rw [hstore, Store.started_startTimeout]
      by_cases hid : id = id'
      · subst hid
        rw [if_pos rfl] at hn
        rcases hn with hn | hn
        · exact .inr (by simp [← Option.some.inj hn])
        · exact .inl (.inr hn)
      · rw [if_neg hid] at hn
        exact .inl hn
  | fire id' m =>
      obtain ⟨-, hstore, hstops⟩ := of_step_fire hstep
      rw [hstore, hstops] at hn
      exact .inl hn
  | callback id' m =>
      obtain ⟨hfired, hstore, hstops⟩ := of_step_callback hstep
      rw [hstore, hstops, Store.timers_callback hfired] at hn
      refine .inl ?_
      split at hn
      · exact .inr (hn.resolve_left fun hn => by cases hn)
      · exact hn

theorem inRange_of_reach (h : Lts.Reach step new w) : w.InRange := by
  refine h.invariant (fun id n hn => ?_) fun _ _ _ h hstep => InRange.step h hstep
  rcases hn with hn | hn <;> cases hn

/-- What the map holds after a response. -/
theorem live_storeResponse {resp : CommandResponse}
    (hstep : w.step (.storeResponse resp) = some w') (id : String) (m : ℕ) :
    w'.Live id m ↔
      w.Live id m ∧ ¬ (id = resp.commandId ∧ w.store.timers resp.commandId = some m) := by
  obtain ⟨hstore, hstops⟩ := of_step_storeResponse hstep
  rw [Live, hstore, hstops, Store.phase_storeResponse, Live, Function.update_apply]
  by_cases hid : id = resp.commandId
  · subst hid
    by_cases hm : w.store.timers resp.commandId = some m
    · simp [hm]
    · have hnot : m ∉ (w.store.timers resp.commandId).toList := by simpa using hm
      simp [hm, hnot]
  · simp [hid]

/-- A timer that is started is live. -/
theorem live_startTimeout (hrange : w.InRange) {id' : String} {d : Int64}
    (hstep : w.step (.startTimeout id' d) = some w') (id : String) (m : ℕ) :
    w'.Live id m ↔ w.Live id m ∨ (id = id' ∧ m = (w.store.started id').length) := by
  obtain ⟨hstore, hstops⟩ := of_step_startTimeout hstep
  rw [Live, hstore, hstops, Store.phase_startTimeout]
  by_cases hnew : id = id' ∧ m = (w.store.started id').length
  · obtain ⟨rfl, rfl⟩ := hnew
    have hnot : (w.store.started id).length ∉ w.stops id := fun hmem =>
      (hrange id _ (.inr hmem)).false
    simp [hnot, TimerPhase.Pending]
  · simp [hnew, Live]

/-- A timer that fires stays live until its callback runs. -/
theorem live_fire {id' : String} {n : ℕ} (hstep : w.step (.fire id' n) = some w') (id : String)
    (m : ℕ) : w'.Live id m ↔ w.Live id m := by
  obtain ⟨harmed, hstore, hstops⟩ := of_step_fire hstep
  rw [Live, hstore, hstops, Store.phase_fire harmed, Live]
  by_cases hm : id = id' ∧ m = n
  · obtain ⟨rfl, rfl⟩ := hm
    simp [harmed, TimerPhase.Pending]
  · simp [hm]

/-- A callback ends the life of its own timer. -/
theorem live_callback {id' : String} {n : ℕ} (hstep : w.step (.callback id' n) = some w')
    (id : String) (m : ℕ) : w'.Live id m ↔ w.Live id m ∧ ¬ (id = id' ∧ m = n) := by
  obtain ⟨hfired, hstore, hstops⟩ := of_step_callback hstep
  rw [Live, hstore, hstops, Store.phase_callback hfired, Live]
  by_cases hm : id = id' ∧ m = n
  · simp [hm, TimerPhase.Pending]
  · simp [hm]

/-! ### When the map is exact -/

/-- A timer is started without losing one exactly if the map has no entry for its command id. -/
theorem tracks_startTimeout_iff (hrange : w.InRange) (h : w.Tracks) {id' : String} {d : Int64}
    (hstep : w.step (.startTimeout id' d) = some w') :
    w'.Tracks ↔ w.store.timers id' = none := by
  have htimers : ∀ id, w'.store.timers id =
      if id = id' then some (w.store.started id').length else w.store.timers id := by
    intro id
    rw [(of_step_startTimeout hstep).1]
    exact Store.timers_startTimeout ..
  constructor
  · intro h'
    cases hentry : w.store.timers id' with
    | none => rfl
    | some n =>
        -- the entry before is still live, and no longer in the map
        have hlive := (live_startTimeout hrange hstep id' n).2 (.inl ((h id' n).1 hentry))
        have hnew := (h' id' n).2 hlive
        rw [htimers, if_pos rfl] at hnew
        exact absurd (hrange id' n (.inl hentry)) (Option.some.inj hnew).not_gt
  · intro hnone id m
    rw [live_startTimeout hrange hstep, ← h id m, htimers]
    by_cases hid : id = id'
    · subst hid
      simp [hnone, eq_comm]
    · simp [hid]

/-- A callback clears no entry of a live timer exactly if the entry is its own. -/
theorem tracks_callback_iff (h : w.Tracks) {id' : String} {n : ℕ}
    (hstep : w.step (.callback id' n) = some w') :
    w'.Tracks ↔ w.store.timers id' = none ∨ w.store.timers id' = some n := by
  obtain ⟨hfired, hstore, -⟩ := of_step_callback hstep
  have htimers : ∀ id, w'.store.timers id = if id = id' then none else w.store.timers id := by
    intro id
    rw [hstore]
    exact Store.timers_callback hfired id
  constructor
  · intro h'
    cases hentry : w.store.timers id' with
    | none => exact .inl rfl
    | some m =>
        by_cases hm : m = n
        · exact .inr (congrArg some hm)
        · -- the entry of another timer, which is live and no longer in the map
          have hlive := (live_callback hstep id' m).2 ⟨(h id' m).1 hentry, fun heq => hm heq.2⟩
          have hcleared := (h' id' m).2 hlive
          rw [htimers, if_pos rfl] at hcleared
          cases hcleared
  · intro hclear id m
    rw [live_callback hstep, ← h id m, htimers]
    by_cases hid : id = id'
    · subst hid
      rcases hclear with hnone | hsome
      · simp [hnone]
      · simp [hsome, eq_comm]
    · simp [hid]

/-- **Which steps keep the map exact.** -/
theorem tracks_step_iff {op : StoreOp} (hrange : w.InRange) (h : w.Tracks)
    (hstep : w.step op = some w') : w'.Tracks ↔ w.Unambiguous op := by
  cases op with
  | storeResponse resp =>
      refine iff_of_true (fun id m => ?_) trivial
      rw [live_storeResponse hstep, ← h id m, (of_step_storeResponse hstep).1,
        Store.timers_storeResponse]
      by_cases hid : id = resp.commandId
      · simp [hid]
      · simp [hid]
  | startTimeout id' d => exact tracks_startTimeout_iff hrange h hstep
  | fire id' n =>
      obtain ⟨-, hstore, -⟩ := of_step_fire hstep
      refine iff_of_true (fun id m => ?_) trivial
      rw [live_fire hstep, ← h id m, hstore]
      rfl
  | callback id' n => exact tracks_callback_iff h hstep

theorem tracks_new : new.Tracks := fun id n =>
  iff_of_false (fun h => by cases h) fun ⟨⟨_, hp, _⟩, _⟩ => by cases hp

/-- A timer on which `Stop` was called is not armed. -/
def Halted (w : Watched) : Prop := ∀ id, ∀ n ∈ w.stops id, w.store.phase id n ≠ some .armed

theorem Halted.step {op : StoreOp} (h : w.Halted) (hrange : w.InRange)
    (hstep : w.step op = some w') : w'.Halted := by
  intro id n hn
  cases op with
  | storeResponse resp =>
      obtain ⟨hstore, hstops⟩ := of_step_storeResponse hstep
      rw [hstops, Function.update_apply] at hn
      rw [hstore, Store.phase_storeResponse]
      split
      · intro hphase
        obtain ⟨t, -, ht⟩ := Option.map_eq_some_iff.1 hphase
        exact Timer.stop_not_armed t ht
      · next hother =>
          split at hn
          · next hid =>
              subst hid
              rcases List.mem_append.1 hn with hn | hn
              · exact h _ n hn
              · exact absurd ⟨rfl, Option.mem_toList.1 hn⟩ hother
          · exact h id n hn
  | startTimeout id' d =>
      obtain ⟨hstore, hstops⟩ := of_step_startTimeout hstep
      rw [hstops] at hn
      rw [hstore, Store.phase_startTimeout]
      split
      · next hnew =>
          obtain ⟨rfl, rfl⟩ := hnew
          exact absurd (hrange id _ (.inr hn)) (Nat.lt_irrefl _)
      · exact h id n hn
  | fire id' m =>
      obtain ⟨harmed, hstore, hstops⟩ := of_step_fire hstep
      rw [hstops] at hn
      rw [hstore, Store.phase_fire harmed]
      split
      · exact fun hphase => by cases hphase
      · exact h id n hn
  | callback id' m =>
      obtain ⟨hfired, hstore, hstops⟩ := of_step_callback hstep
      rw [hstops] at hn
      rw [hstore, Store.phase_callback hfired]
      split
      · exact fun hphase => by cases hphase
      · exact h id n hn

theorem halted_of_reach (h : Lts.Reach step new w) : w.Halted := by
  refine (h.invariant (I := fun w => w.InRange ∧ w.Halted) ?_ ?_).2
  · exact ⟨inRange_of_reach .refl, fun id n hn => by cases hn⟩
  · exact fun _ _ _ h hstep => ⟨h.1.step hstep, h.2.step h.1 hstep⟩

/-- An exact map holds every armed timer. -/
theorem Tracks.timers_of_armed (h : w.Tracks) (hhalted : w.Halted) {id : String} {n : ℕ}
    (harmed : w.store.phase id n = some .armed) : w.store.timers id = some n :=
  (h id n).2 ⟨⟨_, harmed, .inl rfl⟩, fun hn => hhalted id n hn harmed⟩

/-- The restricted runs are runs. -/
theorem reach_of_restrict (h : Lts.Reach (Lts.restrict step Unambiguous) new w) :
    Lts.Reach step new w :=
  h.invariant .refl fun _ _ _ hreach hstep => hreach.tail _ (Lts.restrict_eq_some_iff.1 hstep).2

end Watched

open Watched in
/-- **A command submitted twice loses its first timer:** the map is not exact after the second
submission, and a timer of the command is armed after its response. -/
theorem resubmission_loses_timer :
    ∃ w w', Lts.run Watched.step new [.startTimeout "c-1" 30, .startTimeout "c-1" 30] = some w ∧
      ¬ w.Tracks ∧ w.step (.storeResponse ⟨"c-1", "success", ""⟩) = some w' ∧
      w'.store.phase "c-1" 0 = some .armed := by
  refine ⟨_, _, rfl, fun h => ?_, rfl, by decide⟩
  -- the first timer is live, and the entry is the second one
  have hentry := (h "c-1" 0).2 ⟨⟨.armed, by decide, .inl rfl⟩, by decide⟩
  revert hentry
  decide

open Watched in
/-- **The map is exact in every run whose steps mix up no two timers,** and a response then leaves
no timer of its command armed; any other step from an exact map ends this. -/
theorem timers_track_live (w : Watched) :
    (Lts.Reach (Lts.restrict Watched.step Unambiguous) new w → w.Tracks ∧
      ∀ resp w', w.step (.storeResponse resp) = some w' →
        ∀ n, w'.store.phase resp.commandId n ≠ some .armed) ∧
    (Lts.Reach Watched.step new w → w.Tracks → ∀ op w', w.step op = some w' →
      (w'.Tracks ↔ w.Unambiguous op)) := by
  have htracks : ∀ w, Lts.Reach (Lts.restrict Watched.step Unambiguous) new w → w.Tracks := by
    intro w h
    induction h with
    | refl => exact tracks_new
    | tail op hreach hstep ih =>
        obtain ⟨hclear, hstep⟩ := Lts.restrict_eq_some_iff.1 hstep
        exact (tracks_step_iff (inRange_of_reach (reach_of_restrict hreach)) ih hstep).2 hclear
  refine ⟨fun h => ⟨htracks w h, fun resp w' hstep n harmed => ?_⟩, fun h htr op w' hstep => ?_⟩
  · have hreach := (reach_of_restrict h).tail _ hstep
    have h' := htracks w'
      (h.tail (.storeResponse resp) (Lts.restrict_eq_some_iff.2 ⟨trivial, hstep⟩))
    have hentry := h'.timers_of_armed (halted_of_reach hreach) harmed
    rw [(of_step_storeResponse hstep).1, Store.timers_storeResponse, if_pos rfl] at hentry
    cases hentry
  · exact tracks_step_iff (inRange_of_reach h) htr hstep

open Watched in
/-- A command whose response comes in time, submitted again after that. -/
theorem timers_track_live_answered :
    ∃ w, Lts.run (Lts.restrict Watched.step Unambiguous) new
        [.startTimeout "c-1" 30, .storeResponse ⟨"c-1", "success", ""⟩, .startTimeout "c-1" 30] =
          some w ∧ w.Tracks := by
  obtain ⟨w, hw⟩ := Option.isSome_iff_exists.1
    (show (Lts.run (Lts.restrict Watched.step Unambiguous) new
      [.startTimeout "c-1" 30, .storeResponse ⟨"c-1", "success", ""⟩,
        .startTimeout "c-1" 30]).isSome by decide)
  exact ⟨w, hw, ((timers_track_live w).1 (Lts.reach_of_run hw)).1⟩

end CloudGateway
