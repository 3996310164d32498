/-
**Runs of the response store.**

Responses arrive, timeouts are started, and timers fire and run their callbacks, in any order.  A
timer that has fired waits for the mutex, and stopping it then changes nothing, so its callback may
run after the response that was to cancel it.

What a look-up finds is a function of the operations on its command id alone: the last response
stored, else a timeout if a callback has run, else nothing.  And whoever has started a timeout for a
command id will find something, because a timer is stopped, or has run its callback, only where a
response is stored.

Main definitions:

* `CloudGateway.StoreOp`, `CloudGateway.Store.step` — the steps;
* `CloudGateway.outcome` — what a look-up finds after the operations on its command id;
* `CloudGateway.Store.Owes` — a timer is pending and will store an outcome;
* `CloudGateway.Awaited` — the invariant.

Main results:

* `CloudGateway.getResponse_of_run` — a look-up finds the outcome;
* `CloudGateway.answered_or_owed` — a command id with a timeout has a response or a pending timer.
-/

import ParkingFeeService.Lts
import ParkingFeeService.GatewayStore
import Mathlib.Data.List.Induction
import Mathlib.Order.Nat

set_option relaxedAutoImplicit false
set_option autoImplicit false

namespace CloudGateway

/-! ### The steps -/

/-- The steps of the store and of the timers. -/
inductive StoreOp
  | storeResponse (resp : CommandResponse)
  | startTimeout (commandId : String) (duration : Int64)
  /-- the duration of an armed timer is over, and its callback starts to wait for the mutex -/
  | fire (commandId : String) (n : ℕ)
  /-- the callback of a timer that has fired runs -/
  | callback (commandId : String) (n : ℕ)
  deriving DecidableEq

/-- The command id an operation is about. -/
def StoreOp.commandId : StoreOp → String
  | .storeResponse resp => resp.commandId
  | .startTimeout id _ => id
  | .fire id _ => id
  | .callback id _ => id

namespace Store

/-- The phase of a timer. -/
def phase (s : Store) (commandId : String) (n : ℕ) : Option TimerPhase :=
  ((s.started commandId)[n]?).map Timer.phase

/-- One step: a timer fires while it is armed, and its callback runs once it has fired. -/
def step (s : Store) : StoreOp → Option Store
  | .storeResponse resp => some (s.storeResponse resp)
  | .startTimeout id d => some (s.startTimeout id d)
  | .fire id n => if s.phase id n = some .armed then some (s.fire id n) else none
  | .callback id n => if s.phase id n = some .fired then some (s.callback id n) else none

/-! ### What an operation does to the responses -/

theorem responses_storeResponse (s : Store) (resp : CommandResponse) :
    (s.storeResponse resp).responses =
      Function.update s.responses resp.commandId (some resp) := by
  rw [storeResponse]
  cases s.timers resp.commandId <;> rfl

/-- The response that a timeout stores. -/
def timeoutResponse (commandId : String) : CommandResponse :=
  { commandId := commandId, status := "timeout" }

/-- A callback leaves the response that is there. -/
theorem responses_callback {s : Store} {commandId : String} {n : ℕ}
    (h : s.phase commandId n = some .fired) :
    (s.callback commandId n).responses = Function.update s.responses commandId
      (some ((s.responses commandId).getD (timeoutResponse commandId))) := by
  rw [phase] at h
  rw [callback, if_pos h]
  cases hr : s.responses commandId with
  | none => rfl
  | some resp => exact (Function.update_eq_self_iff.2 hr.symm).symm

end Store

/-! ### What a look-up finds -/

/-- The response an operation stores. -/
def StoreOp.response : StoreOp → Option CommandResponse
  | .storeResponse resp => some resp
  | _ => none

/-- The operation is the callback of a timer. -/
def StoreOp.isCallback : StoreOp → Bool
  | .callback _ _ => true
  | _ => false

/-- What a look-up finds after the operations on its command id: the last response stored, else a
timeout if a callback has run, else nothing. -/
def outcome (commandId : String) (ops : List StoreOp) : Option CommandResponse :=
  match (ops.filterMap StoreOp.response).getLast? with
  | some resp => some resp
  | none => if ops.any StoreOp.isCallback then some (Store.timeoutResponse commandId) else none

@[simp] theorem outcome_nil (commandId : String) : outcome commandId [] = none := rfl

theorem outcome_concat (commandId : String) (ops : List StoreOp) (op : StoreOp) :
    outcome commandId (ops ++ [op]) =
      match op with
      | .storeResponse resp => some resp
      | .startTimeout _ _ | .fire _ _ => outcome commandId ops
      | .callback _ _ => some ((outcome commandId ops).getD (Store.timeoutResponse commandId)) := by
  rw [outcome, List.filterMap_append, List.getLast?_append, List.any_append]
  cases op with
  | storeResponse resp => rfl
  | startTimeout id d => simp [StoreOp.response, StoreOp.isCallback, outcome]
  | fire id n => simp [StoreOp.response, StoreOp.isCallback, outcome]
  | callback id n =>
      cases h : (ops.filterMap StoreOp.response).getLast? with
      | some resp => simp [StoreOp.response, outcome, h]
      | none =>
          have hcb : (StoreOp.callback id n).isCallback = true := rfl
          cases hany : ops.any StoreOp.isCallback <;>
            simp [-List.any_eq_true, -List.any_eq_false, StoreOp.response, outcome, h, hany, hcb]

/-- One step changes what a look-up finds as it changes the outcome, and only if the step is about
the command id looked up. -/
theorem getResponse_step {s s' : Store} {op : StoreOp} (h : s.step op = some s') {id : String}
    {ops : List StoreOp} (ih : s.getResponse id = outcome id ops) :
    s'.getResponse id = if op.commandId = id then outcome id (ops ++ [op]) else outcome id ops := by
  rw [outcome_concat]
  simp only [Store.getResponse] at ih ⊢
  cases op with
  | storeResponse resp =>
      cases h
      rw [Store.responses_storeResponse, Function.update_apply, ← ih]
      by_cases hid : resp.commandId = id
      · simp [StoreOp.commandId, hid]
      · simp [StoreOp.commandId, hid, Ne.symm hid]
  | startTimeout id' d =>
      cases h
      exact ih.trans (ite_self _).symm
  | fire id' n =>
      rw [Store.step, Option.ite_none_right_eq_some] at h
      cases h.2
      exact ih.trans (ite_self _).symm
  | callback id' n =>
      rw [Store.step, Option.ite_none_right_eq_some] at h
      obtain ⟨hfired, h⟩ := h
      cases h
      rw [Store.responses_callback hfired, Function.update_apply, ← ih]
      by_cases hid : id' = id
      · subst hid
        simp [StoreOp.commandId]
      · simp [StoreOp.commandId, hid, Ne.symm hid]

/-- **A look-up finds the outcome of the operations on its command id.** -/
theorem getResponse_of_run {ops : List StoreOp} :
    ∀ {s : Store}, Lts.run Store.step Store.new ops = some s → ∀ id : String,
      s.getResponse id = outcome id (ops.filter fun op => op.commandId = id) := by
  induction ops using List.reverseRecOn with
  | nil =>
      intro s h id
      cases h
      rfl
  | append_singleton ops op ih =>
      intro s h id
      obtain ⟨s₁, hrun, hstep⟩ := Lts.run_concat_eq_some_iff.1 h
      rw [getResponse_step hstep (ih hrun id), List.filter_append]
      by_cases hid : op.commandId = id
      · simp [hid]
      · simp [hid]

/-- The timer fires, and its callback waits while the response that stops it is stored. -/
def racedOps : List StoreOp :=
  [.startTimeout "c-1" 30, .fire "c-1" 0, .storeResponse ⟨"c-1", "success", ""⟩,
    .callback "c-1" 0]

/-- The response is not replaced by the timeout. -/
theorem getResponse_racedOps :
    ∃ s, Lts.run Store.step Store.new racedOps = some s ∧
      s.getResponse "c-1" = some ⟨"c-1", "success", ""⟩ := by
  obtain ⟨s, hs⟩ := Option.isSome_iff_exists.1
    (show (Lts.run Store.step Store.new racedOps).isSome by decide)
  exact ⟨s, hs, (getResponse_of_run hs "c-1").trans (by decide)⟩

/-! ### Pending timers -/

/-- A timer is pending: it is armed, or its callback waits for the mutex. -/
def TimerPhase.Pending (p : TimerPhase) : Prop := p = .armed ∨ p = .fired

instance (p : TimerPhase) : Decidable p.Pending :=
  inferInstanceAs (Decidable (p = .armed ∨ p = .fired))

/-- Every timer of a command id without a response is pending: none has been stopped, and none has
run its callback. -/
def Awaited (s : Store) : Prop :=
  ∀ id, s.getResponse id = none → ∀ t ∈ s.started id, t.phase.Pending

theorem started_storeResponse_of_ne (s : Store) {resp : CommandResponse} {id : String}
    (h : id ≠ resp.commandId) : (s.storeResponse resp).started id = s.started id := by
  rw [Store.storeResponse]
  cases s.timers resp.commandId with
  | none => rfl
  | some n => exact Function.update_of_ne h _ _

theorem mem_modify {l : List Timer} {n : ℕ} {f : Timer → Timer} {t : Timer}
    (h : t ∈ l.modify n f) : t ∈ l ∨ ∃ t₀ ∈ l, t = f t₀ := by
  obtain ⟨m, hm⟩ := List.mem_iff_getElem?.1 h
  rw [List.getElem?_modify] at hm
  obtain ⟨t₀, ht₀, rfl⟩ := Option.map_eq_some_iff.1 hm
  have hmem : t₀ ∈ l := List.mem_of_getElem? ht₀
  split
  · exact .inr ⟨t₀, hmem, rfl⟩
  · exact .inl hmem

/-- Every step keeps the invariant. -/
theorem Awaited.step {s s' : Store} {op : StoreOp} (h : Awaited s) (hstep : s.step op = some s') :
    Awaited s' := by
  intro id hnone t ht
  cases op with
  | storeResponse resp =>
      cases hstep
      rw [Store.getResponse, Store.responses_storeResponse, Function.update_apply] at hnone
      split at hnone
      · cases hnone
      · next hid =>
          rw [started_storeResponse_of_ne s hid] at ht
          exact h id hnone t ht
  | startTimeout id' d =>
      cases hstep
      simp only [Store.startTimeout, Function.update_apply] at ht
      split at ht
      · next hid =>
          rcases List.mem_append.1 ht with ht | ht
          · exact h id hnone t (hid ▸ ht)
          · rw [List.mem_singleton.1 ht]
            exact .inl rfl
      · exact h id hnone t ht
  | fire id' n =>
      rw [Store.step, Option.ite_none_right_eq_some] at hstep
      cases hstep.2
      simp only [Store.fire, Store.modifyTimer, Function.update_apply] at ht
      split at ht
      · next hid =>
          subst hid
          rcases mem_modify ht with ht | ⟨t₀, ht₀, rfl⟩
          · exact h id hnone t ht
          · rw [Timer.fire]
            split
            · exact .inr rfl
            · exact h id hnone t₀ ht₀
      · exact h id hnone t ht
  | callback id' n =>
      rw [Store.step, Option.ite_none_right_eq_some] at hstep
      obtain ⟨hfired, hstep⟩ := hstep
      cases hstep
      rw [Store.getResponse, Store.responses_callback hfired, Function.update_apply] at hnone
      split at hnone
      · cases hnone
      · next hid =>
          rw [Store.phase] at hfired
          simp only [Store.callback, if_pos hfired, Store.modifyTimer,
            Function.update_of_ne hid] at ht
          exact h id hnone t ht

theorem length_started_modifyTimer (s : Store) (commandId : String) (n : ℕ) (f : Timer → Timer)
    (id : String) :
    ((s.modifyTimer commandId n f).started id).length = (s.started id).length := by
  simp only [Store.modifyTimer, Function.update_apply]
  split
  · next hid => rw [hid, List.length_modify]
  · rfl

/-- A step keeps the responses there are and the timers that were started. -/
theorem step_grows {s s' : Store} {op : StoreOp} (hstep : s.step op = some s') (id : String) :
    ((s.getResponse id).isSome → (s'.getResponse id).isSome) ∧
      (s.started id).length ≤ (s'.started id).length := by
  cases op with
  | storeResponse resp =>
      cases hstep
      constructor
      · rw [Store.getResponse, Store.getResponse, Store.responses_storeResponse,
          Function.update_apply]
        split <;> simp
      · rw [Store.storeResponse]
        cases s.timers resp.commandId with
        | none => exact le_rfl
        | some n => exact (length_started_modifyTimer ..).ge
  | startTimeout id' d =>
      cases hstep
      refine ⟨fun h => h, ?_⟩
      simp only [Store.startTimeout, Function.update_apply]
      split
      · next hid => rw [hid]; simp
      · exact le_rfl
  | fire id' n =>
      rw [Store.step, Option.ite_none_right_eq_some] at hstep
      cases hstep.2
      exact ⟨fun h => h, (length_started_modifyTimer ..).ge⟩
  | callback id' n =>
      rw [Store.step, Option.ite_none_right_eq_some] at hstep
      obtain ⟨hfired, hstep⟩ := hstep
      cases hstep
      constructor
      · rw [Store.getResponse, Store.getResponse, Store.responses_callback hfired,
          Function.update_apply]
        split <;> simp
      · rw [Store.phase] at hfired
        rw [Store.callback, if_pos hfired]
        exact (length_started_modifyTimer ..).ge

theorem isSome_getResponse_run {ops : List StoreOp} {id : String} :
    ∀ {s s' : Store}, Lts.run Store.step s ops = some s' → (s.getResponse id).isSome →
      (s'.getResponse id).isSome := by
  induction ops with
  | nil =>
      intro s s' h hs
      cases h
      exact hs
  | cons op ops ih =>
      intro s s' h hs
      obtain ⟨s₁, hstep, hrun⟩ := Option.bind_eq_some_iff.1 h
      exact ih hrun ((step_grows hstep id).1 hs)

/-- A command id whose callback runs in a run has a response afterwards. -/
theorem isSome_getResponse_of_callback {ops : List StoreOp} {id : String} {n : ℕ} :
    ∀ {s s' : Store}, Lts.run Store.step s ops = some s' → .callback id n ∈ ops →
      (s'.getResponse id).isSome := by
  induction ops with
  | nil =>
      intro s s' _ hmem
      cases hmem
  | cons op ops ih =>
      intro s s' h hmem
      obtain ⟨s₁, hstep, hrun⟩ := Option.bind_eq_some_iff.1 h
      rcases List.mem_cons.1 hmem with rfl | hmem
      · rw [Store.step, Option.ite_none_right_eq_some] at hstep
        obtain ⟨hfired, hstep⟩ := hstep
        cases hstep
        refine isSome_getResponse_run hrun ?_
        rw [Store.getResponse, Store.responses_callback hfired]
        simp
      · exact ih hrun hmem

/-- A timer of the command id is armed or has fired and waits; its callback can run, and whenever it
does an outcome is stored for good. -/
structure Store.Owes (s : Store) (commandId : String) (n : ℕ) : Prop where
  pending : s.phase commandId n = some .armed ∨ s.phase commandId n = some .fired
  can_run : ∃ ops s', (∀ op ∈ ops, op = .fire commandId n ∨ op = .callback commandId n) ∧
    .callback commandId n ∈ ops ∧ Lts.run Store.step s ops = some s'
  stores : ∀ ops s', Lts.run Store.step s ops = some s' → .callback commandId n ∈ ops →
    (s'.getResponse commandId).isSome

/-- The callback of a pending timer can run. -/
theorem owes_of_pending {s : Store} {id : String} {n : ℕ} {t : Timer}
    (ht : (s.started id)[n]? = some t) (hp : t.phase.Pending) : s.Owes id n := by
  have hphase : s.phase id n = some t.phase := by rw [Store.phase, ht]; rfl
  refine ⟨?_, ?_, fun ops s' hrun hmem => isSome_getResponse_of_callback hrun hmem⟩
  · rw [hphase]
    rcases hp with hp | hp <;> simp [hp]
  · rcases hp with hp | hp
    · -- it fires first
      have hfired : (s.fire id n).phase id n = some .fired := by
        simp [Store.fire, Store.phase, Store.modifyTimer, ht, Timer.fire, hp]
      refine ⟨[.fire id n, .callback id n], (s.fire id n).callback id n, by simp, by simp, ?_⟩
      simp [Lts.run_cons, Store.step, hphase, hp, hfired]
    · refine ⟨[.callback id n], s.callback id n, by simp, by simp, ?_⟩
      simp [Lts.run_cons, Store.step, hphase, hp]

theorem awaited_of_run {ops : List StoreOp} {s : Store}
    (h : Lts.run Store.step Store.new ops = some s) : Awaited s := by
  refine (Lts.reach_of_run h).invariant ?_ fun s op s' hs hstep => hs.step hstep
  intro id _ t ht
  cases ht

/-- A command id for which a timeout was started has a timer. -/
theorem started_ne_nil_of_mem {ops : List StoreOp} {id : String} {d : Int64} :
    ∀ {s : Store}, Lts.run Store.step Store.new ops = some s → .startTimeout id d ∈ ops →
      s.started id ≠ [] := by
  induction ops using List.reverseRecOn with
  | nil =>
      intro s _ hmem
      cases hmem
  | append_singleton ops op ih =>
      intro s h hmem
      obtain ⟨s₁, hrun, hstep⟩ := Lts.run_concat_eq_some_iff.1 h
      rcases List.mem_append.1 hmem with hmem | hmem
      · have hlen := (step_grows hstep id).2
        have hpos : 0 < (s₁.started id).length := List.length_pos_of_ne_nil (ih hrun hmem)
        exact List.ne_nil_of_length_pos (hpos.trans_le hlen)
      · cases List.mem_singleton.1 hmem
        cases hstep
        simp [Store.startTimeout]

/-- **Every command id for which a timeout was started has a response or a pending timer**, which
will store an outcome. -/
theorem answered_or_owed {ops : List StoreOp} {s : Store}
    (h : Lts.run Store.step Store.new ops = some s) {id : String} {d : Int64}
    (hmem : .startTimeout id d ∈ ops) :
    (s.getResponse id).isSome ∨ ∃ n, s.Owes id n := by
  cases hresp : s.getResponse id with
  | some resp => exact .inl rfl
  | none =>
      obtain ⟨t, ht⟩ := List.exists_mem_of_ne_nil _ (started_ne_nil_of_mem h hmem)
      obtain ⟨n, hn⟩ := List.mem_iff_getElem?.1 ht
      exact .inr ⟨n, owes_of_pending hn (awaited_of_run h id hresp t ht)⟩

/-- The command id is used again while its first timer runs out. -/
def reusedOps : List StoreOp :=
  [.startTimeout "c-1" 30, .fire "c-1" 0, .startTimeout "c-1" 30]

/-- Both timers are pending, and the command id has no response. -/
theorem owed_reusedOps :
    ∃ s, Lts.run Store.step Store.new reusedOps = some s ∧
      ((s.getResponse "c-1").isSome ∨ ∃ n, s.Owes "c-1" n) := by
  obtain ⟨s, hs⟩ := Option.isSome_iff_exists.1
    (show (Lts.run Store.step Store.new reusedOps).isSome by decide)
  exact ⟨s, hs, answered_or_owed hs (d := 30) (by simp [reusedOps])⟩

end CloudGateway
