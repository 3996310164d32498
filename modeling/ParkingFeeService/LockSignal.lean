/-
**The lock signal in the broker.**

A write of the lock signal that succeeds leaves its value in the broker, and so may one that fails.
As long as all of them take effect, the broker's value is the lock state; and whatever happens, it
is `true` only if a lock command was let through.

Main definitions:

* `LockingService.lockWrites` — the values that the writes among some calls leave in the broker;
* `LockingService.Locks` — a lock command that was let through.

Main results:

* `LockingService.lockWrites_handle_of_effective` — one payload, if its write takes effect;
* `LockingService.locks_of_mem_lockWrites` — what a write of `true` means.
-/

import ParkingFeeService.LockingHistory
import ParkingFeeService.LockingWrites

set_option relaxedAutoImplicit false
set_option autoImplicit false

namespace LockingService

/-! ### Writes that take effect -/

/-- The value that a call leaves in the broker: that of a write of the lock signal that succeeds,
and that of one that fails late. -/
def Call.lockWrite (late : Bool) : Call → Option Bool
  | .setBool signal value ok =>
      if signal = signalIsLocked ∧ (ok = true ∨ late = true) then some value else none
  | _ => none

/-- The values that calls leave in the broker. -/
def lockWrites (late : Bool) (calls : List Call) : List Bool :=
  calls.filterMap (Call.lockWrite late)

theorem Call.lockMove_of_lockWrite {late : Bool} {c : Call} {v : Bool}
    (h : c.lockWrite late = some v) : c.lockMove = some (moveTo v) := by
  cases c with
  | getValue signal => cases h
  | setBool signal value ok =>
      simp only [Call.lockWrite] at h
      split at h
      · next hsignal =>
        cases h
        simp [Call.lockMove, hsignal.1]
      · cases h
  | setString signal response ok => cases h

theorem moveTo_injective : Function.Injective moveTo := by
  intro v v' h
  cases v <;> cases v' <;> first | rfl | cases h

/-- The writes that take effect are among the writes. -/
theorem lockWrites_sublist (late : Bool) (calls : List Call) :
    ((lockWrites late calls).map moveTo).Sublist (lockMoves calls) := by
  induction calls with
  | nil => exact List.Sublist.refl _
  | cons c calls ih =>
      rw [lockWrites, lockMoves, List.filterMap_cons, List.filterMap_cons]
      cases hwrite : c.lockWrite late with
      | none =>
          cases c.lockMove with
          | none => exact ih
          | some m => exact ih.cons m
      | some v =>
          rw [Call.lockMove_of_lockWrite hwrite]
          exact ih.cons_cons (moveTo v)

/-- They are all of them, if every write takes effect. -/
theorem lockWrites_eq {late : Bool} {calls : List Call}
    (h : ∀ value ok, .setBool signalIsLocked value ok ∈ calls → ok = true ∨ late = true) :
    (lockWrites late calls).map moveTo = lockMoves calls := by
  induction calls with
  | nil => rfl
  | cons c calls ih =>
      have htail := ih fun value ok hmem => h value ok (List.mem_cons_of_mem _ hmem)
      rw [lockWrites, lockMoves, List.filterMap_cons, List.filterMap_cons]
      cases c with
      | getValue signal => exact htail
      | setString signal response ok => exact htail
      | setBool signal value ok =>
          by_cases hsignal : signal = signalIsLocked
          · subst hsignal
            have heffect := h value ok List.mem_cons_self
            simp only [Call.lockWrite, Call.lockMove, heffect, and_self, if_true, List.map_cons]
            exact congrArg (moveTo value :: ·) htail
          · simp only [Call.lockWrite, Call.lockMove, hsignal, false_and, if_false]
            exact htail

/-! ### One payload -/

/-- A write succeeds if the broker takes it. -/
def Broker.Answers (b : Broker) : Call → Prop
  | .setBool signal value ok => ok = b.setBool signal value
  | _ => True

variable (serde : SerdeJson) (b : Broker)

theorem answers_checkSafety : ∀ c ∈ (checkSafety b).2, b.Answers c := by
  intro c hc
  obtain ⟨signal, rfl⟩ := checkSafety_calls b c hc
  trivial

theorem answers_moveLock (target lockState : Bool) :
    ∀ c ∈ (moveLock b target lockState).2, b.Answers c := by
  rw [moveLock]
  split
  · rintro c ⟨⟩
  · intro c hc
    rw [List.mem_singleton.1 hc]
    rfl

theorem answers_processCommand (cmd : LockCommand) (lockState : Bool) :
    ∀ c ∈ (processCommand b cmd lockState).calls, b.Answers c := by
  have hresponse : ∀ (calls : List Call) (r : CommandResponse), (∀ c ∈ calls, b.Answers c) →
      ∀ c ∈ calls ++ [.setString signalResponse r (b.setString signalResponse)],
        b.Answers c := by
    intro calls r hcalls c hc
    rcases List.mem_append.1 hc with hc | hc
    · exact hcalls c hc
    · rw [List.mem_singleton.1 hc]
      trivial
  cases haction : cmd.action with
  | unlock =>
      simp only [processCommand, haction]
      exact hresponse _ _ (answers_moveLock b false lockState)
  | lock =>
      simp only [processCommand, haction]
      refine hresponse _ _ ?_
      have hsafety := answers_checkSafety b
      rw [processLock]
      split
      · next heq =>
        rw [heq] at hsafety
        exact hsafety
      · next heq =>
        rw [heq] at hsafety
        exact hsafety
      · next heq =>
        rw [heq] at hsafety
        intro c hc
        rcases List.mem_append.1 hc with hc | hc
        · exact hsafety c hc
        · exact answers_moveLock b true lockState c hc

theorem answers_handle (payload : String) (lockState : Bool) :
    ∀ c ∈ (handleCommandPayload b serde payload lockState).calls, b.Answers c := by
  have hanswer : ∀ r, ∀ c ∈ (answerOnly b lockState r).calls, b.Answers c := by
    intro r c hc
    rw [List.mem_singleton.1 hc]
    trivial
  rw [handleCommandPayload]
  split
  · rintro c ⟨⟩
  · split
    · exact hanswer _
    · rintro c ⟨⟩
  · split
    · exact hanswer _
    · exact answers_processCommand b _ lockState

/-- **What one payload leaves in the broker**, if the broker takes its writes or they take effect
all the same: the new lock state if that is another one, and nothing otherwise. -/
theorem lockWrites_handle_of_effective {late : Bool} (payload : String) (lockState : Bool)
    (h : late = true ∨ ∀ value, b.setBool signalIsLocked value = true) :
    ((handleCommandPayload b serde payload lockState).lockState = lockState ∧
        lockWrites late (handleCommandPayload b serde payload lockState).calls = []) ∨
      lockWrites late (handleCommandPayload b serde payload lockState).calls =
        [(handleCommandPayload b serde payload lockState).lockState] := by
  have heffect : ∀ value ok, .setBool signalIsLocked value ok ∈
      (handleCommandPayload b serde payload lockState).calls → ok = true ∨ late = true := by
    intro value ok hmem
    have hok : ok = b.setBool signalIsLocked value :=
      answers_handle serde b payload lockState _ hmem
    rcases h with hlate | htaken
    · exact .inr hlate
    · exact .inl (hok.trans (htaken value))
  have heq := lockWrites_eq heffect
  rcases lockMoves_handle serde lockState ⟨payload, b⟩ with
    ⟨cmd, -, hstate, hmoves⟩ | ⟨-, hstate, hmoves⟩
  · rw [hmoves] at heq
    refine .inr ?_
    rw [hstate]
    exact (List.map_injective_iff.2 moveTo_injective) heq
  · rw [hmoves] at heq
    exact .inl ⟨hstate, List.map_eq_nil_iff.1 heq⟩

/-- The payload is a lock command that was let through. -/
def Locks (serde : SerdeJson) (g : Handling) : Prop :=
  ∃ b lockState cmd, g.result = handleCommandPayload b serde g.payload lockState ∧
    parseCommand serde g.payload = .ok cmd ∧ validateCommand cmd = .ok () ∧ cmd.action = .lock ∧
    (checkSafety b).1 = .safe

/-- **Only a lock command that was let through writes `true`.** -/
theorem locks_of_mem_lockWrites {late : Bool} {n : ℕ} {payload : String} {lockState : Bool}
    (h : true ∈ lockWrites late (handleCommandPayload b serde payload lockState).calls) :
    Locks serde ⟨n, payload, handleCommandPayload b serde payload lockState⟩ := by
  have hmove := (lockWrites_sublist late
    (handleCommandPayload b serde payload lockState).calls).subset (List.mem_map_of_mem h)
  rcases lockMoves_handle serde lockState ⟨payload, b⟩ with
    ⟨cmd, ⟨hparse, hvalid, hallowed, -⟩, -, hmoves⟩ | ⟨-, -, hmoves⟩
  · rw [hmoves, List.mem_singleton] at hmove
    have htarget := moveTo_injective hmove
    have hlock : cmd.action = .lock := by
      cases haction : cmd.action with
      | lock => rfl
      | unlock =>
          rw [haction] at htarget
          cases htarget
    exact ⟨b, lockState, cmd, rfl, hparse, hvalid, hlock, hallowed hlock⟩
  · rw [hmoves] at hmove
    cases hmove

end LockingService
