/-
**Writes of the lock signal.**

A payload makes at most one write of the lock signal, and only if it is a valid command that is let
through and asks for the other state; the service is then in the state it has written, whether or
not the broker took the write.  Seen through these writes the service is a two-state automaton, so
that in every run they alternate, beginning with locking.

Main definitions:

* `LockingService.lockMoves` — the writes of the lock signal as moves of the automaton;
* `LockingService.handlePayloads` — a run of payloads, with its calls.

Main results:

* `LockingService.lockMoves_handle` — one payload;
* `LockingService.run_lockMoves` — every run is one of the automaton;
* `LockingService.lockMoves_alternate` — the writes of every run.
-/

import ParkingFeeService.LockingAgreement
import ParkingFeeService.Toggle

set_option relaxedAutoImplicit false
set_option autoImplicit false

namespace LockingService

/-! ### The automaton -/

/-- The move that sets the state. -/
def moveTo (locked : Bool) : Toggle Unit := if locked then .on () else .off

/-- The state of the automaton. -/
def lockedState (locked : Bool) : Option Unit := if locked then some () else none

/-- The move that a call is, if it is a write of the lock signal. -/
def Call.lockMove : Call → Option (Toggle Unit)
  | .setBool signal value _ => if signal = signalIsLocked then some (moveTo value) else none
  | _ => none

/-- The writes of the lock signal among a list of calls. -/
def lockMoves (calls : List Call) : List (Toggle Unit) := calls.filterMap Call.lockMove

@[simp] theorem lockMoves_append (calls calls' : List Call) :
    lockMoves (calls ++ calls') = lockMoves calls ++ lockMoves calls' := List.filterMap_append

@[simp] theorem isSome_lockedState (locked : Bool) : (lockedState locked).isSome = locked := by
  cases locked <;> rfl

/-- Moving to the other state. -/
theorem run_moveTo {lockState target : Bool} (h : lockState ≠ target) :
    Toggle.run (lockedState lockState) [moveTo target] = some (lockedState target) := by
  cases lockState <;> cases target <;> first | rfl | exact absurd rfl h

/-! ### One payload -/

theorem lockMoves_checkSafety (b : Broker) : lockMoves (checkSafety b).2 = [] := by
  refine List.filterMap_eq_nil_iff.2 fun c hc => ?_
  obtain ⟨signal, rfl⟩ := checkSafety_calls b c hc
  rfl

theorem lockMoves_moveLock (b : Broker) (target lockState : Bool) :
    lockMoves (moveLock b target lockState).2 =
      if lockState = target then [] else [moveTo target] := by
  rw [moveLock]
  split <;> rfl

/-- The writes of a command that is let through. -/
theorem lockMoves_of_allowed {b : Broker} {cmd : LockCommand} (lockState : Bool)
    (h : cmd.action = .lock → (checkSafety b).1 = .safe) :
    lockMoves (processCommand b cmd lockState).calls =
      if lockState = cmd.action.target then [] else [moveTo cmd.action.target] := by
  cases haction : cmd.action with
  | lock =>
      have ho := processLock_of_safe b cmd lockState (h haction)
      simp only [processCommand, haction, ho, lockMoves_append, lockMoves_checkSafety,
        lockMoves_moveLock, LockAction.target, List.nil_append]
      exact List.append_nil _
  | unlock =>
      simp only [processCommand, haction, processUnlock, lockMoves_append, lockMoves_moveLock,
        LockAction.target]
      exact List.append_nil _

/-- The writes of a command that is refused. -/
theorem lockMoves_of_refused {b : Broker} {cmd : LockCommand} (lockState : Bool)
    (haction : cmd.action = .lock) (h : (checkSafety b).1 ≠ .safe) :
    lockMoves (processCommand b cmd lockState).calls = [] := by
  obtain ⟨reason, ho⟩ := processLock_of_not_safe b cmd lockState h
  simp only [processCommand, haction, ho, lockMoves_append, lockMoves_checkSafety]
  rfl

variable (serde : SerdeJson)

/-- A payload that is answered without being processed, or not at all, makes no write. -/
theorem lockMoves_of_unprocessed (b : Broker) (payload : String) (lockState : Bool)
    (h : ∀ cmd, parseCommand serde payload = .ok cmd → validateCommand cmd ≠ .ok ()) :
    (handleCommandPayload b serde payload lockState).lockState = lockState ∧
      lockMoves (handleCommandPayload b serde payload lockState).calls = [] := by
  rw [handleCommandPayload]
  cases hparse : parseCommand serde payload with
  | error e =>
      cases e with
      | invalidJson msg => exact ⟨rfl, rfl⟩
      | invalidCommand msg | unsupportedDoor msg =>
          cases extractCommandId serde payload <;> exact ⟨rfl, rfl⟩
  | ok cmd =>
      cases hvalid : validateCommand cmd with
      | error e => simp only [hvalid]; exact ⟨rfl, rfl⟩
      | ok u => exact absurd hvalid (h cmd hparse)

/-- **What one payload writes**: the state that a command asks for, if it has to change the state,
and nothing otherwise. -/
theorem lockMoves_handle (lockState : Bool) (i : Input) :
    (∃ cmd, Changes serde lockState i cmd ∧
      (handleCommandPayload i.broker serde i.payload lockState).lockState = cmd.action.target ∧
      lockMoves (handleCommandPayload i.broker serde i.payload lockState).calls =
        [moveTo cmd.action.target]) ∨
    (∀ cmd, ¬ Changes serde lockState i cmd) ∧
      (handleCommandPayload i.broker serde i.payload lockState).lockState = lockState ∧
      lockMoves (handleCommandPayload i.broker serde i.payload lockState).calls = [] := by
  by_cases hproc : ∃ cmd, parseCommand serde i.payload = .ok cmd ∧ validateCommand cmd = .ok ()
  · obtain ⟨cmd, hparse, hvalid⟩ := hproc
    have hhandle : handleCommandPayload i.broker serde i.payload lockState =
        ⟨some (processCommand i.broker cmd lockState).response,
          (processCommand i.broker cmd lockState).lockState,
          (processCommand i.broker cmd lockState).calls⟩ := by
      rw [handleCommandPayload]
      simp only [hparse, hvalid]
    have honly : ∀ cmd', Changes serde lockState i cmd' → cmd' = cmd := by
      rintro cmd' ⟨hparse', -⟩
      cases hparse.symm.trans hparse'
      rfl
    rw [hhandle]
    by_cases hallowed : cmd.action = .lock → (checkSafety i.broker).1 = .safe
    · obtain ⟨hstate, -, -⟩ := processCommand_of_allowed lockState false hallowed
      have hmoves := lockMoves_of_allowed lockState hallowed
      by_cases hsame : lockState = cmd.action.target
      · -- the command is satisfied already
        refine .inr ⟨fun cmd' hchanges => ?_, hstate.trans hsame.symm, ?_⟩
        · have hother := hchanges.2.2.2
          rw [honly cmd' hchanges] at hother
          exact hother hsame
        · rw [hmoves, if_pos hsame]
      · refine .inl ⟨cmd, ⟨hparse, hvalid, hallowed, hsame⟩, hstate, ?_⟩
        rw [hmoves, if_neg hsame]
    · have hlock : cmd.action = .lock := (Classical.not_imp.1 hallowed).1
      have hunsafe := (Classical.not_imp.1 hallowed).2
      obtain ⟨hstate, -, -⟩ := processCommand_of_refused lockState false hlock hunsafe
      refine .inr ⟨fun cmd' hchanges => ?_, hstate, lockMoves_of_refused lockState hlock hunsafe⟩
      have hsafe := hchanges.2.2.1
      rw [honly cmd' hchanges] at hsafe
      exact hallowed hsafe
  · have hunproc : ∀ cmd, parseCommand serde i.payload = .ok cmd → validateCommand cmd ≠ .ok () :=
      fun cmd hparse hvalid => hproc ⟨cmd, hparse, hvalid⟩
    refine .inr ⟨fun cmd hchanges => hunproc cmd hchanges.1 hchanges.2.1, ?_⟩
    exact lockMoves_of_unprocessed serde i.broker i.payload lockState hunproc

/-- One payload is a run of the automaton. -/
theorem run_lockMoves_handle (lockState : Bool) (i : Input) :
    Toggle.run (lockedState lockState)
        (lockMoves (handleCommandPayload i.broker serde i.payload lockState).calls) =
      some (lockedState (handleCommandPayload i.broker serde i.payload lockState).lockState) := by
  rcases lockMoves_handle serde lockState i with
    ⟨cmd, hchanges, hstate, hmoves⟩ | ⟨-, hstate, hmoves⟩
  · rw [hstate, hmoves]
    exact run_moveTo hchanges.2.2.2
  · rw [hstate, hmoves]
    rfl

/-! ### Every run -/

/-- The lock state after a run of payloads, and the calls of the run. -/
def handlePayloads : Bool → List Input → Bool × List Call
  | lockState, [] => (lockState, [])
  | lockState, i :: is =>
      let h := handleCommandPayload i.broker serde i.payload lockState
      let rest := handlePayloads h.lockState is
      (rest.1, h.calls ++ rest.2)

/-- **Every run is a run of the automaton.** -/
theorem run_lockMoves (is : List Input) : ∀ lockState : Bool,
    Toggle.run (lockedState lockState) (lockMoves (handlePayloads serde lockState is).2) =
      some (lockedState (handlePayloads serde lockState is).1) := by
  induction is with
  | nil => intro lockState; rfl
  | cons i is ih =>
      intro lockState
      rw [handlePayloads, lockMoves_append, Toggle.run_append, run_lockMoves_handle]
      exact ih _

/-- **The writes of the lock signal are the changes of the lock state.**  In every run from the
unlocked state they alternate, beginning with locking; the state is the value of the last one; and a
payload that is not a valid command let through to change the state makes none. -/
theorem lockMoves_alternate (is : List Input) :
    Toggle.Alternating true (lockMoves (handlePayloads serde false is).2) ∧
      (handlePayloads serde false is).1 =
        (Toggle.last (lockMoves (handlePayloads serde false is).2)).isSome ∧
      ∀ (lockState : Bool) (i : Input), (∀ cmd, ¬ Changes serde lockState i cmd) →
        lockMoves (handleCommandPayload i.broker serde i.payload lockState).calls = [] := by
  have hrun := run_lockMoves serde is false
  refine ⟨Toggle.alternating_of_run hrun, ?_, ?_⟩
  · rw [← Toggle.eq_last_of_run hrun, isSome_lockedState]
  · intro lockState i hno
    rcases lockMoves_handle serde lockState i with ⟨cmd, hchanges, -⟩ | ⟨-, -, hmoves⟩
    · exact absurd hchanges (hno cmd)
    · exact hmoves

end LockingService
