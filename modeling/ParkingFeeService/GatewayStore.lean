/-
**The response store of the cloud gateway.**

The store maps command ids to responses and to timers.  A timer that is started stores a timeout
response when it fires, unless a response is there already; storing a response stops the timer in
the map.  Every operation holds the store's mutex, and so does the callback of a timer: between
firing and taking the mutex a callback waits, and stopping its timer no longer has any effect.

A timer is known by its command id and by its place among the timers ever started for that id.

Main definitions:

* `CloudGateway.CommandResponse`, `CloudGateway.Store` — the store and the timers of the runtime;
* `CloudGateway.Store.storeResponse`, `CloudGateway.Store.getResponse`,
  `CloudGateway.Store.startTimeout` — the operations;
* `CloudGateway.Store.fire`, `CloudGateway.Store.callback` — the two steps of a timer;
* `CloudGateway.Store.cell` — the part of the store that concerns one command id.

Main results:

* `CloudGateway.Store.local_storeResponse`, `CloudGateway.Store.local_startTimeout`,
  `CloudGateway.Store.local_fire`, `CloudGateway.Store.local_callback` — all operations are local.
-/

import ParkingFeeService.Noninterference
import Mathlib.Logic.Function.Basic

set_option relaxedAutoImplicit false
set_option autoImplicit false

namespace CloudGateway

/-! ### Timers -/

/-- What a timer has come to. -/
inductive TimerPhase
  | armed
  | stopped
  | fired
  | done
  deriving DecidableEq, Repr

/-- A timer of Go's runtime, made by `time.AfterFunc`. -/
structure Timer where
  duration : Int64
  phase : TimerPhase
  deriving DecidableEq

/-- Stopping a timer, which has an effect only before it fires. -/
def Timer.stop (t : Timer) : Timer := if t.phase = .armed then { t with phase := .stopped } else t

/-- The duration of an armed timer is over, and its callback starts. -/
def Timer.fire (t : Timer) : Timer := if t.phase = .armed then { t with phase := .fired } else t

/-- The callback of a timer has returned. -/
def Timer.finish (t : Timer) : Timer := { t with phase := .done }

/-! ### The store -/

/-- The result of a command execution. -/
structure CommandResponse where
  commandId : String
  status : String
  reason : String := ""
  deriving DecidableEq, Repr

/-- The store with its two maps, and the timers that were ever started for each command id, the
oldest first. -/
structure Store where
  responses : String → Option CommandResponse
  timers : String → Option ℕ
  started : String → List Timer

namespace Store

/-- The empty store. -/
def new : Store := ⟨fun _ => none, fun _ => none, fun _ => []⟩

/-- Changing one timer. -/
def modifyTimer (s : Store) (commandId : String) (n : ℕ) (f : Timer → Timer) : Store :=
  { s with started := Function.update s.started commandId ((s.started commandId).modify n f) }

/-- Saving a response and cancelling a pending timeout timer. -/
def storeResponse (s : Store) (resp : CommandResponse) : Store :=
  let s := { s with responses := Function.update s.responses resp.commandId (some resp) }
  match s.timers resp.commandId with
  | some n =>
      { s.modifyTimer resp.commandId n Timer.stop with
        timers := Function.update s.timers resp.commandId none }
  | none => s

/-- Looking up a response. -/
def getResponse (s : Store) (commandId : String) : Option CommandResponse := s.responses commandId

/-- Starting a timer that stores a timeout response when it fires. -/
def startTimeout (s : Store) (commandId : String) (duration : Int64) : Store :=
  -- an earlier timer of the command id stays armed, and is no longer in the map
  { s with
    timers := Function.update s.timers commandId (some (s.started commandId).length)
    started := Function.update s.started commandId
      (s.started commandId ++ [⟨duration, .armed⟩]) }

/-- A timer fires. -/
def fire (s : Store) (commandId : String) (n : ℕ) : Store := s.modifyTimer commandId n Timer.fire

/-- The callback of a timer that has fired takes the mutex. -/
def callback (s : Store) (commandId : String) (n : ℕ) : Store :=
  if ((s.started commandId)[n]?).map Timer.phase = some .fired then
    let responses :=
      match s.responses commandId with
      | some _ => s.responses
      | none => Function.update s.responses commandId
          (some { commandId := commandId, status := "timeout" })
    -- the entry is deleted even if it is by now that of another timer
    { s.modifyTimer commandId n Timer.finish with
      responses := responses
      timers := Function.update s.timers commandId none }
  else s

/-! ### Locality -/

/-- The part of the store that concerns one command id. -/
structure Cell where
  response : Option CommandResponse
  timer : Option ℕ
  started : List Timer

/-- What the store holds for a command id. -/
def cell (s : Store) (commandId : String) : Cell :=
  ⟨s.responses commandId, s.timers commandId, s.started commandId⟩

theorem local_modifyTimer (commandId : String) (n : ℕ) (f : Timer → Timer) :
    Local cell (some commandId) fun s => s.modifyTimer commandId n f := by
  refine .of_key ?_ ?_
  · intro s id hid
    simp [cell, modifyTimer, hid]
  · intro s t hst
    obtain ⟨hresp, htimer, hstarted⟩ := Cell.mk.inj hst
    simp [cell, modifyTimer, hresp, htimer, hstarted]

theorem local_storeResponse (resp : CommandResponse) :
    Local cell (some resp.commandId) fun s => s.storeResponse resp := by
  refine .of_key ?_ ?_
  · intro s id hid
    cases h : s.timers resp.commandId <;> simp [cell, storeResponse, modifyTimer, h, hid]
  · intro s t hst
    obtain ⟨-, htimer, hstarted⟩ := Cell.mk.inj hst
    cases h : t.timers resp.commandId <;>
      simp [cell, storeResponse, modifyTimer, h, htimer, hstarted]

theorem local_startTimeout (commandId : String) (duration : Int64) :
    Local cell (some commandId) fun s => s.startTimeout commandId duration := by
  refine .of_key ?_ ?_
  · intro s id hid
    simp [cell, startTimeout, hid]
  · intro s t hst
    obtain ⟨hresp, -, hstarted⟩ := Cell.mk.inj hst
    simp [cell, startTimeout, hresp, hstarted]

theorem local_fire (commandId : String) (n : ℕ) :
    Local cell (some commandId) fun s => s.fire commandId n :=
  local_modifyTimer commandId n Timer.fire

theorem local_callback (commandId : String) (n : ℕ) :
    Local cell (some commandId) fun s => s.callback commandId n := by
  refine .of_key ?_ ?_
  · intro s id hid
    rw [callback]
    split
    · cases h : s.responses commandId <;> simp [cell, modifyTimer, hid]
    · rfl
  · intro s t hst
    obtain ⟨hresp, -, hstarted⟩ := Cell.mk.inj hst
    simp only [callback]
    rw [hstarted]
    split
    · cases h : t.responses commandId <;> simp [cell, modifyTimer, h, hresp, hstarted]
    · exact hst

end Store

end CloudGateway
