/-
**The adapter map of the update service.**

The update service keeps one entry for every adapter it knows, in a map keyed by the adapter id,
behind a mutex; every state change goes through `transition`, which overwrites the state of an
entry and hands an event to the broadcast channel.  Each operation here is one critical section.

Two readings return elements of a hash map in an order the language does not fix.  They are kept
as the list of *all* matching entries, together with the relation saying which answers the code may
give: any running entry, and the candidates in any order.

Main definitions:

* `UpdateService.deriveAdapterId`, `UpdateService.AdapterState`, `UpdateService.AdapterEntry`,
  `UpdateService.AdapterStateEvent` — the data model;
* `UpdateService.StateManager` — the map and the events sent so far, with the invariant that an
  entry is stored under its own id;
* `UpdateService.StateManager.createAdapter`, `transition`, `removeAdapter`, `getAdapter`,
  `runningAdapters`, `getOffloadCandidates` — the operations.

Main results:

* `UpdateService.StateManager.getAdapter_keepTransition` — what a transition does to every entry,
  and `sent_keepTransition` what it emits;
* `UpdateService.StateManager.getAdapter_createAdapter`, `getAdapter_keepRemove`;
* `UpdateService.StateManager.length_runningAdapters_le_one_iff` — at most one adapter is running
  exactly when any two running ids are equal.
-/

import Mathlib.Data.List.AList
import Mathlib.Tactic.Common

set_option relaxedAutoImplicit false
set_option autoImplicit false

namespace UpdateService

/-! ### The data model -/

/-- The adapter id of an image reference: its last path segment, with colons replaced by
hyphens. -/
def deriveAdapterId (imageRef : String) : String :=
  String.ofList (((imageRef.toList.reverse.takeWhile (· ≠ '/')).reverse).map fun c =>
    if c = ':' then '-' else c)

example : deriveAdapterId "us-docker.pkg.dev/sdv-demo/adapters/parkhaus-munich:v1.0.0" =
    "parkhaus-munich-v1.0.0" := by decide

/-- Lifecycle states of an adapter. -/
inductive AdapterState
  | unknown
  | downloading
  | installing
  | running
  | stopped
  | error
  | offloading
  deriving DecidableEq, Repr

/-- The clocks a critical section reads: the monotonic one and the seconds since the epoch. -/
structure Clock where
  instant : ℕ
  unixSecs : ℕ
  deriving DecidableEq, Repr

/-- In-memory entry tracking a single adapter. -/
structure AdapterEntry where
  adapterId : String
  imageRef : String
  checksumSha256 : String
  state : AdapterState
  jobId : String
  stoppedAt : Option ℕ
  errorMessage : Option String
  deriving DecidableEq, Repr

/-- Event emitted on every adapter state transition. -/
structure AdapterStateEvent where
  adapterId : String
  oldState : AdapterState
  newState : AdapterState
  timestamp : ℕ
  deriving DecidableEq, Repr

/-- Error type for state operations. -/
inductive StateError
  | notFound (msg : String)
  | invalidTransition (msg : String)
  deriving DecidableEq, Repr

/-- The entry after a transition: `stoppedAt` is set on entering `stopped` and the error message
on entering `error`; neither is ever cleared. -/
def AdapterEntry.enter (clk : Clock) (newState : AdapterState) (errorMsg : Option String)
    (entry : AdapterEntry) : AdapterEntry :=
  { entry with
    state := newState
    stoppedAt := if newState = .stopped then some clk.instant else entry.stoppedAt
    errorMessage := if newState = .error then errorMsg else entry.errorMessage }

@[simp] theorem AdapterEntry.enter_state (clk : Clock) (st : AdapterState) (msg : Option String)
    (e : AdapterEntry) : (e.enter clk st msg).state = st := rfl

@[simp] theorem AdapterEntry.enter_adapterId (clk : Clock) (st : AdapterState)
    (msg : Option String) (e : AdapterEntry) :
    (e.enter clk st msg).adapterId = e.adapterId := rfl

@[simp] theorem AdapterEntry.enter_jobId (clk : Clock) (st : AdapterState) (msg : Option String)
    (e : AdapterEntry) : (e.enter clk st msg).jobId = e.jobId := rfl

/-! ### The state manager -/

/-- The map of adapters and the events handed to the broadcast channel so far, oldest first.  An
entry is stored under its own id. -/
structure StateManager where
  adapters : AList fun _ : String => AdapterEntry
  sent : List AdapterStateEvent
  keyed : ∀ id e, adapters.lookup id = some e → e.adapterId = id

namespace StateManager

/-- The state manager of a service that has just started. -/
def new : StateManager where
  adapters := ∅
  sent := []
  keyed := by intro id e h; simp at h

/-- A clone of the entry stored under an id. -/
def getAdapter (sm : StateManager) (adapterId : String) : Option AdapterEntry :=
  sm.adapters.lookup adapterId

@[simp] theorem getAdapter_new (id : String) : new.getAdapter id = none :=
  AList.lookup_empty id

theorem adapterId_of_getAdapter {sm : StateManager} {id : String} {e : AdapterEntry}
    (h : sm.getAdapter id = some e) : e.adapterId = id := sm.keyed id e h

/-- All known adapters, in no particular order. -/
def listAdapters (sm : StateManager) : List AdapterEntry :=
  sm.adapters.entries.map Sigma.snd

theorem mem_listAdapters {sm : StateManager} {e : AdapterEntry} :
    e ∈ sm.listAdapters ↔ sm.getAdapter e.adapterId = some e := by
  rw [listAdapters, getAdapter]
  constructor
  · intro h
    obtain ⟨⟨id, e'⟩, hmem, rfl⟩ := List.mem_map.1 h
    have hlook : sm.adapters.lookup id = some e' := AList.mem_lookup_iff.2 hmem
    rwa [sm.keyed id e' hlook]
  · intro h
    exact List.mem_map.2 ⟨⟨e.adapterId, e⟩, AList.mem_lookup_iff.1 h, rfl⟩

/-- Inserting an entry, overwriting the one stored under the same id. -/
def createAdapter (sm : StateManager) (entry : AdapterEntry) : StateManager where
  adapters := sm.adapters.insert entry.adapterId entry
  sent := sm.sent
  keyed := by
    intro id e h
    by_cases hid : id = entry.adapterId
    · subst hid
      rw [AList.lookup_insert] at h
      cases h
      rfl
    · rw [AList.lookup_insert_ne hid] at h
      exact sm.keyed id e h

theorem getAdapter_createAdapter (sm : StateManager) (entry : AdapterEntry) (id : String) :
    (sm.createAdapter entry).getAdapter id =
      if id = entry.adapterId then some entry else sm.getAdapter id := by
  simp only [getAdapter, createAdapter]
  split
  · next h => rw [h, AList.lookup_insert]
  · next h => rw [AList.lookup_insert_ne h]

@[simp] theorem sent_createAdapter (sm : StateManager) (entry : AdapterEntry) :
    (sm.createAdapter entry).sent = sm.sent := rfl

/-- The event of a transition of `entry`. -/
def eventOf (clk : Clock) (adapterId : String) (newState : AdapterState) (entry : AdapterEntry) :
    AdapterStateEvent :=
  ⟨adapterId, entry.state, newState, clk.unixSecs⟩

/-- Moving an adapter to a new state and emitting an event.  Which state is left is not looked
at. -/
def transition (clk : Clock) (sm : StateManager) (adapterId : String) (newState : AdapterState)
    (errorMsg : Option String) : Except StateError StateManager :=
  match h : sm.adapters.lookup adapterId with
  | none => .error (.notFound ("adapter not found: " ++ adapterId))
  | some entry => .ok
      { adapters := sm.adapters.insert adapterId (entry.enter clk newState errorMsg)
        sent := sm.sent ++ [eventOf clk adapterId newState entry]
        keyed := by
          intro id e he
          by_cases hid : id = adapterId
          · subst hid
            rw [AList.lookup_insert] at he
            cases he
            exact sm.keyed id entry h
          · rw [AList.lookup_insert_ne hid] at he
            exact sm.keyed id e he }

/-- A transition whose result is discarded, as every caller does: on an unknown id nothing
happens. -/
def keepTransition (clk : Clock) (sm : StateManager) (adapterId : String)
    (newState : AdapterState) (errorMsg : Option String) : StateManager :=
  (sm.transition clk adapterId newState errorMsg).toOption.getD sm

theorem transition_of_none {clk : Clock} {sm : StateManager} {id : String}
    (st : AdapterState) (msg : Option String) (h : sm.getAdapter id = none) :
    sm.transition clk id st msg = .error (.notFound ("adapter not found: " ++ id)) := by
  rw [getAdapter] at h
  rw [transition]
  split
  · rfl
  · next e he => rw [h] at he; cases he

theorem keepTransition_of_none {clk : Clock} {sm : StateManager} {id : String}
    (st : AdapterState) (msg : Option String) (h : sm.getAdapter id = none) :
    sm.keepTransition clk id st msg = sm := by
  rw [keepTransition, transition_of_none st msg h]
  rfl

/-- What a transition does to the entry of every id. -/
theorem getAdapter_keepTransition (clk : Clock) (sm : StateManager) (id : String)
    (st : AdapterState) (msg : Option String) (id' : String) :
    (sm.keepTransition clk id st msg).getAdapter id' =
      if id' = id then (sm.getAdapter id).map (AdapterEntry.enter clk st msg)
      else sm.getAdapter id' := by
  cases h : sm.getAdapter id with
  | none =>
      rw [keepTransition_of_none st msg h]
      split
      · next hid => rw [hid, h]; rfl
      · rfl
  | some e =>
      unfold keepTransition transition getAdapter at *
      split at *
      · next hn => rw [h] at hn; cases hn
      · next e' he' =>
          rw [h] at he'
          cases he'
          simp only [Except.toOption, Option.getD_some]
          split
          · next hid => rw [hid, AList.lookup_insert]; rfl
          · next hid => rw [AList.lookup_insert_ne hid]

/-- What a transition emits: one event if the id is known, nothing otherwise. -/
theorem sent_keepTransition (clk : Clock) (sm : StateManager) (id : String)
    (st : AdapterState) (msg : Option String) :
    (sm.keepTransition clk id st msg).sent =
      sm.sent ++ ((sm.getAdapter id).map (eventOf clk id st)).toList := by
  cases h : sm.getAdapter id with
  | none => rw [keepTransition_of_none st msg h]; simp
  | some e =>
      rw [keepTransition, transition]
      rw [getAdapter] at h
      split
      · next hn => rw [h] at hn; cases hn
      · next e' he' => rw [h] at he'; cases he'; rfl

/-- Removing an adapter from the state entirely. -/
def removeAdapter (sm : StateManager) (adapterId : String) : Except StateError StateManager :=
  match sm.adapters.lookup adapterId with
  | none => .error (.notFound ("adapter not found: " ++ adapterId))
  | some _ => .ok
      { adapters := sm.adapters.erase adapterId
        sent := sm.sent
        keyed := by
          intro id e he
          by_cases hid : id = adapterId
          · subst hid
            rw [AList.lookup_erase] at he
            cases he
          · rw [AList.lookup_erase_ne hid] at he
            exact sm.keyed id e he }

/-- A removal whose result is discarded. -/
def keepRemove (sm : StateManager) (adapterId : String) : StateManager :=
  (sm.removeAdapter adapterId).toOption.getD sm

theorem getAdapter_keepRemove (sm : StateManager) (id id' : String) :
    (sm.keepRemove id).getAdapter id' = if id' = id then none else sm.getAdapter id' := by
  simp only [keepRemove, removeAdapter, getAdapter]
  split
  · next h =>
      split
      · next hid => rw [hid]; exact h
      · rfl
  · next e h =>
      simp only [Except.toOption, Option.getD_some]
      split
      · next hid => rw [hid, AList.lookup_erase]
      · next hid => rw [AList.lookup_erase_ne hid]

@[simp] theorem sent_keepRemove (sm : StateManager) (id : String) :
    (sm.keepRemove id).sent = sm.sent := by
  rw [keepRemove, removeAdapter]
  split <;> rfl

/-- The state an adapter is in, if it is known. -/
def stateAt (sm : StateManager) (id : String) : Option AdapterState :=
  (sm.getAdapter id).map AdapterEntry.state

@[simp] theorem stateAt_new (id : String) : new.stateAt id = none := by simp [stateAt]

theorem stateAt_of_getAdapter {sm : StateManager} {id : String} {e : AdapterEntry}
    (h : sm.getAdapter id = some e) : sm.stateAt id = some e.state := by simp [stateAt, h]

/-! ### The two readings that walk the map -/

/-- The running adapters. -/
def runningAdapters (sm : StateManager) : List AdapterEntry :=
  sm.listAdapters.filter fun a => a.state = .running

theorem mem_runningAdapters {sm : StateManager} {e : AdapterEntry} :
    e ∈ sm.runningAdapters ↔ sm.getAdapter e.adapterId = some e ∧ e.state = .running := by
  simp [runningAdapters, mem_listAdapters]

/-- What `get_running_adapter` may return: the first running adapter of the map's unspecified
order, hence any one of them, and nothing only if there is none. -/
def IsRunningAdapter (sm : StateManager) : Option AdapterEntry → Prop
  | none => sm.runningAdapters = []
  | some a => a ∈ sm.runningAdapters

instance (sm : StateManager) : (r : Option AdapterEntry) → Decidable (sm.IsRunningAdapter r)
  | none => inferInstanceAs (Decidable (sm.runningAdapters = []))
  | some a => inferInstanceAs (Decidable (a ∈ sm.runningAdapters))

/-- The adapters stopped for at least the timeout. -/
def getOffloadCandidates (clk : Clock) (sm : StateManager) (timeout : ℕ) : List AdapterEntry :=
  sm.listAdapters.filter fun a =>
    a.state = .stopped ∧ (a.stoppedAt.map fun t => decide (timeout ≤ clk.instant - t)).getD false

theorem mem_getOffloadCandidates {clk : Clock} {sm : StateManager} {timeout : ℕ}
    {e : AdapterEntry} :
    e ∈ sm.getOffloadCandidates clk timeout ↔
      sm.getAdapter e.adapterId = some e ∧ e.state = .stopped ∧
        ∃ t, e.stoppedAt = some t ∧ timeout ≤ clk.instant - t := by
  cases h : e.stoppedAt <;> simp [getOffloadCandidates, mem_listAdapters, h]

/-- The ids of the listed adapters are the keys of the map. -/
theorem map_adapterId_listAdapters (sm : StateManager) :
    sm.listAdapters.map AdapterEntry.adapterId = sm.adapters.keys := by
  rw [listAdapters, AList.keys, List.keys]
  rw [List.map_map]
  refine List.map_congr_left ?_
  rintro ⟨id, e⟩ he
  exact sm.keyed id e (AList.mem_lookup_iff.2 he)

theorem nodup_adapterId_listAdapters (sm : StateManager) :
    (sm.listAdapters.map AdapterEntry.adapterId).Nodup := by
  rw [map_adapterId_listAdapters]
  exact sm.adapters.keys_nodup

/-- The walked entries satisfying a test have different ids. -/
theorem nodup_adapterId_filter (sm : StateManager) (p : AdapterEntry → Bool) :
    ((sm.listAdapters.filter p).map AdapterEntry.adapterId).Nodup :=
  (nodup_adapterId_listAdapters sm).sublist (List.filter_sublist.map _)

theorem stateAt_of_mem_runningAdapters {sm : StateManager} {e : AdapterEntry}
    (h : e ∈ sm.runningAdapters) : sm.stateAt e.adapterId = some .running := by
  obtain ⟨hget, hst⟩ := mem_runningAdapters.1 h
  rw [stateAt_of_getAdapter hget, hst]

theorem exists_mem_runningAdapters {sm : StateManager} {id : String}
    (h : sm.stateAt id = some .running) : ∃ e ∈ sm.runningAdapters, e.adapterId = id := by
  obtain ⟨e, hget, hst⟩ := Option.map_eq_some_iff.1 h
  have hid := adapterId_of_getAdapter hget
  exact ⟨e, mem_runningAdapters.2 ⟨hid ▸ hget, hst⟩, hid⟩

/-- At most one adapter is running exactly when any two running ids are equal. -/
theorem length_runningAdapters_le_one_iff (sm : StateManager) :
    sm.runningAdapters.length ≤ 1 ↔
      ∀ id id', sm.stateAt id = some .running → sm.stateAt id' = some .running → id = id' := by
  have hmem : (∀ id id', sm.stateAt id = some .running → sm.stateAt id' = some .running →
        id = id') ↔
      ∀ e ∈ sm.runningAdapters, ∀ e' ∈ sm.runningAdapters, e.adapterId = e'.adapterId := by
    constructor
    · intro h e he e' he'
      exact h _ _ (stateAt_of_mem_runningAdapters he) (stateAt_of_mem_runningAdapters he')
    · intro h id id' hid hid'
      obtain ⟨e, he, rfl⟩ := exists_mem_runningAdapters hid
      obtain ⟨e', he', rfl⟩ := exists_mem_runningAdapters hid'
      exact h e he e' he'
  rw [hmem]
  have hnd : (sm.runningAdapters.map AdapterEntry.adapterId).Nodup :=
    nodup_adapterId_filter sm _
  match sm.runningAdapters, hnd with
  | [], _ => simp
  | [a], _ => simp
  | a :: b :: l, hnd =>
      have hab : a.adapterId ≠ b.adapterId := by
        intro heq
        simp [heq] at hnd
      constructor
      · intro h; simp at h
      · intro h; exact absurd (h a (by simp) b (by simp)) hab

end StateManager

end UpdateService
