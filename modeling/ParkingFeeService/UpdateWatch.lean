/-
**Watching the adapter states.**

Every event goes into a broadcast channel of capacity 256, and a call of `WatchAdapterStates` gets a
receiver of its own, whose items it filters: an event is converted and sent to the client, and the
error by which the channel tells a receiver that it has lagged is skipped.

A client therefore gets the events emitted after its call, in order and each at most once.  One that
falls more than 256 events behind does not get the events that were overwritten, and is not told.

Main definitions:

* `UpdateService.ProtoEvent`, `UpdateService.toProto` — the message sent to the client;
* `UpdateService.Watcher`, `UpdateService.WatchState`, `UpdateService.WatchState.step`.

Main results:

* `UpdateService.lagged_watcher_misses_event` — a watcher that is 257 events behind;
* `UpdateService.stream_of_reach` — what a watcher has been sent.
-/

import ParkingFeeService.Broadcast
import ParkingFeeService.Lts
import ParkingFeeService.Pool
import ParkingFeeService.UpdateHistory

set_option relaxedAutoImplicit false
set_option autoImplicit false

namespace UpdateService

open Broadcast (Ring Walk)

/-! ### Messages -/

/-- A state in the protocol buffer enumeration. -/
def stateToProto : AdapterState → ℤ
  | .unknown => 0
  | .downloading => 1
  | .installing => 2
  | .running => 3
  | .stopped => 4
  | .error => 5
  | .offloading => 6

/-- The message `AdapterStateEvent`. -/
structure ProtoEvent where
  adapterId : String
  oldState : ℤ
  newState : ℤ
  timestamp : Int64
  deriving DecidableEq

/-- An event as a message. -/
def toProto (ev : AdapterStateEvent) : ProtoEvent where
  adapterId := ev.adapterId
  oldState := stateToProto ev.oldState
  newState := stateToProto ev.newState
  timestamp := Int64.ofNat ev.timestamp

/-- The filter of the stream: an event is sent, an error of the channel is skipped. -/
def watchItem : Except ℕ AdapterStateEvent → Option ProtoEvent
  | .ok ev => some (toProto ev)
  | .error _ => none

/-! ### Watchers -/

/-- The capacity of the channel. -/
def channelCapacity : ℕ := 256

/-- A call of `WatchAdapterStates`: the number of events emitted before it, the position of its
receiver, and the items received so far. -/
structure Watcher where
  start : ℕ
  next : ℕ
  items : List (Except ℕ AdapterStateEvent)

/-- What the client has been sent. -/
def Watcher.stream (w : Watcher) : List ProtoEvent := w.items.filterMap watchItem

/-- The receiver is read. -/
def Watcher.poll (ring : Ring channelCapacity AdapterStateEvent) (w : Watcher) : Watcher :=
  match ring.recv w.next with
  | some item => { w with next := w.next + Broadcast.width item, items := w.items ++ [item] }
  | none => w

/-- The state manager, the channel and the watchers. -/
structure WatchState where
  sm : StateManager
  ring : Ring channelCapacity AdapterStateEvent
  watchers : List Watcher

/-- A service that has just started. -/
def WatchState.init : WatchState := ⟨.new, .new, []⟩

/-- The steps: an operation of the state manager, a call of `WatchAdapterStates`, a read of a
receiver. -/
inductive WatchAction
  | operation (clk : Clock) (op : Operation)
  | watch
  | poll (i : ℕ)

/-- One step. -/
def WatchState.step (s : WatchState) : WatchAction → Option WatchState
  | .operation clk op => some
      { s with
        sm := op.apply clk s.sm
        ring := (op.events clk s.sm).foldl Ring.send s.ring }
  | .watch => some
      { s with watchers := s.watchers ++ [⟨s.sm.sent.length, s.ring.tail, []⟩] }
  | .poll i =>
      (s.watchers[i]?).map fun w => { s with watchers := s.watchers.set i (w.poll s.ring) }

/-! ### The invariant -/

/-- The channel keeps the last events, and every watcher has received a walk along all events from
the ones emitted before its call on. -/
structure Following (s : WatchState) : Prop where
  keeps : s.ring.Keeps s.sm.sent
  walks : ∀ w ∈ s.watchers, w.start ≤ s.sm.sent.length ∧
    Walk channelCapacity s.sm.sent w.start w.items w.next

theorem following_init : Following WatchState.init := by
  refine ⟨Broadcast.Ring.keeps_new, fun w hw => ?_⟩
  cases hw

/-- Every step keeps the invariant. -/
theorem Following.step {s s' : WatchState} {a : WatchAction} (h : Following s)
    (hstep : s.step a = some s') : Following s' := by
  cases a with
  | operation clk op =>
      cases hstep
      have hsent := sent_operation clk s.sm op
      refine ⟨?_, fun w hw => ?_⟩
      · simp only [hsent]
        exact h.keeps.foldl_send
      · obtain ⟨hstart, hwalk⟩ := h.walks w hw
        simp only [hsent]
        refine ⟨?_, hwalk.append _⟩
        rw [List.length_append]
        omega
  | watch =>
      cases hstep
      refine ⟨h.keeps, fun w hw => ?_⟩
      rcases List.mem_append.1 hw with hw | hw
      · exact h.walks w hw
      · cases List.mem_singleton.1 hw
        exact ⟨Nat.le_refl _, h.keeps.tail_eq.symm⟩
  | poll i =>
      obtain ⟨w, hi, rfl⟩ := Option.map_eq_some_iff.1 hstep
      refine ⟨h.keeps, fun w' hw' => ?_⟩
      rcases Pool.eq_or_mem_of_mem_set hw' with rfl | hw'
      · obtain ⟨hstart, hwalk⟩ := h.walks w (List.mem_of_getElem? hi)
        rw [Watcher.poll]
        split
        · next item hitem => exact ⟨hstart, hwalk.recv h.keeps hitem⟩
        · exact ⟨hstart, hwalk⟩
      · exact h.walks w' hw'

/-! ### What a watcher has been sent -/

theorem stream_eq (w : Watcher) :
    w.stream = (w.items.filterMap Except.toOption).map toProto := by
  rw [Watcher.stream, List.map_filterMap]
  refine List.filterMap_congr fun item _ => ?_
  cases item <;> rfl

theorem following_of_reach {s : WatchState} (h : Lts.Reach WatchState.step WatchState.init s) :
    Following s :=
  h.invariant following_init fun _ _ _ hs hstep => hs.step hstep

/-- **A watcher has been sent the events emitted after its call, in order and each at most once**;
the items it received lead along them, so that the only ones left out were more than 256 events
behind when it was told so; without such a gap they are the first ones, with none left out. -/
theorem stream_of_reach {s : WatchState} (h : Lts.Reach WatchState.step WatchState.init s)
    {w : Watcher} (hw : w ∈ s.watchers) :
    Walk 256 s.sm.sent w.start w.items w.next ∧
      w.stream.Sublist ((s.sm.sent.drop w.start).map toProto) ∧
      ((∀ n, (.error n : Except ℕ AdapterStateEvent) ∉ w.items) →
        w.stream <+: (s.sm.sent.drop w.start).map toProto) := by
  obtain ⟨-, hwalk⟩ := (following_of_reach h).walks w hw
  refine ⟨hwalk, ?_, fun hok => ?_⟩
  · rw [stream_eq]
    exact hwalk.sublist.map toProto
  · rw [stream_eq]
    exact (hwalk.prefix_of_forall_ok hok).map toProto

/-- An adapter is created and watched, and makes a number of transitions before the watcher is read,
each at another time. -/
def transitionsUnread (n : ℕ) : List WatchAction :=
  [.operation ⟨0, 0⟩ (.write (.create ⟨"a", "img", "sum", .unknown, "job", none, none⟩)), .watch] ++
    (List.range n).map fun t => .operation ⟨t, t⟩ (.write (.transition "a" .downloading none))

/-- A watcher two events behind is sent the first of them. -/
theorem stream_transitionsUnread :
    ∃ s, Lts.run WatchState.step WatchState.init (transitionsUnread 2 ++ [.poll 0]) = some s ∧
      ∃ w ∈ s.watchers, Walk 256 s.sm.sent w.start w.items w.next ∧
        w.stream.Sublist ((s.sm.sent.drop w.start).map toProto) ∧
        ((∀ n, (.error n : Except ℕ AdapterStateEvent) ∉ w.items) →
          w.stream <+: (s.sm.sent.drop w.start).map toProto) := by
  have hrun : (Lts.run WatchState.step WatchState.init (transitionsUnread 2 ++ [.poll 0])).map
      (fun s => decide (0 < s.watchers.length)) = some true := by decide
  obtain ⟨s, hs, hd⟩ := Option.map_eq_some_iff.1 hrun
  have hw := List.getElem_mem (of_decide_eq_true hd)
  exact ⟨s, hs, _, hw, stream_of_reach (Lts.reach_of_run hs) hw⟩

/-- Each transition emits one event, and the watcher receives nothing meanwhile. -/
theorem run_transitionsUnread (n : ℕ) :
    ∃ s, Lts.run WatchState.step WatchState.init (transitionsUnread n) = some s ∧
      (s.sm.getAdapter "a").isSome = true ∧ s.watchers = [⟨0, 0, []⟩] ∧
      s.sm.sent.map AdapterStateEvent.timestamp = List.range n := by
  induction n with
  | zero => exact ⟨_, rfl, by decide, rfl, rfl⟩
  | succ n ih =>
      obtain ⟨s, hrun, hadapter, hwatchers, htimes⟩ := ih
      obtain ⟨entry, hentry⟩ := Option.isSome_iff_exists.1 hadapter
      have hconcat : transitionsUnread (n + 1) = transitionsUnread n ++
          [.operation ⟨n, n⟩ (.write (.transition "a" .downloading none))] := by
        rw [transitionsUnread, List.range_succ, List.map_append, ← List.append_assoc]
        rfl
      have hrun' := Lts.run_append WatchState.step (transitionsUnread n)
        [.operation ⟨n, n⟩ (.write (.transition "a" .downloading none))] WatchState.init
      rw [hrun, ← hconcat] at hrun'
      refine ⟨_, hrun', ?_, hwatchers, ?_⟩
      · simp [Operation.apply, Write.apply, StateManager.getAdapter_keepTransition, hentry]
      · simp [Operation.apply, Write.apply, StateManager.sent_keepTransition, hentry, htimes,
          StateManager.eventOf, List.range_succ]

/-- **A watcher 257 events behind misses the first of them**, and what it is sent next is the
second. -/
theorem lagged_watcher_misses_event :
    ¬ ∀ s, Lts.Reach WatchState.step WatchState.init s → ∀ w ∈ s.watchers,
      w.stream <+: (s.sm.sent.drop w.start).map toProto := by
  intro hall
  obtain ⟨s, hrun, -, hwatchers, htimes⟩ := run_transitionsUnread 257
  have hreach := Lts.reach_of_run hrun
  have hkeeps := (following_of_reach hreach).keeps
  have hlen : s.sm.sent.length = 257 := by simpa using congrArg List.length htimes
  have hdropped : s.ring.dropped = 1 := by rw [hkeeps.dropped_eq, hlen]; rfl
  match hsent : s.sm.sent, htimes, hlen with
  | first :: second :: rest, htimes, _ =>
      have hkept : s.ring.kept = second :: rest := by
        rw [hkeeps.kept_eq, hdropped, hsent]
        rfl
      -- the first read tells of the gap, the second one is of the event after it
      have hpoll : Watcher.poll s.ring ⟨0, 0, []⟩ = ⟨0, 1, [.error 1]⟩ := by
        simp [Watcher.poll, Ring.recv, hdropped, Broadcast.width]
      have hpoll' : Watcher.poll s.ring ⟨0, 1, [.error 1]⟩ = ⟨0, 2, [.error 1, .ok second]⟩ := by
        simp [Watcher.poll, Ring.recv, hdropped, hkept, Broadcast.width]
      have hread : Lts.run WatchState.step s [.poll 0, .poll 0] =
          some { s with watchers := [⟨0, 2, [.error 1, .ok second]⟩] } := by
        simp [Lts.run, WatchState.step, hwatchers, hpoll, hpoll']
      have hrun' := Lts.run_append WatchState.step (transitionsUnread 257) [.poll 0, .poll 0]
        WatchState.init
      rw [hrun, Option.bind_some, hread] at hrun'
      have hprefix := hall _ (Lts.reach_of_run hrun') _ (List.mem_singleton_self _)
      have hfirst : toProto second = toProto first := by
        rw [hsent] at hprefix
        exact (List.cons_prefix_cons.1 hprefix).1
      have hzero : some first.timestamp = some 0 := by
        rw [← List.getElem?_range (by omega : 0 < 257), ← htimes]
        rfl
      have hone : some second.timestamp = some 1 := by
        rw [← List.getElem?_range (by omega : 1 < 257), ← htimes]
        rfl
      have hclash : Int64.ofNat 1 = Int64.ofNat 0 := by
        rw [← Option.some.inj hzero, ← Option.some.inj hone]
        exact congrArg ProtoEvent.timestamp hfirst
      exact absurd hclash (by decide)

end UpdateService
