/-
**The main loop of the locking service.**

The loop takes the payloads of a subscription in order.  A task forwards the values of the stream to
a channel of 32 places; when the stream ends, the loop empties the channel and subscribes again, at
most three times without a payload in between.  The broker sends a signal's current value as the
first message of every subscription.

The loop keeps no record of what it has handled.  So a command that is still the current value when
the loop subscribes again is handled again, and one that was refused may be carried out.  Each value
is handled at most as often as the broker sends it: once, and once more for every time that the loop
subscribes again while it is the current value.

Main definitions:

* `LockingService.MainLoop`, `LockingService.LoopLabel`, `LockingService.loopStep` — the system;
* `LockingService.Handling` — a payload that was handled, with the number of its publication;
* `LockingService.MainLoop.HandledOnce` — every published value is handled at most once.

Main results:

* `LockingService.mainLoop_inv` — what is handled is what was sent, in order;
* `LockingService.handled_le_resumed` — how often a value is handled;
* `LockingService.refused_command_executed` — a refused command that is carried out later.
-/

import ParkingFeeService.LockingMetadata
import ParkingFeeService.Lts

set_option relaxedAutoImplicit false
set_option autoImplicit false

namespace LockingService

/-! ### The system -/

/-- Whether the loop runs, and why it ended. -/
inductive LoopStatus
  | running
  | subscriptionLost
  | resubscribeFailed
  | shutDown
  deriving DecidableEq, Repr

/-- A payload that was handled, with the number of its publication. -/
structure Handling where
  number : ℕ
  payload : String
  result : Handled

/-- The loop, its subscription and the broker's signal.  Publications are numbered by their place in
`published`; `handled`, `sent` and `resumed` are histories. -/
structure MainLoop where
  /-- The values published to the command signal, the current one last. -/
  published : List TypedValue
  /-- The broker still sends on the stream. -/
  connected : Bool
  /-- Publications sent on the stream that the forwarding task has not taken. -/
  wire : List ℕ
  /-- The forwarding task is running. -/
  forwarding : Bool
  /-- The channel from the forwarding task to the loop. -/
  inbox : List (ℕ × String)
  lockState : Bool
  resubscribeCount : ℕ
  status : LoopStatus
  /-- What the loop has handled. -/
  handled : List Handling
  /-- The publications that the broker has sent, on this stream and those before it. -/
  sent : List ℕ
  /-- The current publication at every resubscription. -/
  resumed : List ℕ

/-- The places of the channel. -/
def channelCapacity : ℕ := 32

def maxResubscribeAttempts : ℕ := 3

/-- The number of the current value, if the signal was ever given one. -/
def currentNumber (published : List TypedValue) : List ℕ :=
  if published = [] then [] else [published.length - 1]

/-- The loop when it starts, with the values published until then. -/
def MainLoop.start (published : List TypedValue) : MainLoop where
  published := published
  connected := true
  wire := currentNumber published
  forwarding := true
  inbox := []
  lockState := false
  resubscribeCount := 0
  status := .running
  handled := []
  sent := currentNumber published
  resumed := []

/-- What can happen next. -/
inductive LoopLabel
  /-- A value is published to the command signal. -/
  | publish (v : TypedValue)
  /-- The forwarding task takes a value off the stream. -/
  | forward
  /-- The broker stops sending. -/
  | disconnect
  /-- The forwarding task ends. -/
  | endStream
  /-- The loop handles a payload; the broker answers its calls. -/
  | recv (b : Broker)
  /-- The loop finds the channel closed; its call of `subscribe` succeeds or not. -/
  | resubscribe (ok : Bool)
  | shutdown

variable (serde : SerdeJson)

/-- A value is published. -/
def publish (s : MainLoop) (v : TypedValue) : MainLoop :=
  let s := { s with published := s.published ++ [v] }
  if s.connected then
    { s with
      wire := s.wire ++ currentNumber s.published
      sent := s.sent ++ currentNumber s.published }
  else s

/-- The forwarding task takes a value: one that is not a string is dropped, and a string waits for a
place in the channel. -/
def forward (s : MainLoop) : Option MainLoop :=
  match s.wire with
  | [] => none
  | n :: rest =>
      if s.forwarding then
        match s.published[n]? with
        | some (.string payload) =>
            if s.inbox.length < channelCapacity then
              some { s with wire := rest, inbox := s.inbox ++ [(n, payload)] }
            else none
        | _ => some { s with wire := rest }
      else none

/-- The stream ends, and with it the forwarding task. -/
def endStream (s : MainLoop) : MainLoop :=
  { s with connected := false, wire := [], forwarding := false }

/-- The loop handles the first payload of the channel. -/
def recv (b : Broker) (s : MainLoop) : Option MainLoop :=
  match s.inbox with
  | [] => none
  | (n, payload) :: rest =>
      let result := handleCommandPayload b serde payload s.lockState
      some { s with
        inbox := rest
        resubscribeCount := 0
        lockState := result.lockState
        handled := s.handled ++ [⟨n, payload, result⟩] }

/-- The channel is closed and empty: the loop subscribes again, unless it has tried too often. -/
def resubscribe (ok : Bool) (s : MainLoop) : Option MainLoop :=
  if s.inbox = [] ∧ s.forwarding = false then
    let s := { s with resubscribeCount := s.resubscribeCount + 1 }
    if s.resubscribeCount > maxResubscribeAttempts then some { s with status := .subscriptionLost }
    else if ok then
      -- the broker sends the current value first
      some { s with
        connected := true
        wire := currentNumber s.published
        forwarding := true
        sent := s.sent ++ currentNumber s.published
        resumed := s.resumed ++ currentNumber s.published }
    else some { s with status := .resubscribeFailed }
  else none

/-- One step of the system. -/
def loopStep (s : MainLoop) (l : LoopLabel) : Option MainLoop :=
  if s.status = .running then
    match l with
    | .publish v => some (publish s v)
    | .forward => forward s
    | .disconnect => some { s with connected := false }
    | .endStream => some (endStream s)
    | .recv b => recv serde b s
    | .resubscribe ok => resubscribe ok s
    -- the select is biased: a shutdown is noticed only while the loop waits for a payload
    | .shutdown =>
        if s.inbox = [] ∧ s.forwarding = true then some { s with status := .shutDown } else none
  else none

/-- Every published value is handled at most once. -/
def MainLoop.HandledOnce (s : MainLoop) : Prop :=
  ∀ n, (s.handled.map Handling.number).count n ≤ 1

/-! ### What is handled -/

/-- What the loop has handled, the channel holds and the stream carries was sent, in this order,
each value under its number; and the broker sends a value once, and again only for a new
subscription. -/
structure MainLoop.Inv (s : MainLoop) : Prop where
  sublist : (s.handled.map Handling.number ++ (s.inbox.map Prod.fst ++ s.wire)).Sublist s.sent
  handled : ∀ h ∈ s.handled, s.published[h.number]? = some (.string h.payload)
  inbox : ∀ e ∈ s.inbox, s.published[e.1]? = some (.string e.2)
  lt : ∀ n ∈ s.sent, n < s.published.length
  count : ∀ n, s.sent.count n ≤ 1 + s.resumed.count n

theorem currentNumber_concat (published : List TypedValue) (v : TypedValue) :
    currentNumber (published ++ [v]) = [published.length] := by
  simp [currentNumber]

theorem lt_of_mem_currentNumber {published : List TypedValue} {n : ℕ}
    (h : n ∈ currentNumber published) : n < published.length := by
  rw [currentNumber] at h
  split at h
  · cases h
  · next hne =>
      have hpos := List.length_pos_of_ne_nil hne
      rw [List.mem_singleton.1 h]
      omega

theorem count_currentNumber_le (published : List TypedValue) (n : ℕ) :
    (currentNumber published).count n ≤ 1 := by
  rw [currentNumber]
  split
  · simp
  · exact List.count_le_length

theorem getElem?_publish {published : List TypedValue} {n : ℕ} {payload : String}
    (h : published[n]? = some (.string payload)) (v : TypedValue) :
    (published ++ [v])[n]? = some (.string payload) := by
  obtain ⟨hn, -⟩ := List.getElem?_eq_some_iff.1 h
  rw [List.getElem?_append_left hn, h]

theorem start_inv (published : List TypedValue) : (MainLoop.start published).Inv where
  sublist := List.Sublist.refl _
  handled := by rintro h ⟨⟩
  inbox := by rintro e ⟨⟩
  lt := fun _ => lt_of_mem_currentNumber
  count := fun n => (count_currentNumber_le published n).trans (Nat.le_add_right _ _)

section Steps

variable {s s' : MainLoop}

theorem publish_inv (hs : s.Inv) (v : TypedValue) : (publish s v).Inv := by
  obtain ⟨hsublist, hhandled, hinbox, hlt, hcount⟩ := hs
  have hhandled' : ∀ h ∈ s.handled, (s.published ++ [v])[h.number]? = some (.string h.payload) :=
    fun h hh => getElem?_publish (hhandled h hh) v
  have hinbox' : ∀ e ∈ s.inbox, (s.published ++ [v])[e.1]? = some (.string e.2) :=
    fun e he => getElem?_publish (hinbox e he) v
  have hlt' : ∀ n ∈ s.sent, n < (s.published ++ [v]).length := fun n hn => by
    rw [List.length_append]
    exact Nat.lt_add_right _ (hlt n hn)
  cases hconn : s.connected with
  | false =>
      simp only [publish, hconn, Bool.false_eq_true, if_false]
      exact ⟨hsublist, hhandled', hinbox', hlt', hcount⟩
  | true =>
      simp only [publish, hconn, if_true, currentNumber_concat]
      refine ⟨?_, hhandled', hinbox', fun n hn => ?_, fun n => ?_⟩
      · rw [← List.append_assoc, ← List.append_assoc, List.append_assoc (s.handled.map _)]
        exact hsublist.append_right _
      · rcases List.mem_append.1 hn with hn | hn
        · exact hlt' n hn
        · simp [List.mem_singleton.1 hn]
      · -- a new number has not been sent before
        simp only [List.count_append]
        by_cases hn : n = s.published.length
        · have hnew : s.sent.count n = 0 :=
            List.count_eq_zero.2 fun hmem => absurd (hlt n hmem) (by omega)
          have hone : [s.published.length].count n ≤ 1 := List.count_le_length
          omega
        · rw [List.count_singleton, if_neg (by simpa using Ne.symm hn), Nat.add_zero]
          exact hcount n

theorem forward_inv (hs : s.Inv) (h : forward s = some s') : s'.Inv := by
  obtain ⟨hsublist, hhandled, hinbox, hlt, hcount⟩ := hs
  rw [forward] at h
  split at h
  · cases h
  · next n rest hwire =>
    rw [hwire] at hsublist
    split at h
    · split at h
      · next payload hpayload =>
        split at h
        · cases h
          refine ⟨?_, hhandled, ?_, hlt, hcount⟩
          · simpa using hsublist
          · intro e he
            rcases List.mem_append.1 he with he | he
            · exact hinbox e he
            · rw [List.mem_singleton.1 he]
              exact hpayload
        · cases h
      · -- a value that is not a string goes no further
        cases h
        refine ⟨List.Sublist.trans ?_ hsublist, hhandled, hinbox, hlt, hcount⟩
        exact ((List.Sublist.refl _).append ((List.Sublist.refl _).append
          (List.sublist_cons_self n rest)))
    · cases h

theorem endStream_inv (hs : s.Inv) : (endStream s).Inv := by
  obtain ⟨hsublist, hhandled, hinbox, hlt, hcount⟩ := hs
  refine ⟨List.Sublist.trans ?_ hsublist, hhandled, hinbox, hlt, hcount⟩
  exact (List.Sublist.refl _).append ((List.Sublist.refl _).append (List.nil_sublist _))

theorem recv_inv {b : Broker} (hs : s.Inv) (h : recv serde b s = some s') : s'.Inv := by
  obtain ⟨hsublist, hhandled, hinbox, hlt, hcount⟩ := hs
  rw [recv] at h
  split at h
  · cases h
  · next n payload rest hrest =>
    cases h
    rw [hrest] at hsublist hinbox
    refine ⟨?_, ?_, fun e he => hinbox e (List.mem_cons_of_mem _ he), hlt, hcount⟩
    · simpa using hsublist
    · intro g hg
      rcases List.mem_append.1 hg with hg | hg
      · exact hhandled g hg
      · rw [List.mem_singleton.1 hg]
        exact hinbox (n, payload) List.mem_cons_self

theorem resubscribe_inv {ok : Bool} (hs : s.Inv) (h : resubscribe ok s = some s') : s'.Inv := by
  obtain ⟨hsublist, hhandled, hinbox, hlt, hcount⟩ := hs
  rw [resubscribe] at h
  split at h
  · next hclosed =>
    simp only at h
    split at h
    · cases h
      exact ⟨hsublist, hhandled, hinbox, hlt, hcount⟩
    · split at h
      · cases h
        have hold : (s.handled.map Handling.number).Sublist s.sent :=
          (List.sublist_append_left _ _).trans hsublist
        refine ⟨?_, hhandled, hinbox, fun n hn => ?_, fun n => ?_⟩
        · rw [hclosed.1]
          exact hold.append (List.Sublist.refl _)
        · rcases List.mem_append.1 hn with hn | hn
          · exact hlt n hn
          · exact lt_of_mem_currentNumber hn
        · simp only [List.count_append]
          have hn := hcount n
          omega
      · cases h
        exact ⟨hsublist, hhandled, hinbox, hlt, hcount⟩
  · cases h

/-- What is sent is recorded, whatever happens next. -/
theorem loopStep_inv (s : MainLoop) (l : LoopLabel) (s' : MainLoop) (hs : s.Inv)
    (h : loopStep serde s l = some s') : s'.Inv := by
  unfold loopStep at h
  split at h
  · cases l with
    | publish v =>
        cases h
        exact publish_inv hs v
    | forward => exact forward_inv hs h
    | disconnect =>
        cases h
        exact ⟨hs.sublist, hs.handled, hs.inbox, hs.lt, hs.count⟩
    | endStream =>
        cases h
        exact endStream_inv hs
    | recv b => exact recv_inv serde hs h
    | resubscribe ok => exact resubscribe_inv hs h
    | shutdown =>
        simp only at h
        split at h
        · cases h
          exact ⟨hs.sublist, hs.handled, hs.inbox, hs.lt, hs.count⟩
        · cases h
  · cases h

end Steps

/-- In every state that is reached, what is handled is what was sent, in order. -/
theorem mainLoop_inv {published : List TypedValue} {s : MainLoop}
    (h : Lts.Reach (loopStep serde) (.start published) s) : s.Inv :=
  h.invariant (start_inv published) (loopStep_inv serde)

/-- **How often a value is handled**: what is handled is what the broker has sent, in order, and
that is every value at most once, and once more for each resubscription made while it was
current. -/
theorem handled_le_resumed {published : List TypedValue} {s : MainLoop}
    (h : Lts.Reach (loopStep serde) (.start published) s) :
    (∀ g ∈ s.handled, s.published[g.number]? = some (.string g.payload)) ∧
      (s.handled.map Handling.number).Sublist s.sent ∧
      ∀ n, (s.handled.map Handling.number).count n ≤ 1 + s.resumed.count n := by
  have hs := mainLoop_inv serde h
  have hsub : (s.handled.map Handling.number).Sublist s.sent :=
    (List.sublist_append_left _ _).trans hs.sublist
  exact ⟨hs.handled, hsub, fun n => (hsub.count_le n).trans (hs.count n)⟩

/-! ### A command that is handled twice -/

/-- A broker in which the vehicle stands, with the door open or not. -/
def standing (isOpen : Bool) : Broker where
  getValue := fun signal =>
    if signal = signalDoorOpen then .ok ⟨some ⟨some ⟨some (.bool isOpen)⟩⟩⟩ else .ok ⟨none⟩
  setBool := fun _ _ => true
  setString := fun _ => true
  unixSecs := 1700000000

/-- A lock command is refused while the door is open; the stream breaks, and the loop subscribes
again when the door has been closed. -/
def interruptedRun : List LoopLabel :=
  [.publish (.string lockPayload), .forward, .recv (standing true), .endStream, .resubscribe true,
    .forward, .recv (standing false)]

theorem handled_le_resumed_interrupted :
    ∃ s, Lts.run (loopStep serdeLock) (.start []) interruptedRun = some s ∧
      (∀ g ∈ s.handled, s.published[g.number]? = some (.string g.payload)) ∧
      (s.handled.map Handling.number).Sublist s.sent ∧
      ∀ n, (s.handled.map Handling.number).count n ≤ 1 + s.resumed.count n := by
  have hrun : (Lts.run (loopStep serdeLock) (.start []) interruptedRun).isSome = true := by
    decide +kernel
  obtain ⟨s, hs⟩ := Option.isSome_iff_exists.1 hrun
  exact ⟨s, hs, handled_le_resumed serdeLock (Lts.reach_of_run hs)⟩

/-- **A refused command is carried out later**, although it was published only once. -/
theorem refused_command_executed :
    ∃ s, Lts.Reach (loopStep serdeLock) (.start []) s ∧ s.published = [.string lockPayload] ∧
      s.handled.map (fun g => (g.number, g.result.response)) =
        [(0, some (failureResponse 1700000000 "cmd-1" "door_open")),
          (0, some (successResponse 1700000000 "cmd-1"))] ∧
      s.lockState = true ∧ ¬ s.HandledOnce := by
  have hrun : (Lts.run (loopStep serdeLock) (.start []) interruptedRun).map
      (fun s => (s.published, s.handled.map fun g => (g.number, g.result.response), s.lockState)) =
        some ([.string lockPayload], [(0, some (failureResponse 1700000000 "cmd-1" "door_open")),
          (0, some (successResponse 1700000000 "cmd-1"))], true) := by
    decide +kernel
  obtain ⟨s, hs, hfinal⟩ := Option.map_eq_some_iff.1 hrun
  obtain ⟨hpublished, hrest⟩ := Prod.mk.inj hfinal
  obtain ⟨hhandled, hlock⟩ := Prod.mk.inj hrest
  refine ⟨s, Lts.reach_of_run hs, hpublished, hhandled, hlock, fun honce => ?_⟩
  have hnumbers : s.handled.map Handling.number = [0, 0] := by
    have hfst := congrArg (List.map Prod.fst) hhandled
    simpa [Function.comp_def] using hfst
  have htwo := honce 0
  rw [hnumbers] at htwo
  exact absurd htwo (by decide)

end LockingService
