/-
**The history of the main loop.**

Every payload that the loop has handled was handled by the code for one payload, in the lock state
that the payloads before it left.  So what the loop has answered can be traced back: a response that
reports a success belongs to a valid command that was let through, and the lock state was then the
one that the command asks for.

The loop's side of the command signal is a subscription whose program is the loop.

Main definitions:

* `LockingService.MainLoop.answers` — the responses computed so far;
* `LockingService.Computed`, `LockingService.MainLoop.History` — how the payloads were handled;
* `LockingService.MainLoop.feed` — the loop as a subscriber.

Main results:

* `LockingService.executed_of_success` — what a success means;
* `LockingService.answered_of_commandId` — a payload with an id is answered once, with that id;
* `LockingService.MainLoop.History.step` — every step keeps the history;
* `LockingService.newest_command_handled` — **the newest command is not lost.**
-/

import ParkingFeeService.LockingMainLoop
import ParkingFeeService.LockingResponses
import ParkingFeeService.Subscription

set_option relaxedAutoImplicit false
set_option autoImplicit false

namespace LockingService

/-! ### What a step of the main loop leaves alone -/

variable {serde : SerdeJson} {s s' : MainLoop}

/-- Only a publication publishes. -/
theorem loopStep_published {l : LoopLabel} (h : loopStep serde s l = some s')
    (hl : ∀ v, l ≠ .publish v) : s'.published = s.published := by
  unfold loopStep at h
  split at h
  · cases l with
    | publish v => exact absurd rfl (hl v)
    | forward =>
        simp only [forward] at h
        split at h
        · cases h
        · split at h
          · split at h
            · split at h
              · cases h
                rfl
              · cases h
            · cases h
              rfl
          · cases h
    | disconnect | endStream =>
        cases h
        rfl
    | recv b =>
        simp only [recv] at h
        split at h
        · cases h
        · cases h
          rfl
    | resubscribe ok =>
        simp only [resubscribe] at h
        split at h
        · split at h
          · cases h
            rfl
          · split at h
            · cases h
              rfl
            · cases h
              rfl
        · cases h
    | shutdown =>
        simp only at h
        split at h
        · cases h
          rfl
        · cases h
  · cases h

/-- What a step handles: nothing, or the first payload of the channel, in the state that the loop
is in. -/
theorem loopStep_handled {l : LoopLabel} (h : loopStep serde s l = some s') :
    (s'.handled = s.handled ∧ s'.lockState = s.lockState) ∨
      ∃ b n payload, l = .recv b ∧
        s'.handled = s.handled ++ [⟨n, payload, handleCommandPayload b serde payload s.lockState⟩] ∧
        s'.lockState = (handleCommandPayload b serde payload s.lockState).lockState := by
  unfold loopStep at h
  split at h
  · cases l with
    | publish v =>
        cases h
        refine .inl ?_
        cases hconn : s.connected <;> simp [publish, hconn]
    | forward =>
        simp only [forward] at h
        split at h
        · cases h
        · split at h
          · split at h
            · split at h
              · cases h
                exact .inl ⟨rfl, rfl⟩
              · cases h
            · cases h
              exact .inl ⟨rfl, rfl⟩
          · cases h
    | disconnect | endStream =>
        cases h
        exact .inl ⟨rfl, rfl⟩
    | recv b =>
        simp only [recv] at h
        split at h
        · cases h
        · next n payload rest hinbox =>
            cases h
            exact .inr ⟨b, n, payload, rfl, rfl, rfl⟩
    | resubscribe ok =>
        simp only [resubscribe] at h
        split at h
        · split at h
          · cases h
            exact .inl ⟨rfl, rfl⟩
          · split at h
            · cases h
              exact .inl ⟨rfl, rfl⟩
            · cases h
              exact .inl ⟨rfl, rfl⟩
        · cases h
    | shutdown =>
        simp only at h
        split at h
        · cases h
          exact .inl ⟨rfl, rfl⟩
        · cases h
  · cases h

/-- The responses that the loop has computed, the oldest first. -/
def MainLoop.answers (s : MainLoop) : List CommandResponse :=
  s.handled.flatMap fun g => responses g.result.calls

/-- What the loop has handled since an earlier state. -/
def MainLoop.handledSince (s before : MainLoop) : List Handling :=
  s.handled.drop before.handled.length

/-- The response that a call leaves in the broker: that of a write that succeeds, and that of one
that fails late. -/
def Call.effective (late : Bool) : Call → Option CommandResponse
  | .setString signal response ok =>
      if signal = signalResponse ∧ (ok = true ∨ late = true) then some response else none
  | _ => none

/-- A response that is left in the broker was computed. -/
theorem Call.effective_le {late : Bool} {c : Call} {r : CommandResponse}
    (h : c.effective late = some r) : c.response = some r := by
  cases c with
  | getValue signal => cases h
  | setBool signal value ok => cases h
  | setString signal response ok =>
      simp only [Call.effective] at h
      split at h
      · next hsignal => simpa [Call.response, hsignal.1] using h
      · cases h

theorem effective_sublist (late : Bool) (calls : List Call) :
    (calls.filterMap (Call.effective late)).Sublist (responses calls) := by
  induction calls with
  | nil => exact List.Sublist.refl _
  | cons c calls ih =>
      rw [responses, List.filterMap_cons, List.filterMap_cons]
      cases heff : c.effective late with
      | none =>
          cases c.response with
          | none => exact ih
          | some r => exact ih.cons r
      | some r =>
          rw [Call.effective_le heff]
          exact ih.cons_cons r

theorem published_publish (s : MainLoop) (v : TypedValue) :
    (publish s v).published = s.published ++ [v] := by
  cases hconn : s.connected <;> simp [publish, hconn]

theorem handled_publish (s : MainLoop) (v : TypedValue) :
    (publish s v).handled = s.handled := by
  cases hconn : s.connected <;> simp [publish, hconn]

theorem lockState_publish (s : MainLoop) (v : TypedValue) :
    (publish s v).lockState = s.lockState := by
  cases hconn : s.connected <;> simp [publish, hconn]

/-- A step adds to what was handled. -/
theorem loopStep_handledSince {l : LoopLabel} (h : loopStep serde s l = some s') :
    s'.handled = s.handled ++ s'.handledSince s := by
  rw [MainLoop.handledSince]
  rcases loopStep_handled h with ⟨heq, -⟩ | ⟨b, n, payload, -, heq, -⟩
  · simp [heq]
  · simp [heq]

/-! ### What was computed -/

theorem responses_processCommand_eq (b : Broker) (cmd : LockCommand) (lockState : Bool) :
    responses (processCommand b cmd lockState).calls =
      [(processCommand b cmd lockState).response] := by
  cases haction : cmd.action with
  | lock =>
      obtain ⟨hnone, -⟩ := processLock_answers b cmd lockState
      simp only [processCommand, haction, responses_append, hnone]
      rfl
  | unlock =>
      simp only [processCommand, haction, processUnlock, responses_append, responses_moveLock]
      rfl

theorem handleCommandPayload_of_valid {serde : SerdeJson} {payload : String} {cmd : LockCommand}
    (b : Broker) (lockState : Bool) (hparse : parseCommand serde payload = .ok cmd)
    (hvalid : validateCommand cmd = .ok ()) :
    handleCommandPayload b serde payload lockState =
      ⟨some (processCommand b cmd lockState).response, (processCommand b cmd lockState).lockState,
        (processCommand b cmd lockState).calls⟩ := by
  simp only [handleCommandPayload, hparse, hvalid]

/-- A payload was handled, in some lock state and with some broker, with this result. -/
def Computed (serde : SerdeJson) (payload : String) (result : Handled) : Prop :=
  ∃ b lockState, result = handleCommandPayload b serde payload lockState

/-- **What a success means:** the payload is a valid command with the id of the response, a lock
command was let through, and the lock state is the one that the command asks for. -/
theorem executed_of_success {serde : SerdeJson} {b : Broker} {payload : String} {lockState : Bool}
    {r : CommandResponse}
    (hr : r ∈ responses (handleCommandPayload b serde payload lockState).calls)
    (hsuccess : r.status = "success") :
    ∃ cmd, parseCommand serde payload = .ok cmd ∧ validateCommand cmd = .ok () ∧
      cmd.commandId = r.commandId ∧ (cmd.action = .lock → (checkSafety b).1 = .safe) ∧
      (handleCommandPayload b serde payload lockState).lockState = cmd.action.target := by
  have hfailed : ∀ id reason, r ∈ responses (answerOnly b lockState
      (failureResponse b.unixSecs id reason)).calls → False := by
    intro id reason hmem
    rw [responses_answerOnly, List.mem_singleton] at hmem
    rw [hmem, failureResponse_status] at hsuccess
    exact absurd hsuccess (by decide)
  cases hparse : parseCommand serde payload with
  | error e =>
      rw [handleCommandPayload, hparse] at hr
      cases e with
      | invalidJson msg => cases hr
      | invalidCommand msg | unsupportedDoor msg =>
          simp only at hr
          split at hr
          · exact (hfailed _ _ hr).elim
          · cases hr
  | ok cmd =>
      cases hvalid : validateCommand cmd with
      | error e =>
          simp only [handleCommandPayload, hparse, hvalid] at hr
          exact (hfailed _ _ hr).elim
      | ok u =>
          rw [handleCommandPayload_of_valid b lockState hparse hvalid] at hr ⊢
          rw [responses_processCommand_eq, List.mem_singleton] at hr
          subst hr
          by_cases hallowed : cmd.action = .lock → (checkSafety b).1 = .safe
          · obtain ⟨hstate, -, -⟩ := processCommand_of_allowed lockState lockState hallowed
            obtain ⟨r, hone, hanswers⟩ := responses_processCommand b cmd lockState
            rw [responses_processCommand_eq, List.cons.injEq] at hone
            refine ⟨cmd, rfl, hvalid, ?_, hallowed, hstate⟩
            rw [hone.1, hanswers.1]
          · -- a command that is refused fails
            obtain ⟨hlock, hunsafe⟩ := Classical.not_imp.1 hallowed
            obtain ⟨-, hstatus, -⟩ := processCommand_of_refused lockState lockState hlock hunsafe
            rw [hstatus] at hsuccess
            exact absurd hsuccess (by decide)

/-- A payload with an id is answered once, with that id, unless the parser gives up at its action.
-/
theorem answered_of_commandId {serde : SerdeJson} (hserde : serde.Lawful) (b : Broker)
    {payload commandId : String} (lockState : Bool) {fields : List (String × Json)}
    (hvalue : serde.value payload = .ok (.obj fields))
    (hstops : ¬ StopsAtAction fields)
    (hget : Json.get fields "command_id" = some (.str commandId)) (hne : commandId ≠ "") :
    ∃ r, responses (handleCommandPayload b serde payload lockState).calls = [r] ∧
      r.Answers commandId := by
  cases hcmd : deserializeLockCommand fields with
  | error e =>
      have hid : extractedId fields = some commandId := extractedId_eq_some_iff.2 ⟨hget, hne⟩
      rw [handle_of_no_command hserde b lockState hvalue hcmd hstops, rejectObject, hid]
      exact ⟨_, responses_answerOnly _ _ _, failureResponse_answers _ _ _⟩
  | ok cmd =>
      rw [handle_of_command hserde b lockState hvalue hcmd]
      have hsame : commandId = cmd.commandId := by
        have hread := hget.symm.trans (get_commandId_of_ok hcmd)
        simpa using hread
      rw [hsame]
      exact responses_handleCommand b lockState cmd

/-- Everything that the loop has handled was computed by the code for one payload, and the lock
state is the one that the last payload has left. -/
structure MainLoop.History (serde : SerdeJson) (s : MainLoop) : Prop where
  computed : ∀ g ∈ s.handled, Computed serde g.payload g.result
  lockState : s.lockState = (s.handled.getLast?.map fun g => g.result.lockState).getD false

theorem start_history (published : List TypedValue) :
    (MainLoop.start published).History serde where
  computed := by rintro g ⟨⟩
  lockState := rfl

/-- Every step of the loop keeps its history. -/
theorem MainLoop.History.step {l : LoopLabel} (hs : s.History serde)
    (h : loopStep serde s l = some s') : s'.History serde := by
  rcases loopStep_handled h with ⟨heq, hstate⟩ | ⟨b, n, payload, -, heq, hstate⟩
  · refine ⟨?_, ?_⟩
    · rw [heq]
      exact hs.computed
    · rw [heq, hstate]
      exact hs.lockState
  · refine ⟨?_, ?_⟩
    · rw [heq]
      intro g hg
      rcases List.mem_append.1 hg with hg | hg
      · exact hs.computed g hg
      · rw [List.mem_singleton.1 hg]
        exact ⟨b, s.lockState, rfl⟩
    · rw [heq, hstate, List.getLast?_concat]
      rfl

theorem MainLoop.History.publish (hs : s.History serde) (v : TypedValue) :
    (publish s v).History serde := by
  refine ⟨?_, ?_⟩
  · rw [handled_publish]
    exact hs.computed
  · rw [handled_publish, lockState_publish]
    exact hs.lockState

/-! ### The loop as a subscriber -/

/-- The string of a value; the forwarding task drops values of other types. -/
def readString : TypedValue → Option String
  | .string v => some v
  | _ => none

/-- The loop's subscription to the command signal, after so many subscriptions. -/
def MainLoop.feed (s : MainLoop) (subscriptions : ℕ) : Subscription TypedValue String where
  published := s.published
  subscriptions := subscriptions
  connected := s.connected
  wire := s.wire.filterMap fun n => s.published[n]?
  forwarding := s.forwarding
  inbox := s.inbox.map Prod.snd
  sent := s.sent.filterMap fun n => s.published[n]?
  received := s.handled.map Handling.payload

/-- The value under the current number is the current one. -/
theorem filterMap_currentNumber (published : List TypedValue) :
    (currentNumber published).filterMap (fun n => published[n]?) =
      published.getLast?.toList := by
  rw [currentNumber]
  split
  · next hnil => simp [hnil]
  · rw [List.filterMap_cons, List.filterMap_nil, ← List.getLast?_eq_getElem?]
    cases published.getLast? <;> rfl

/-- Numbers that were given before a publication stand for the same values after it. -/
theorem filterMap_publish {published : List TypedValue} {ns : List ℕ}
    (h : ∀ n ∈ ns, n < published.length) (v : TypedValue) :
    ns.filterMap (fun n => (published ++ [v])[n]?) = ns.filterMap fun n => published[n]? :=
  List.filterMap_congr fun n hn => List.getElem?_append_left (h n hn)

/-- A publication is one of the subscription. -/
theorem feed_publish (hs : s.Inv) (v : TypedValue) (k : ℕ) :
    (publish s v).feed k = (s.feed k).publish v := by
  have hsent := filterMap_publish hs.lt v
  have hlt : ∀ n ∈ s.wire, n < s.published.length := fun n hn =>
    hs.lt n (hs.sublist.subset (List.mem_append.2 (.inr (List.mem_append.2 (.inr hn)))))
  have hwire := filterMap_publish hlt v
  have hnew : (currentNumber (s.published ++ [v])).filterMap
      (fun n => (s.published ++ [v])[n]?) = [v] := by
    rw [filterMap_currentNumber, List.getLast?_concat]
    rfl
  cases hconn : s.connected with
  | false => simp [publish, MainLoop.feed, Subscription.publish, hconn, hsent, hwire]
  | true =>
      simp [publish, MainLoop.feed, Subscription.publish, hconn, hsent, hwire, hnew]

/-- The forwarding task forwards a string and drops any other value. -/
theorem feed_forward (hs : s.Inv) (h : forward s = some s') (k : ℕ) :
    (s.feed k).forward readString channelCapacity = some (s'.feed k) := by
  rw [forward] at h
  split at h
  · cases h
  · next n rest hwire =>
    have hlt : n < s.published.length := by
      refine hs.lt n (hs.sublist.subset (List.mem_append.2 (.inr (List.mem_append.2 (.inr ?_)))))
      rw [hwire]
      exact List.mem_cons_self
    obtain ⟨v, hv⟩ : ∃ v, s.published[n]? = some v := ⟨_, List.getElem?_eq_getElem hlt⟩
    have hfeed : (s.feed k).wire = v :: rest.filterMap fun n => s.published[n]? := by
      simp [MainLoop.feed, hwire, hv]
    split at h
    · next hforwarding =>
      rw [hv] at h
      split at h
      · next payload heq =>
        cases heq
        split at h
        · next hroom =>
          cases h
          have hroom' : (s.feed k).inbox.length < channelCapacity := by
            simpa [MainLoop.feed] using hroom
          have hrunning : (s.feed k).forwarding = true := hforwarding
          simp only [Subscription.forward, hfeed, hrunning, if_true, readString, hroom']
          simp [MainLoop.feed, hforwarding]
        · cases h
      · next hnot =>
        cases h
        have hread : readString v = none := by
          cases v with
          | string payload => exact absurd rfl (hnot payload)
          | _ => rfl
        have hrunning : (s.feed k).forwarding = true := hforwarding
        simp only [Subscription.forward, hfeed, hrunning, if_true, hread]
        simp [MainLoop.feed, hforwarding]
    · cases h

/-- Every step of the loop is one of the subscription, or none. -/
theorem feed_step {l : LoopLabel} {k : ℕ} (hs : s.Inv) (hfeed : (s.feed k).Inv readString)
    (h : loopStep serde s l = some s') : ∃ k', (s'.feed k').Inv readString := by
  unfold loopStep at h
  split at h
  · cases l with
    | publish v =>
        cases h
        exact ⟨k, feed_publish hs v k ▸ hfeed.publish v⟩
    | forward => exact ⟨k, hfeed.forward (feed_forward hs h k)⟩
    | disconnect =>
        cases h
        exact ⟨k, hfeed.disconnect⟩
    | endStream =>
        cases h
        exact ⟨k, hfeed.endStream⟩
    | recv b =>
        simp only [recv] at h
        split at h
        · cases h
        · next n payload rest hinbox =>
          cases h
          refine ⟨k, hfeed.take (w := payload)
            (Subscription.take_eq_some_iff.2 ⟨rest.map Prod.snd, ?_, ?_⟩)⟩
          · simp [MainLoop.feed, hinbox]
          · simp [MainLoop.feed]
    | resubscribe ok =>
        simp only [resubscribe] at h
        split at h
        · next hclosed =>
          split at h
          · cases h
            exact ⟨k, hfeed⟩
          · split at h
            · cases h
              have hclosed' : (s.feed k).inbox = [] ∧ (s.feed k).forwarding = false := by
                simpa [MainLoop.feed] using hclosed
              refine ⟨k + 1, hfeed.subscribe ?_⟩
              rw [Subscription.subscribe, if_pos hclosed']
              simp [MainLoop.feed, filterMap_currentNumber]
            · cases h
              exact ⟨k, hfeed⟩
        · cases h
    | shutdown =>
        simp only at h
        split at h
        · cases h
          exact ⟨k, hfeed⟩
        · cases h
  · cases h

/-- The loop's side of the command signal is a subscription. -/
theorem feed_of_reach {serde : SerdeJson} {published : List TypedValue} {s : MainLoop}
    (h : Lts.Reach (loopStep serde) (.start published) s) :
    s.Inv ∧ ∃ k, (s.feed k).Inv readString := by
  refine h.invariant (I := fun s => s.Inv ∧ ∃ k, (s.feed k).Inv readString) ?_ ?_
  · -- the loop starts with its first subscription made
    have hsub : (Subscription.start published : Subscription TypedValue String).subscribe =
        some ((MainLoop.start published).feed 1) := by
      rw [Subscription.subscribe, if_pos ⟨rfl, rfl⟩]
      simp [MainLoop.feed, MainLoop.start, Subscription.start, filterMap_currentNumber]
    exact ⟨start_inv published, 1, (Subscription.inv_start published).subscribe hsub⟩
  · rintro s l s' ⟨hs, k, hfeed⟩ hstep
    exact ⟨loopStep_inv serde s l s' hs hstep, feed_step hs hfeed hstep⟩

/-- **The newest command is not lost:** once everything that the broker has sent on a stream that is
up has been handled, the last payload that was handled is the current value of the command signal.
-/
theorem newest_command_handled {serde : SerdeJson} {published : List TypedValue} {s : MainLoop}
    (h : Lts.Reach (loopStep serde) (.start published) s) (hup : s.connected = true)
    (hwire : s.wire = []) (hinbox : s.inbox = []) {payload : String}
    (hcurrent : s.published.getLast? = some (.string payload)) :
    (s.handled.map Handling.payload).getLast? = some payload := by
  obtain ⟨-, k, hfeed⟩ := feed_of_reach h
  refine hfeed.last_received hup ?_ ?_ hcurrent rfl
  · simp [MainLoop.feed, hwire]
  · simp [MainLoop.feed, hinbox]

theorem newest_command_handled_lock :
    ∃ s, Lts.run (loopStep serdeLock) (.start [])
        [.publish (.string "x"), .publish (.string lockPayload), .forward, .forward,
          .recv (standing false), .recv (standing false)] = some s ∧
      (s.handled.map Handling.payload).getLast? = some lockPayload := by
  have hrun : (Lts.run (loopStep serdeLock) (.start [])
      [.publish (.string "x"), .publish (.string lockPayload), .forward, .forward,
        .recv (standing false), .recv (standing false)]).map (fun s =>
      (s.connected, s.wire, s.inbox, s.published.getLast?)) =
        some (true, [], [], some (.string lockPayload)) := by
    decide +kernel
  obtain ⟨s, hs, hfinal⟩ := Option.map_eq_some_iff.1 hrun
  simp only [Prod.mk.injEq] at hfinal
  obtain ⟨hup, hwire, hinbox, hcurrent⟩ := hfinal
  exact ⟨s, hs, newest_command_handled (Lts.reach_of_run hs) hup hwire hinbox hcurrent⟩

end LockingService
