/-
**The vehicle as the cloud sees it.**

The gateway client, the data broker and the locking service of one vehicle run side by side.  The
client takes messages off its NATS subscription and writes the commands it accepts to the broker;
the locking service handles them and writes its responses; the client relays these to NATS.
Messages may be lost on the way, writes and publications may fail, streams may break, and a write
may take effect although its call fails.

Nobody else writes the command signal and the response signal.

Main definitions:

* `RemoteCommand.VehicleJson` — what the JSON library of the vehicle reads and writes;
* `RemoteCommand.Vehicle`, `RemoteCommand.VehicleLabel`, `RemoteCommand.Vehicle.step` — the system;
* `RemoteCommand.Vehicle.Inv` — the invariant.

Main results:

* `RemoteCommand.Vehicle.inv_of_reach` — the invariant holds in every state that is reached;
* `RemoteCommand.handled_commands_authentic` — **whatever the locking service handles came with the
  bearer token**;
* `RemoteCommand.relayed_responses_genuine` — **whatever is relayed is a response of the locking
  service.**
-/

import ParkingFeeService.LockingHistory
import ParkingFeeService.VehicleClient

set_option relaxedAutoImplicit false
set_option autoImplicit false

namespace RemoteCommand

open CloudGatewayClient
open LockingService (SerdeJson MainLoop LoopLabel TypedValue Handling loopStep responses)

/-! ### The system -/

/-- What `serde_json` reads and writes: the readings of the locking service, that of a slice, and
the text of a response. -/
structure VehicleJson where
  serde : SerdeJson
  fromSlice : ByteArray → Option Json
  toText : LockingService.CommandResponse → String

/-- The places of the client's channels. -/
def channelCapacity : ℕ := 32

/-- The client, the broker's two signals and the locking service.  `heard`, `taken`, `written` and
`relayed` are histories. -/
structure Vehicle where
  /-- The client has subscribed to its commands. -/
  listening : Bool
  /-- Messages of the command subscription that the client has not taken. -/
  commands : List Message
  /-- The locking service, with the command signal. -/
  loop : MainLoop
  /-- The response signal, and the client's subscription to it. -/
  responses : Subscription TypedValue String
  /-- The messages delivered to the command subscription. -/
  heard : List Message
  /-- The messages that the client has taken. -/
  taken : List Message
  /-- The messages whose payload was written to the command signal. -/
  written : List Message
  /-- The texts published as responses. -/
  relayed : List String

/-- The vehicle before the client has subscribed to anything. -/
def Vehicle.start : Vehicle where
  listening := false
  commands := []
  loop := .start []
  responses := .start []
  heard := []
  taken := []
  written := []
  relayed := []

/-- What can happen next in the vehicle. -/
inductive VehicleLabel
  /-- A message is delivered to the command subscription. -/
  | hear (msg : Message)
  /-- A message of the command subscription is lost. -/
  | lose (k : ℕ)
  /-- The client subscribes to the responses. -/
  | subscribeResponses
  /-- The client subscribes to its commands. -/
  | subscribeCommands
  /-- The client handles a message; the broker takes what it writes, or does not. -/
  | command (taken : Bool)
  /-- The locking service takes a step; a write that fails takes effect all the same, or does
  not. -/
  | locking (l : LoopLabel) (late : Bool)
  /-- Something happens on the stream of responses. -/
  | stream (m : Subscription.Move)
  /-- The client relays a response; NATS takes it, or does not. -/
  | relay (sent : Bool)

/-- The text of a payload. -/
def text (msg : Message) : String := (String.fromUTF8? msg.payload).getD ""

variable (json : VehicleJson) (cfg : Config)

namespace Vehicle

/-- A message is delivered to those who listen. -/
def hear (v : Vehicle) (msg : Message) : Vehicle :=
  if v.listening then { v with commands := v.commands ++ [msg], heard := v.heard ++ [msg] } else v

/-- The client handles a message of the command subscription. -/
def command (v : Vehicle) (taken : Bool) : Option Vehicle :=
  match v.commands with
  | [] => none
  | msg :: rest =>
      let v := { v with commands := rest, taken := v.taken ++ [msg] }
      match acceptCommand json.fromSlice cfg.bearerToken msg with
      | .error _ => some v
      | .ok payload =>
          if taken then
            some { v with
              loop := LockingService.publish v.loop (.string payload)
              written := v.written ++ [msg] }
          else some v

/-- The locking service takes a step, and its responses go to the broker.  The command signal is
written by the client alone. -/
def locking (v : Vehicle) (l : LoopLabel) (late : Bool) : Option Vehicle :=
  match l with
  | .publish _ => none
  | l =>
      (loopStep json.serde v.loop l).map fun loop =>
        let answers := (loop.handledSince v.loop).flatMap fun g =>
          g.result.calls.filterMap (LockingService.Call.effective late)
        { v with
          loop := loop
          responses := v.responses.publishAll (answers.map fun r => .string (json.toText r)) }

/-- The client relays the next response; one that is no JSON is skipped. -/
def relay (v : Vehicle) (sent : Bool) : Option (Vehicle × List Message) :=
  match v.responses.take with
  | none => none
  | some (responseJson, rest) =>
      let v := { v with responses := rest }
      match relayResponse (fun s => (json.serde.value s).toOption) cfg.vin responseJson with
      | none => some (v, [])
      | some msg =>
          if sent then some ({ v with relayed := v.relayed ++ [responseJson] }, [msg])
          else some (v, [])

/-- One step of the vehicle, with the messages that it publishes. -/
def step (v : Vehicle) : VehicleLabel → Option (Vehicle × List Message)
  | .hear msg => some (v.hear msg, [])
  | .lose k => some ({ v with commands := v.commands.eraseIdx k }, [])
  | .subscribeResponses =>
      -- there is one subscription, which is not made again
      if v.responses.subscriptions = 0 then
        v.responses.subscribe.map fun responses => ({ v with responses := responses }, [])
      else none
  | .subscribeCommands =>
      if v.responses.subscriptions = 1 ∧ v.listening = false then
        some ({ v with listening := true }, [])
      else none
  | .command taken => (v.command json cfg taken).map fun v => (v, [])
  | .locking l late => (v.locking json l late).map fun v => (v, [])
  | .stream m =>
      if m = .subscribe then none
      else (v.responses.move readString channelCapacity m).map fun responses =>
        ({ v with responses := responses }, [])
  | .relay sent => v.relay json cfg sent

/-- The vehicle after a step. -/
def next (v : Vehicle) (l : VehicleLabel) : Option Vehicle := (v.step json cfg l).map Prod.fst

/-! ### The invariant -/

/-- The client takes and writes messages in the order in which they were heard, and writes only what
it accepts; the command signal holds what was written; every response in the broker was computed for
a payload that was handled; and every response that was relayed was taken from the broker. -/
structure Inv (v : Vehicle) : Prop where
  heard : (v.taken ++ v.commands).Sublist v.heard
  written : v.written.Sublist v.taken
  accepted : ∀ msg ∈ v.written,
    acceptCommand json.fromSlice cfg.bearerToken msg = .ok (text msg)
  published : v.loop.published = v.written.map fun msg => .string (text msg)
  loop : v.loop.Inv
  history : v.loop.History json.serde
  responses : v.responses.Inv readString
  once : v.responses.subscriptions ≤ 1
  answers : v.responses.published.Sublist
    (v.loop.answers.map fun r => .string (json.toText r))
  relayed : v.relayed.Sublist v.responses.received

variable {json cfg} {v v' : Vehicle}

theorem inv_start : Vehicle.start.Inv json cfg where
  heard := List.Sublist.refl _
  written := List.Sublist.refl _
  accepted := by rintro msg ⟨⟩
  published := rfl
  loop := LockingService.start_inv []
  history := LockingService.start_history []
  responses := Subscription.inv_start []
  once := Nat.zero_le _
  answers := List.Sublist.refl _
  relayed := List.Sublist.refl _

theorem Inv.hear (h : v.Inv json cfg) (msg : Message) : (v.hear msg).Inv json cfg := by
  cases hlisten : v.listening with
  | false =>
      simp only [Vehicle.hear, hlisten, Bool.false_eq_true, if_false]
      exact ⟨h.heard, h.written, h.accepted, h.published, h.loop, h.history, h.responses, h.once,
        h.answers, h.relayed⟩
  | true =>
      simp only [Vehicle.hear, hlisten, if_true]
      refine ⟨?_, h.written, h.accepted, h.published, h.loop, h.history, h.responses, h.once,
        h.answers, h.relayed⟩
      rw [← List.append_assoc]
      exact h.heard.append_right _

theorem Inv.lose (h : v.Inv json cfg) (k : ℕ) :
    Vehicle.Inv json cfg { v with commands := v.commands.eraseIdx k } where
  heard := ((List.Sublist.refl _).append (List.eraseIdx_sublist ..)).trans h.heard
  written := h.written
  accepted := h.accepted
  published := h.published
  loop := h.loop
  history := h.history
  responses := h.responses
  once := h.once
  answers := h.answers
  relayed := h.relayed

/-- The text that is accepted is that of the message. -/
theorem text_of_accepted {fromSlice : ByteArray → Option Json} {token payload : String}
    {msg : Message} (h : acceptCommand fromSlice token msg = .ok payload) : text msg = payload := by
  obtain ⟨-, -, hpayload⟩ := acceptCommand_eq_ok_iff.1 h
  rw [text, fromUTF8?_eq_some_iff.2 hpayload]
  rfl

theorem Inv.command {taken : Bool} (h : v.Inv json cfg)
    (hs : v.command json cfg taken = some v') : v'.Inv json cfg := by
  obtain ⟨hheard, hwritten, haccepted, hpublished, hloop, hhistory, hresponses, honce, hanswers,
    hrelayed⟩ := h
  unfold Vehicle.command at hs
  split at hs
  · cases hs
  · next msg rest hcommands =>
    have hheard' : (v.taken ++ [msg] ++ rest).Sublist v.heard := by
      rw [List.append_assoc, List.singleton_append, ← hcommands]
      exact hheard
    have hwritten' : v.written.Sublist (v.taken ++ [msg]) :=
      hwritten.trans (List.sublist_append_left _ _)
    split at hs
    · cases hs
      exact ⟨hheard', hwritten', haccepted, hpublished, hloop, hhistory, hresponses, honce,
        hanswers, hrelayed⟩
    · next payload hpayload =>
      have htext := text_of_accepted hpayload
      split at hs
      · cases hs
        refine ⟨hheard', hwritten.append_right _, fun m hm => ?_, ?_,
          LockingService.publish_inv hloop _, hhistory.publish _, hresponses, honce, ?_, hrelayed⟩
        · rcases List.mem_append.1 hm with hm | hm
          · exact haccepted m hm
          · rw [List.mem_singleton.1 hm, htext]
            exact hpayload
        · rw [LockingService.published_publish, hpublished, List.map_append, List.map_singleton,
            htext]
        · rw [MainLoop.answers, LockingService.handled_publish]
          exact hanswers
      · cases hs
        exact ⟨hheard', hwritten', haccepted, hpublished, hloop, hhistory, hresponses, honce,
          hanswers, hrelayed⟩

/-- The step of the main loop that a step of the locking service is. -/
theorem locking_eq_some {l : LoopLabel} {late : Bool} (hs : v.locking json l late = some v') :
    (∀ value, l ≠ .publish value) ∧ ∃ loop, loopStep json.serde v.loop l = some loop ∧
      v' = { v with
        loop := loop
        responses := v.responses.publishAll (((loop.handledSince v.loop).flatMap fun g =>
          g.result.calls.filterMap (LockingService.Call.effective late)).map
            fun r => .string (json.toText r)) } := by
  unfold Vehicle.locking at hs
  split at hs
  · cases hs
  · next l' hl =>
    obtain ⟨loop, hloop, rfl⟩ := Option.map_eq_some_iff.1 hs
    exact ⟨hl, loop, hloop, rfl⟩

theorem Inv.locking {l : LoopLabel} {late : Bool} (h : v.Inv json cfg)
    (hs : v.locking json l late = some v') : v'.Inv json cfg := by
  obtain ⟨hl, loop, hloop, rfl⟩ := locking_eq_some hs
  refine ⟨h.heard, h.written, h.accepted, ?_, LockingService.loopStep_inv _ _ _ _ h.loop hloop,
    h.history.step hloop, h.responses.publishAll _, ?_, ?_, ?_⟩
  · exact (LockingService.loopStep_published hloop hl).trans h.published
  · rw [Subscription.subscriptions_publishAll]
    exact h.once
  · -- the new responses are among those computed for what was handled in this step
    rw [Subscription.published_publishAll, MainLoop.answers,
      LockingService.loopStep_handledSince hloop, List.flatMap_append, List.map_append]
    refine h.answers.append (List.Sublist.map _ ?_)
    exact List.Sublist.flatMap_right _ fun g _ =>
      LockingService.effective_sublist late g.result.calls
  · rw [Subscription.received_publishAll]
    exact h.relayed

theorem Inv.relay {sent : Bool} {out : List Message} (h : v.Inv json cfg)
    (hs : v.relay json cfg sent = some (v', out)) : v'.Inv json cfg := by
  obtain ⟨hheard, hwritten, haccepted, hpublished, hloop, hhistory, hresponses, honce, hanswers,
    hrelayed⟩ := h
  unfold Vehicle.relay at hs
  split at hs
  · cases hs
  · next responseJson rest htake =>
    have hresponses' := hresponses.take htake
    obtain ⟨more, -, rfl⟩ := Subscription.take_eq_some_iff.1 htake
    have hskipped : v.relayed.Sublist (v.responses.received ++ [responseJson]) :=
      hrelayed.trans (List.sublist_append_left _ _)
    split at hs
    · cases hs
      exact ⟨hheard, hwritten, haccepted, hpublished, hloop, hhistory, hresponses', honce,
        hanswers, hskipped⟩
    · split at hs
      · cases hs
        exact ⟨hheard, hwritten, haccepted, hpublished, hloop, hhistory, hresponses', honce,
          hanswers, hrelayed.append_right _⟩
      · cases hs
        exact ⟨hheard, hwritten, haccepted, hpublished, hloop, hhistory, hresponses', honce,
          hanswers, hskipped⟩

/-- **Every step of the vehicle keeps the invariant.** -/
theorem Inv.step {l : VehicleLabel} {out : List Message} (h : v.Inv json cfg)
    (hs : v.step json cfg l = some (v', out)) : v'.Inv json cfg := by
  cases l with
  | hear msg =>
      cases hs
      exact h.hear msg
  | lose k =>
      cases hs
      exact h.lose k
  | subscribeResponses =>
      simp only [Vehicle.step] at hs
      split at hs
      · next hzero =>
        obtain ⟨responses, hresponses, heq⟩ := Option.map_eq_some_iff.1 hs
        cases heq
        obtain ⟨hpublished, hreceived, hcount⟩ := Subscription.subscribe_frame hresponses
        refine ⟨h.heard, h.written, h.accepted, h.published, h.loop, h.history,
          h.responses.subscribe hresponses, ?_, ?_, ?_⟩
        · rw [hcount, hzero]
        · rw [hpublished]
          exact h.answers
        · rw [hreceived]
          exact h.relayed
      · cases hs
  | subscribeCommands =>
      simp only [Vehicle.step] at hs
      split at hs
      · cases hs
        exact ⟨h.heard, h.written, h.accepted, h.published, h.loop, h.history, h.responses, h.once,
          h.answers, h.relayed⟩
      · cases hs
  | command taken =>
      obtain ⟨v₁, hv₁, heq⟩ := Option.map_eq_some_iff.1 hs
      cases heq
      exact h.command hv₁
  | locking l late =>
      obtain ⟨v₁, hv₁, heq⟩ := Option.map_eq_some_iff.1 hs
      cases heq
      exact h.locking hv₁
  | stream m =>
      simp only [Vehicle.step] at hs
      split at hs
      · cases hs
      · next hm =>
        obtain ⟨responses, hresponses, heq⟩ := Option.map_eq_some_iff.1 hs
        cases heq
        obtain ⟨hpublished, hreceived, hcount⟩ := Subscription.move_frame hresponses
        refine ⟨h.heard, h.written, h.accepted, h.published, h.loop, h.history,
          h.responses.move hresponses, ?_, ?_, ?_⟩
        · rw [hcount hm]
          exact h.once
        · rw [hpublished]
          exact h.answers
        · rw [hreceived]
          exact h.relayed
  | relay sent => exact h.relay hs

/-- What the client has taken from the response signal are texts of responses that were computed. -/
theorem Inv.received_sublist (h : v.Inv json cfg) :
    v.responses.received.Sublist (v.loop.answers.map json.toText) := by
  have hread := h.answers.filterMap readString
  have hstrings : (v.loop.answers.map fun r => TypedValue.string (json.toText r)).filterMap
      readString = v.loop.answers.map json.toText := by
    rw [List.filterMap_map]
    exact congrFun List.filterMap_eq_map' v.loop.answers
  rw [hstrings] at hread
  exact (h.responses.received_sublist h.once).trans hread

/-! ### What a step does to the histories -/

theorem heard_hear (msg : Message) :
    (v.hear msg).heard = if v.listening then v.heard ++ [msg] else v.heard := by
  cases hlisten : v.listening <;> simp [Vehicle.hear, hlisten]

theorem loop_hear (msg : Message) : (v.hear msg).loop = v.loop := by
  cases hlisten : v.listening <;> simp [Vehicle.hear, hlisten]

theorem command_frame {taken : Bool} (hs : v.command json cfg taken = some v') :
    v'.heard = v.heard ∧ v'.loop.handled = v.loop.handled ∧
      v'.loop.lockState = v.loop.lockState := by
  unfold Vehicle.command at hs
  split at hs
  · cases hs
  · split at hs
    · cases hs
      exact ⟨rfl, rfl, rfl⟩
    · split at hs
      · cases hs
        exact ⟨rfl, LockingService.handled_publish .., LockingService.lockState_publish ..⟩
      · cases hs
        exact ⟨rfl, rfl, rfl⟩

/-- What is published was taken from the response signal. -/
theorem relay_frame {sent : Bool} {out : List Message}
    (hs : v.relay json cfg sent = some (v', out)) :
    v'.heard = v.heard ∧ v'.loop = v.loop ∧ ∀ msg ∈ out, ∃ responseJson ∈ v'.responses.received,
      msg = .plain (responseSubject cfg.vin) responseJson.toUTF8 := by
  unfold Vehicle.relay at hs
  split at hs
  · cases hs
  · next responseJson rest htake =>
    obtain ⟨more, -, rfl⟩ := Subscription.take_eq_some_iff.1 htake
    split at hs
    · cases hs
      exact ⟨rfl, rfl, by rintro msg ⟨⟩⟩
    · next msg hmsg =>
      split at hs
      · cases hs
        refine ⟨rfl, rfl, fun m hm =>
          ⟨responseJson, List.mem_append_right _ List.mem_cons_self, ?_⟩⟩
        rw [List.mem_singleton.1 hm]
        exact (relayResponse_eq_some_iff.1 hmsg).2
      · cases hs
        exact ⟨rfl, rfl, by rintro msg ⟨⟩⟩

/-- **What a step adds:** only a delivery is heard, responses that were computed remain, and what is
published are texts of them. -/
theorem Inv.step_frame {l : VehicleLabel} {out : List Message} (h : v.Inv json cfg)
    (hs : v.step json cfg l = some (v', out)) (hl : ∀ msg, l ≠ .hear msg) :
    v'.heard = v.heard ∧ v.loop.answers ⊆ v'.loop.answers ∧
      ∀ msg ∈ out, ∃ r ∈ v'.loop.answers,
        msg = .plain (responseSubject cfg.vin) (json.toText r).toUTF8 := by
  have hsilent : ∀ msg ∈ ([] : List Message), ∃ r ∈ v'.loop.answers,
      msg = .plain (responseSubject cfg.vin) (json.toText r).toUTF8 := by
    rintro msg ⟨⟩
  cases l with
  | hear msg => exact absurd rfl (hl msg)
  | lose k =>
      cases hs
      exact ⟨rfl, List.Subset.refl _, hsilent⟩
  | subscribeResponses =>
      simp only [Vehicle.step] at hs
      split at hs
      · obtain ⟨responses, -, heq⟩ := Option.map_eq_some_iff.1 hs
        cases heq
        exact ⟨rfl, List.Subset.refl _, hsilent⟩
      · cases hs
  | subscribeCommands =>
      simp only [Vehicle.step] at hs
      split at hs
      · cases hs
        exact ⟨rfl, List.Subset.refl _, hsilent⟩
      · cases hs
  | command taken =>
      obtain ⟨v₁, hv₁, heq⟩ := Option.map_eq_some_iff.1 hs
      cases heq
      obtain ⟨hheard, hhandled, -⟩ := command_frame hv₁
      refine ⟨hheard, ?_, hsilent⟩
      simp only [MainLoop.answers, hhandled]
      exact List.Subset.refl _
  | locking l late =>
      obtain ⟨v₁, hv₁, heq⟩ := Option.map_eq_some_iff.1 hs
      cases heq
      obtain ⟨-, loop, hloop, rfl⟩ := locking_eq_some hv₁
      refine ⟨rfl, ?_, hsilent⟩
      simp only [MainLoop.answers]
      rw [LockingService.loopStep_handledSince hloop, List.flatMap_append]
      exact List.subset_append_left _ _
  | stream m =>
      simp only [Vehicle.step] at hs
      split at hs
      · cases hs
      · obtain ⟨responses, -, heq⟩ := Option.map_eq_some_iff.1 hs
        cases heq
        exact ⟨rfl, List.Subset.refl _, hsilent⟩
  | relay sent =>
      have hv' : v'.Inv json cfg := h.relay hs
      obtain ⟨hheard, hloop, hout⟩ := relay_frame hs
      refine ⟨hheard, ?_, fun msg hmsg => ?_⟩
      · rw [hloop]
        exact List.Subset.refl _
      · obtain ⟨responseJson, hreceived, rfl⟩ := hout msg hmsg
        obtain ⟨r, hr, rfl⟩ := List.mem_map.1 (hv'.received_sublist.subset hreceived)
        exact ⟨r, hr, rfl⟩

open LockingService (handleCommandPayload) in
/-- A payload is handled when the locking service takes it, and never otherwise. -/
theorem handled_step {l : VehicleLabel} {out : List Message}
    (hs : v.step json cfg l = some (v', out)) :
    (v'.loop.handled = v.loop.handled ∧ v'.loop.lockState = v.loop.lockState) ∨
      ∃ b late n payload, l = .locking (.recv b) late ∧
        v'.loop.handled = v.loop.handled ++
          [⟨n, payload, handleCommandPayload b json.serde payload v.loop.lockState⟩] ∧
        v'.loop.lockState =
          (handleCommandPayload b json.serde payload v.loop.lockState).lockState := by
  cases l with
  | hear msg =>
      cases hs
      rw [loop_hear]
      exact .inl ⟨rfl, rfl⟩
  | lose k =>
      cases hs
      exact .inl ⟨rfl, rfl⟩
  | subscribeResponses =>
      simp only [Vehicle.step] at hs
      split at hs
      · obtain ⟨responses, -, heq⟩ := Option.map_eq_some_iff.1 hs
        cases heq
        exact .inl ⟨rfl, rfl⟩
      · cases hs
  | subscribeCommands =>
      simp only [Vehicle.step] at hs
      split at hs
      · cases hs
        exact .inl ⟨rfl, rfl⟩
      · cases hs
  | command taken =>
      obtain ⟨v₁, hv₁, heq⟩ := Option.map_eq_some_iff.1 hs
      cases heq
      obtain ⟨hhandled, hstate⟩ := (command_frame hv₁).2
      exact .inl ⟨hhandled, hstate⟩
  | locking l late =>
      obtain ⟨v₁, hv₁, heq⟩ := Option.map_eq_some_iff.1 hs
      cases heq
      obtain ⟨-, loop, hloop, rfl⟩ := locking_eq_some hv₁
      rcases LockingService.loopStep_handled hloop with
        hsame | ⟨b, n, payload, rfl, hhandled, hstate⟩
      · exact .inl hsame
      · exact .inr ⟨b, late, n, payload, rfl, hhandled, hstate⟩
  | stream m =>
      simp only [Vehicle.step] at hs
      split at hs
      · cases hs
      · obtain ⟨responses, -, heq⟩ := Option.map_eq_some_iff.1 hs
        cases heq
        exact .inl ⟨rfl, rfl⟩
  | relay sent =>
      obtain ⟨-, hloop, -⟩ := relay_frame hs
      rw [hloop]
      exact .inl ⟨rfl, rfl⟩

/-- The invariant holds in every state that is reached. -/
theorem inv_of_reach (h : Lts.Reach (next json cfg) .start v) : v.Inv json cfg := by
  refine h.invariant inv_start fun v l v' hv hs => ?_
  obtain ⟨⟨v₁, out⟩, hstep, rfl⟩ := Option.map_eq_some_iff.1 hs
  exact hv.step hstep

end Vehicle

/-! ### A command that is carried out -/

/-- The client of the demo vehicle. -/
def demoConfig : Config where
  vin := "DEMO-VIN-001"
  bearerToken := "demo-token"

/-- The text of the response to a lock command. -/
def successText : String :=
  "\x7b\"command_id\":\"cmd-1\",\"status\":\"success\",\"timestamp\":1700000000\x7d"

/-- The texts that occur, with what they are read as. -/
def demoTexts : List (String × Json) :=
  [(LockingService.lockPayload, .obj [("command_id", .str "cmd-1"), ("action", .str "lock"),
      ("doors", .arr [.str "driver"])]),
    (successText, .obj [("command_id", .str "cmd-1"), ("status", .str "success"),
      ("timestamp", .num (.int 1700000000))])]

/-- `serde_json` on some texts, where the only response is that to the lock command. -/
def VehicleJson.ofTable (texts : List (String × Json)) : VehicleJson where
  serde := .ofTable texts
  fromSlice bytes := (String.fromUTF8? bytes).bind fun s => texts.lookup s
  toText _ := successText

theorem fromSlice_ofTable (texts : List (String × Json)) (s : String) :
    (VehicleJson.ofTable texts).fromSlice s.toUTF8 = texts.lookup s := by
  have hread : String.fromUTF8? s.toUTF8 = some s := fromUTF8?_eq_some_iff.2 rfl
  simp only [VehicleJson.ofTable, hread, Option.bind_some]

/-- `serde_json` on these texts. -/
def demoJson : VehicleJson := .ofTable demoTexts

/-- A lock command as it comes from NATS. -/
def lockMessage : Message where
  subject := commandSubject "DEMO-VIN-001"
  headers key := if key = "Authorization" then ["Bearer demo-token"] else []
  payload := LockingService.lockPayload.toUTF8

/-- The command is heard, written, handled and answered, and the answer is relayed. -/
def lockRun : List VehicleLabel :=
  [.subscribeResponses, .subscribeCommands, .hear lockMessage, .command true,
    .locking .forward false, .locking (.recv (LockingService.standing false)) false,
    .stream .forward, .relay true]

theorem exists_lockRun :
    ∃ v, Lts.run (Vehicle.next demoJson demoConfig) .start lockRun = some v ∧
      v.loop.handled.map (fun g => (g.number, g.payload)) = [(0, LockingService.lockPayload)] ∧
      v.relayed = [successText] := by
  have hrun : (Lts.run (Vehicle.next demoJson demoConfig) .start lockRun).map (fun v =>
      (v.loop.handled.map (fun g => (g.number, g.payload)), v.relayed)) =
        some ([(0, LockingService.lockPayload)], [successText]) := by
    decide +kernel
  obtain ⟨v, hv, hfinal⟩ := Option.map_eq_some_iff.1 hrun
  obtain ⟨hhandled, hrelayed⟩ := Prod.mk.inj hfinal
  exact ⟨v, hv, hhandled, hrelayed⟩

/-! ### What the vehicle does for whom -/

variable {json cfg} {v : Vehicle}

/-- The message bears the token of the vehicle, its payload is in order, and it is the given text,
byte by byte. -/
structure Authentic (json : VehicleJson) (cfg : Config) (msg : Message) (payload : String) :
    Prop where
  authorization : (msg.headers "Authorization").head? = some ("Bearer " ++ cfg.bearerToken)
  valid : ∃ cmd, validateCommandPayload (json.fromSlice msg.payload) = .ok cmd
  payload : msg.payload = payload.toUTF8

/-- A payload that was handled is that of the message written under its number. -/
theorem Vehicle.Inv.authentic (h : v.Inv json cfg) {g : Handling} (hg : g ∈ v.loop.handled) :
    ∃ msg, v.written[g.number]? = some msg ∧ Authentic json cfg msg g.payload := by
  have hvalue := h.loop.handled g hg
  rw [h.published, List.getElem?_map] at hvalue
  obtain ⟨msg, hmsg, htext⟩ := Option.map_eq_some_iff.1 hvalue
  have haccepted := h.accepted msg (List.mem_of_getElem? hmsg)
  rw [TypedValue.string.inj htext] at haccepted
  obtain ⟨hauth, hvalid, hpayload⟩ := acceptCommand_eq_ok_iff.1 haccepted
  exact ⟨msg, hmsg, hauth, hvalid, hpayload⟩

/-- **Whatever the locking service handles came with the bearer token.**  Some of the messages that
the vehicle has heard, in their order, all of them authorized and in order, are such that every
payload that was handled is the payload of one of them; and a message is handled at most once, and
once more for every time that the locking service has subscribed again while it was the last one. -/
theorem handled_commands_authentic (h : Lts.Reach (Vehicle.next json cfg) .start v) :
    ∃ msgs : List Message, msgs.Sublist v.heard ∧
      (∀ g ∈ v.loop.handled, ∃ msg, msgs[g.number]? = some msg ∧
        Authentic json cfg msg g.payload) ∧
      ∀ n, (v.loop.handled.map Handling.number).count n ≤ 1 + v.loop.resumed.count n := by
  have hv := Vehicle.inv_of_reach h
  have hheard : v.written.Sublist v.heard :=
    (hv.written.trans (List.sublist_append_left _ _)).trans hv.heard
  have hsent : (v.loop.handled.map Handling.number).Sublist v.loop.sent :=
    (List.sublist_append_left _ _).trans hv.loop.sublist
  exact ⟨v.written, hheard, fun g hg => hv.authentic hg,
    fun n => (hsent.count_le n).trans (hv.loop.count n)⟩

theorem handled_commands_authentic_lock :
    ∃ v, Lts.run (Vehicle.next demoJson demoConfig) .start lockRun = some v ∧
      v.loop.handled ≠ [] ∧ ∃ msgs : List Message, msgs.Sublist v.heard ∧
        (∀ g ∈ v.loop.handled, ∃ msg, msgs[g.number]? = some msg ∧
          Authentic demoJson demoConfig msg g.payload) ∧
        ∀ n, (v.loop.handled.map Handling.number).count n ≤ 1 + v.loop.resumed.count n := by
  obtain ⟨v, hv, hhandled, -⟩ := exists_lockRun
  refine ⟨v, hv, ?_, handled_commands_authentic (Lts.reach_of_run hv)⟩
  rintro hnil
  rw [hnil] at hhandled
  cases hhandled

/-- **Whatever is relayed is a response of the locking service:** the texts relayed are those of
responses that it has computed, in their order, each at most once; and once everything that the
broker has sent on a stream that is up has been taken, the last response in the broker has been. -/
theorem relayed_responses_genuine (h : Lts.Reach (Vehicle.next json cfg) .start v) :
    v.relayed.Sublist (v.loop.answers.map json.toText) ∧
      (v.responses.connected = true → v.responses.wire = [] → v.responses.inbox = [] →
        ∀ responseJson, v.responses.published.getLast? = some (.string responseJson) →
          v.responses.received.getLast? = some responseJson) := by
  have hv := Vehicle.inv_of_reach h
  refine ⟨hv.relayed.trans hv.received_sublist, fun hup hwire hinbox responseJson hlast => ?_⟩
  exact hv.responses.last_received hup hwire hinbox hlast rfl

theorem relayed_responses_genuine_lock :
    ∃ v, Lts.run (Vehicle.next demoJson demoConfig) .start lockRun = some v ∧
      v.relayed = [successText] ∧ v.relayed.Sublist (v.loop.answers.map demoJson.toText) ∧
      (v.responses.connected = true → v.responses.wire = [] → v.responses.inbox = [] →
        ∀ responseJson, v.responses.published.getLast? = some (.string responseJson) →
          v.responses.received.getLast? = some responseJson) := by
  obtain ⟨v, hv, -, hrelayed⟩ := exists_lockRun
  exact ⟨v, hv, hrelayed, relayed_responses_genuine (Lts.reach_of_run hv)⟩

end RemoteCommand
