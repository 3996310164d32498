/-
**Where the responses in the gateway's store come from.**

A request publishes at most one message, and puts the id of its command in flight only if it does.
A timeout is stored only for an id that was put in flight, and every other response was received.

Main definitions:

* `CloudGateway.outgoing` — what a request publishes;
* `CloudGateway.extractVinFromSubject` — the vehicle that a subject names;
* `CloudGateway.Gateway.Explained` — every response in the store is a timeout of an id that was
  submitted, or was received.

Main results:

* `CloudGateway.submitCommand_published` — what is published has passed the checks;
* `CloudGateway.Gateway.Explained.next`, `CloudGateway.Gateway.Explained.receive` — every event
  keeps the store explained.
-/

import ParkingFeeService.GatewayServer
import ParkingFeeService.GatewayTimers
import ParkingFeeService.VehicleClient

set_option relaxedAutoImplicit false
set_option autoImplicit false

namespace CloudGateway

/-! ### What the gateway publishes -/

/-- The message that a request publishes, if NATS takes it. -/
def outgoing (cfg : Config) (r : HttpRequest) (published : Bool) : Option NatsMsg :=
  match r.route with
  | .submitCommand body =>
      match middleware cfg r with
      | some _ => none
      | none => (submitCommand (fun _ => published) ⟨r.vin, r.authorization, body⟩).published
  | _ => none

/-- The message carries a command with the id, which has passed the checks of the handler. -/
def NatsMsg.Carries (m : NatsMsg) (commandId : String) : Prop :=
  ∃ vin cmd token, m = publishCommand vin cmd token ∧ cmd.Accepted ∧ cmd.commandId = commandId

/-- Whatever is published carries a command that has passed the checks, and a timeout is started for
its id and for no other. -/
theorem submitCommand_published (conn : NatsMsg → Bool) (r : SubmitRequest) :
    ((submitCommand conn r).published = none ∧ (submitCommand conn r).timeoutFor = none) ∨
      ∃ m id, (submitCommand conn r).published = some m ∧
        (submitCommand conn r).timeoutFor = some id ∧ m.Carries id := by
  by_cases h : (submitCommand conn r).response.status = 202
  · obtain ⟨cmd, hcmd, hacc, -, hpub⟩ := submitCommand_accepted_iff.1 h
    refine .inr ⟨_, cmd.commandId, hpub, ?_, _, cmd, _, rfl, hacc, rfl⟩
    rw [submitCommand, hcmd] at hpub ⊢
    dsimp only at hpub ⊢
    split at hpub
    · cases hpub
    · next hfields =>
      split at hpub
      · cases hpub
      · next htype =>
        split at hpub
        · next hconn => rw [if_neg hfields, if_neg htype, if_pos hconn]
        · cases hpub
  · refine .inl ?_
    rw [submitCommand] at h ⊢
    split
    · exact ⟨rfl, rfl⟩
    · next cmd hcmd =>
      rw [hcmd] at h
      dsimp only at h
      split
      · exact ⟨rfl, rfl⟩
      · next hfields =>
        split
        · exact ⟨rfl, rfl⟩
        · next htype =>
          rw [if_neg hfields, if_neg htype] at h
          dsimp only at h ⊢
          split
          · next hconn => exact absurd (by rw [if_pos hconn]) h
          · exact ⟨rfl, rfl⟩

/-- A request publishes a message and puts the id of its command in flight, or does neither. -/
theorem serve_cases (cfg : Config) (g : Gateway) (r : HttpRequest) (published : Bool) :
    (outgoing cfg r published = none ∧ (g.serve cfg r published).1 = g) ∨
      ∃ m id response, outgoing cfg r published = some m ∧ m.Carries id ∧
        (g.serve cfg r published).1 = g.enqueue id response := by
  unfold outgoing Gateway.serve
  cases r.route with
  | submitCommand body =>
      cases middleware cfg r with
      | some refusal => exact .inl ⟨rfl, rfl⟩
      | none =>
          rcases submitCommand_published (fun _ => published) ⟨r.vin, r.authorization, body⟩ with
            ⟨hpub, hid⟩ | ⟨m, id, hpub, hid, hm⟩
          · refine .inl ⟨hpub, ?_⟩
            simp only [hid]
          · refine .inr ⟨m, id,
              (submitCommand (fun _ => published) ⟨r.vin, r.authorization, body⟩).response,
              hpub, hm, ?_⟩
            simp only [hid]
  | getCommandStatus commandId =>
      cases middleware cfg r with
      | some refusal => exact .inl ⟨rfl, rfl⟩
      | none => exact .inl ⟨rfl, rfl⟩
  | health => exact .inl ⟨rfl, rfl⟩

/-- The message that an event publishes. -/
def Event.outgoing (cfg : Config) : Event → Option NatsMsg
  | .request r published => CloudGateway.outgoing cfg r published
  | _ => none

/-- Decoding strings over an empty array. -/
theorem decodeItems_strings (ss : List String) : decodeItems [] (ss.map .str) = some ss := by
  induction ss with
  | nil => rfl
  | cons s ss ih =>
      rw [List.map_cons, decodeItems, List.tail_nil, ih]
      rfl

/-- **What is published for a command** decodes to the command. -/
theorem decodeCommand_encodeCommand (cmd : Command) :
    decodeCommand (some (encodeCommand cmd)) = some cmd := by
  have hid : fieldFor ["command_id", "type", "doors"] "command_id" = some "command_id" := by decide
  have htype : fieldFor ["command_id", "type", "doors"] "type" = some "type" := by decide
  have hdoors : fieldFor ["command_id", "type", "doors"] "doors" = some "doors" := by decide
  have hslice : (decodeSlice ⟨[], none⟩ ((cmd.doors.map Json.ofStrings).getD .null)).map
      StringSlice.elems = some cmd.doors := by
    match hd : cmd.doors with
    | none => rfl
    | some [] => rfl
    | some (door :: doors) =>
        have hitems := decodeItems_strings (door :: doors)
        simp only [Option.map_some, Option.getD_some, Json.ofStrings, decodeSlice]
        rw [List.map_cons] at hitems ⊢
        simp [hitems, StringSlice.elems]
  obtain ⟨slice, hslice, helems⟩ := Option.map_eq_some_iff.1 hslice
  simp [decodeCommand, encodeCommand, decodeField, hid, htype, hdoors, decodeString, hslice, helems]

/-- Whatever an event publishes carries a command. -/
theorem exists_carries_of_outgoing {cfg : Config} {e : Event} {m : NatsMsg}
    (h : e.outgoing cfg = some m) : ∃ id, m.Carries id := by
  cases e with
  | request r published =>
      rcases serve_cases cfg .init r published with ⟨hnone, -⟩ | ⟨m', id, -, hm', hcarries, -⟩
      · rw [Event.outgoing, hnone] at h
        cases h
      · rw [Event.outgoing, hm'] at h
        cases h
        exact ⟨id, hcarries⟩
  | startTimeout | message | fire | callback => cases h

/-- The identifier of a vehicle in a subject. -/
def extractVinFromSubject (subject : String) : String :=
  match Subject.tokens subject with
  | _ :: vin :: _ => vin
  | _ => ""

/-- The vehicle of a response subject is found, if its identifier has no dot. -/
theorem extractVinFromSubject_responseSubject {vin : String} (h : '.' ∉ vin.toList) :
    extractVinFromSubject (CloudGatewayClient.responseSubject vin) = vin := by
  rw [extractVinFromSubject, CloudGatewayClient.responseSubject,
    CloudGatewayClient.tokens_vehicleSubject vin (by decide), Subject.tokens_of_no_dot h]
  rfl

/-! ### Where a response in the store comes from -/

namespace Store

theorem length_started_storeResponse (s : Store) (resp : CommandResponse) (id : String) :
    ((s.storeResponse resp).started id).length = (s.started id).length := by
  rw [storeResponse]
  cases s.timers resp.commandId with
  | none => rfl
  | some n => exact length_started_modifyTimer ..

theorem length_started_callback (s : Store) (commandId : String) (n : ℕ) (id : String) :
    ((s.callback commandId n).started id).length = (s.started id).length := by
  rw [callback]
  split
  · exact length_started_modifyTimer ..
  · rfl

end Store

/-- Every response in the store is the timeout of a command id that was submitted, or was received;
and whatever may still time out was submitted. -/
structure Gateway.Explained (g : Gateway) (submitted : String → Prop)
    (received : String → CommandResponse → Prop) : Prop where
  stored : ∀ id r, g.store.responses id = some r →
    r = Store.timeoutResponse id ∧ submitted id ∨ received id r
  pending : ∀ id, g.inFlight id ≠ [] ∨ g.store.started id ≠ [] → submitted id

variable {g : Gateway} {submitted submitted' : String → Prop}
  {received received' : String → CommandResponse → Prop}

theorem explained_init : Gateway.init.Explained submitted received where
  stored := by rintro id r ⟨⟩
  pending := by
    rintro id (h | h)
    · exact absurd rfl h
    · exact absurd rfl h

theorem Gateway.Explained.mono (h : g.Explained submitted received)
    (hsubmitted : ∀ id, submitted id → submitted' id)
    (hreceived : ∀ id r, received id r → received' id r) : g.Explained submitted' received' where
  stored id r hr := (h.stored id r hr).imp (fun ht => ⟨ht.1, hsubmitted id ht.2⟩) (hreceived id r)
  pending id hid := hsubmitted id (h.pending id hid)

theorem Gateway.Explained.enqueue (h : g.Explained submitted received) {commandId : String}
    (hid : submitted commandId) (response : HttpResponse) :
    (g.enqueue commandId response).Explained submitted received := by
  refine ⟨h.stored, fun id hpending => ?_⟩
  by_cases heq : id = commandId
  · rw [heq]
    exact hid
  · refine h.pending id (hpending.imp_left fun hflight => ?_)
    simpa only [Gateway.enqueue, Function.update_of_ne heq] using hflight

theorem Gateway.Explained.receive (h : g.Explained submitted received) {data : Option Json}
    (hdata : ∀ r, decodeResponse data = some r → received r.commandId r) :
    (g.receive data).Explained submitted received := by
  rw [Gateway.receive]
  split
  · next resp hresp =>
    refine ⟨fun id r hr => ?_, fun id hpending => ?_⟩
    · simp only [Store.responses_storeResponse, Function.update_apply] at hr
      split at hr
      · next hid =>
        cases hr
        rw [hid]
        exact .inr (hdata _ hresp)
      · exact h.stored id r hr
    · refine h.pending id (hpending.imp_right fun hstarted hnil => hstarted ?_)
      -- a response stops a timer and starts none
      have hlen := Store.length_started_storeResponse g.store resp id
      rw [hnil] at hlen
      exact List.length_eq_zero_iff.1 hlen
  · exact h

theorem Gateway.Explained.startTimeout (h : g.Explained submitted received) (cfg : Config)
    (commandId : String) (k : ℕ) :
    (g.startTimeout cfg commandId k).1.Explained submitted received := by
  rw [Gateway.startTimeout]
  split
  · next response hresponse =>
    have hid : submitted commandId := by
      refine h.pending commandId (.inl fun hnil => ?_)
      rw [hnil] at hresponse
      cases hresponse
    refine ⟨h.stored, fun id hpending => ?_⟩
    by_cases heq : id = commandId
    · rw [heq]
      exact hid
    · simp only [Function.update_of_ne heq, Store.startTimeout] at hpending
      exact h.pending id hpending
  · exact h

theorem Gateway.Explained.fire (h : g.Explained submitted received) (commandId : String) (n : ℕ) :
    Gateway.Explained { g with store := g.store.fire commandId n } submitted received := by
  refine ⟨h.stored, fun id hpending => h.pending id (hpending.imp_right fun hstarted hnil => ?_)⟩
  have hlen := length_started_modifyTimer g.store commandId n Timer.fire id
  rw [hnil] at hlen
  exact hstarted (List.length_eq_zero_iff.1 hlen)

theorem Gateway.Explained.callback (h : g.Explained submitted received) (commandId : String)
    (n : ℕ) :
    Gateway.Explained { g with store := g.store.callback commandId n } submitted received := by
  refine ⟨fun id r hr => ?_, fun id hpending => ?_⟩
  · by_cases hfired : g.store.phase commandId n = some .fired
    · simp only [Store.responses_callback hfired, Function.update_apply] at hr
      split at hr
      · next hid =>
        subst hid
        cases hold : g.store.responses id with
        | some old =>
            rw [hold] at hr
            cases hr
            exact h.stored id _ hold
        | none =>
            -- the timer that has fired was started for a submission
            rw [hold] at hr
            cases hr
            refine .inl ⟨rfl, h.pending id (.inr fun hnil => ?_)⟩
            rw [Store.phase, hnil] at hfired
            cases hfired
      · exact h.stored id r hr
    · rw [Store.phase] at hfired
      simp only [Store.callback, if_neg hfired] at hr
      exact h.stored id r hr
  · refine h.pending id (hpending.imp_right fun hstarted hnil => hstarted ?_)
    have hlen := Store.length_started_callback g.store commandId n id
    rw [hnil] at hlen
    exact List.length_eq_zero_iff.1 hlen

/-- Every event other than a message explains what it stores, if what it publishes is submitted. -/
theorem Gateway.Explained.next (h : g.Explained submitted received) {cfg : Config} {e : Event}
    (hmessage : ∀ vin data, e ≠ .message vin data)
    (hsubmitted : ∀ m id, e.outgoing cfg = some m → m.Carries id → submitted id) :
    (g.next cfg e).Explained submitted received := by
  cases e with
  | request r published =>
      rcases serve_cases cfg g r published with ⟨-, heq⟩ | ⟨m, id, response, hout, hm, heq⟩
      · rw [Gateway.next, Gateway.handle, heq]
        exact h
      · rw [Gateway.next, Gateway.handle, heq]
        exact h.enqueue (hsubmitted m id hout hm) response
  | startTimeout commandId k => exact h.startTimeout cfg commandId k
  | message vin data => exact absurd rfl (hmessage vin data)
  | fire commandId n => exact h.fire commandId n
  | callback commandId n => exact h.callback commandId n

end CloudGateway
