/-
**Commands from the cloud to the vehicles and back.**

The cloud gateway, NATS and any number of vehicles run side by side, and others may publish to NATS
as well.  The gateway publishes a command on the subject of a vehicle and starts its timeout; the
vehicle relays the responses of its locking service; the gateway stores what comes on the response
subjects of all vehicles.  NATS delivers a message to every subscription that matches its subject,
at most once.

What the gateway and the others have published is recorded, so that whatever is found in the store
or in a vehicle can be traced back to its origin.

Main definitions:

* `RemoteCommand.Codec` — what the JSON libraries of the gateway and the vehicles read and write;
* `RemoteCommand.System`, `RemoteCommand.Label`, `RemoteCommand.System.step` — the system;
* `RemoteCommand.System.Inv` — the invariant.

Main results:

* `RemoteCommand.System.inv_of_reach` — the invariant holds in every state that is reached;
* `RemoteCommand.commands_addressed` — **which commands a vehicle hears**;
* `RemoteCommand.stored_responses_explained` — **where the responses in the store come from**;
* `RemoteCommand.commands_never_executed` — **what comes of the commands of the gateway alone**.
-/

import ParkingFeeService.GatewayOrigins
import ParkingFeeService.GatewayVehicleFormat
import ParkingFeeService.RemoteVehicle

set_option relaxedAutoImplicit false
set_option autoImplicit false

namespace RemoteCommand

open CloudGatewayClient
open CloudGateway (Gateway NatsMsg Event Store publishCommand decodeResponse extractVinFromSubject)
open Subject (Matches Literal)

/-! ### The system -/

/-- What the JSON libraries read and write: those of the vehicles, and `encoding/json`. -/
structure Codec where
  vehicle : VehicleJson
  marshal : Json → ByteArray
  unmarshal : ByteArray → Option Json

/-- The gateway, the vehicles, and the messages that the gateway has not taken yet.  `sent` and
`foreign` are histories. -/
structure System (ι : Type*) where
  gateway : Gateway
  /-- Messages of the subscription to responses that the gateway has not taken. -/
  inbox : List Message
  vehicles : ι → Vehicle
  /-- What the gateway has published. -/
  sent : List NatsMsg
  /-- What others have published. -/
  foreign : List Message

/-- What can happen next. -/
inductive Label (ι : Type*)
  /-- The gateway handles a request, goes on with one, or a timer of its store moves. -/
  | gateway (e : Event)
  /-- The gateway takes a message of its subscription. -/
  | receive
  /-- A message of the gateway's subscription is lost. -/
  | lose (k : ℕ)
  /-- A vehicle takes a step. -/
  | vehicle (i : ι) (l : VehicleLabel)
  /-- Somebody else publishes a message. -/
  | foreign (msg : Message)

/-- The subject under which the gateway subscribes to the responses of all vehicles. -/
def allResponses : String := vehicleSubject "*" "command_responses"

variable {ι : Type*} (codec : Codec) (cfg : CloudGateway.Config)
  (configs : ι → Config)

/-- A command as it is published to NATS. -/
def Codec.message (m : NatsMsg) : Message where
  subject := m.subject
  headers key := if key = "Authorization" then [m.authorization] else []
  payload := codec.marshal m.data

namespace System

/-- The system when it starts. -/
def start : System ι where
  gateway := .init
  inbox := []
  vehicles _ := .start
  sent := []
  foreign := []

/-- NATS delivers a message to every subscription that its subject matches. -/
def publish (s : System ι) (msg : Message) : System ι :=
  { s with
    inbox := if Matches allResponses msg.subject then s.inbox ++ [msg] else s.inbox
    vehicles i :=
      if Matches (commandSubject (configs i).vin) msg.subject then (s.vehicles i).hear msg
      else s.vehicles i }

/-- The system with an event of the gateway. -/
def event (s : System ι) (e : Event) : System ι :=
  let s' := { s with gateway := s.gateway.next cfg e }
  match e.outgoing cfg with
  | none => s'
  | some m => publish configs { s' with sent := s.sent ++ [m] } (codec.message m)

/-- The system after a step. -/
def step [DecidableEq ι] (s : System ι) : Label ι → Option (System ι)
  | .gateway e =>
      match e with
      | .message _ _ => none
      | e => some (s.event codec cfg configs e)
  | .receive =>
      match s.inbox with
      | [] => none
      | msg :: rest => some { s with
          gateway := s.gateway.next cfg
            (.message (extractVinFromSubject msg.subject) (codec.unmarshal msg.payload))
          inbox := rest }
  | .lose k => some { s with inbox := s.inbox.eraseIdx k }
  | .vehicle i l =>
      match l with
      | .hear _ => none
      | l =>
          ((s.vehicles i).step codec.vehicle (configs i) l).map fun (v, out) =>
            out.foldl (publish configs) { s with vehicles := Function.update s.vehicles i v }
  | .foreign msg => some (publish configs { s with foreign := s.foreign ++ [msg] } msg)

/-! ### The invariant -/

/-- A command with the id has been published. -/
def Submitted (s : System ι) (commandId : String) : Prop := ∃ m ∈ s.sent, m.Carries commandId

/-- The message relays a response that the locking service of a vehicle has computed. -/
def FromFleet (s : System ι) (msg : Message) : Prop :=
  ∃ i, ∃ r ∈ (s.vehicles i).loop.answers,
    msg = .plain (responseSubject (configs i).vin) (codec.vehicle.toText r).toUTF8

/-- A message for the gateway relays a response of a vehicle, or is foreign. -/
structure Response (s : System ι) (msg : Message) : Prop where
  subject : Matches allResponses msg.subject
  origin : s.FromFleet codec configs msg ∨ msg ∈ s.foreign

/-- A message for a vehicle is a command of the gateway, or is foreign. -/
structure Order (s : System ι) (i : ι) (msg : Message) : Prop where
  subject : Matches (commandSubject (configs i).vin) msg.subject
  origin : (∃ m ∈ s.sent, msg = codec.message m) ∨ msg ∈ s.foreign

/-- The response was received in a message for the gateway. -/
def Received (s : System ι) (id : String) (r : CloudGateway.CommandResponse) : Prop :=
  r.commandId = id ∧ ∃ msg, s.Response codec configs msg ∧
    decodeResponse (codec.unmarshal msg.payload) = some r

/-- Every vehicle is in order, and every message that is under way, was heard or was stored comes
from somewhere. -/
structure Inv (s : System ι) : Prop where
  vehicles : ∀ i, (s.vehicles i).Inv codec.vehicle (configs i)
  heard : ∀ i, ∀ msg ∈ (s.vehicles i).heard, s.Order codec configs i msg
  inbox : ∀ msg ∈ s.inbox, s.Response codec configs msg
  sent : ∀ m ∈ s.sent, ∃ commandId, m.Carries commandId
  stored : s.gateway.Explained s.Submitted (s.Received codec configs)

/-- A later state has all that an earlier one has published and computed. -/
structure Extends (s' s : System ι) : Prop where
  sent : s.sent ⊆ s'.sent
  foreign : s.foreign ⊆ s'.foreign
  answers : ∀ i, (s.vehicles i).loop.answers ⊆ (s'.vehicles i).loop.answers

variable {codec cfg configs} {s s' : System ι}

theorem Extends.submitted (h : s'.Extends s) {id : String} (hid : s.Submitted id) :
    s'.Submitted id := by
  obtain ⟨m, hm, hcarries⟩ := hid
  exact ⟨m, h.sent hm, hcarries⟩

theorem Extends.response (h : s'.Extends s) {msg : Message} (hmsg : s.Response codec configs msg) :
    s'.Response codec configs msg where
  subject := hmsg.subject
  origin := by
    rcases hmsg.origin with ⟨i, r, hr, hmsg⟩ | hmsg
    · exact .inl ⟨i, r, h.answers i hr, hmsg⟩
    · exact .inr (h.foreign hmsg)

theorem Extends.order (h : s'.Extends s) {i : ι} {msg : Message}
    (hmsg : s.Order codec configs i msg) : s'.Order codec configs i msg where
  subject := hmsg.subject
  origin := by
    rcases hmsg.origin with ⟨m, hm, hmsg⟩ | hmsg
    · exact .inl ⟨m, h.sent hm, hmsg⟩
    · exact .inr (h.foreign hmsg)

theorem Extends.received (h : s'.Extends s) {id : String} {r : CloudGateway.CommandResponse}
    (hr : s.Received codec configs id r) : s'.Received codec configs id r := by
  obtain ⟨hid, msg, hmsg, hdecode⟩ := hr
  exact ⟨hid, msg, h.response hmsg, hdecode⟩

theorem Extends.explained (h : s'.Extends s) {g : Gateway}
    (hg : g.Explained s.Submitted (s.Received codec configs)) :
    g.Explained s'.Submitted (s'.Received codec configs) :=
  hg.mono (fun _ => h.submitted) fun _ _ => h.received

theorem inv_start : (start : System ι).Inv codec configs where
  vehicles _ := Vehicle.inv_start
  heard := by rintro i msg ⟨⟩
  inbox := by rintro msg ⟨⟩
  sent := by rintro m ⟨⟩
  stored := CloudGateway.explained_init

/-! ### Publishing -/

theorem answers_publish (msg : Message) (i : ι) :
    ((s.publish configs msg).vehicles i).loop.answers = (s.vehicles i).loop.answers := by
  simp only [publish]
  split
  · rw [Vehicle.loop_hear]
  · rfl

theorem extends_publish (msg : Message) : (s.publish configs msg).Extends s where
  sent := List.Subset.refl _
  foreign := List.Subset.refl _
  answers i := by
    rw [answers_publish]
    exact List.Subset.refl _

/-- A message whose origin is known may be delivered to whoever it matches. -/
theorem Inv.publish (h : s.Inv codec configs) {msg : Message}
    (hresponse : Matches allResponses msg.subject → s.Response codec configs msg)
    (horder : ∀ i, Matches (commandSubject (configs i).vin) msg.subject →
      s.Order codec configs i msg) : (s.publish configs msg).Inv codec configs := by
  have hext : (s.publish configs msg).Extends s := extends_publish msg
  refine ⟨fun i => ?_, fun i m hm => hext.order ?_, fun m hm => hext.response ?_, h.sent,
    hext.explained h.stored⟩
  · simp only [System.publish]
    split
    · exact (h.vehicles i).hear msg
    · exact h.vehicles i
  · simp only [System.publish] at hm
    split at hm
    · next hmatch =>
      rw [Vehicle.heard_hear] at hm
      split at hm
      · rcases List.mem_append.1 hm with hm | hm
        · exact h.heard i m hm
        · rw [List.mem_singleton.1 hm]
          exact horder i hmatch
      · exact h.heard i m hm
    · exact h.heard i m hm
  · simp only [System.publish] at hm
    split at hm
    · next hmatch =>
      rcases List.mem_append.1 hm with hm | hm
      · exact h.inbox m hm
      · rw [List.mem_singleton.1 hm]
        exact hresponse hmatch
    · exact h.inbox m hm

/-! ### The steps -/

/-- What was heard or is under way in an earlier state still comes from somewhere. -/
theorem Extends.inv (hext : s'.Extends s) (h : s.Inv codec configs)
    (hvehicles : ∀ i, (s'.vehicles i).Inv codec.vehicle (configs i))
    (hheard : ∀ i, (s'.vehicles i).heard = (s.vehicles i).heard) (hinbox : s'.inbox ⊆ s.inbox)
    (hsent : ∀ m ∈ s'.sent, ∃ commandId, m.Carries commandId)
    (hstored : s'.gateway.Explained s'.Submitted (s'.Received codec configs)) :
    s'.Inv codec configs where
  vehicles := hvehicles
  heard i msg hmsg := hext.order (h.heard i msg (hheard i ▸ hmsg))
  inbox msg hmsg := hext.response (h.inbox msg (hinbox hmsg))
  sent := hsent
  stored := hstored

theorem subject_publishCommand (vin : String) (cmd : CloudGateway.Command) (token : String) :
    (publishCommand vin cmd token).subject = commandSubject vin := by
  simp only [publishCommand, commandSubject, vehicleSubject, String.append_assoc]
  rfl

/-- A command is no response. -/
theorem not_matches_of_carries {m : NatsMsg} {id : String} (h : m.Carries id) :
    ¬ Matches allResponses m.subject := by
  obtain ⟨vin, cmd, token, rfl, -⟩ := h
  rw [subject_publishCommand]
  intro hmatch
  exact absurd (kind_eq_of_matches (by decide) (by decide) hmatch) (by decide)

/-- A response is no command. -/
theorem not_matches_responseSubject (vin vin' : String) :
    ¬ Matches (commandSubject vin) (responseSubject vin') := fun hmatch =>
  absurd (kind_eq_of_matches (by decide) (by decide) hmatch) (by decide)

theorem Inv.event (h : s.Inv codec configs) {e : Event}
    (hmessage : ∀ vin data, e ≠ .message vin data) :
    (s.event codec cfg configs e).Inv codec configs := by
  rw [System.event]
  cases hout : e.outgoing cfg with
  | none =>
      have hext : System.Extends { s with gateway := s.gateway.next cfg e } s :=
        ⟨List.Subset.refl _, List.Subset.refl _, fun _ => List.Subset.refl _⟩
      refine hext.inv h h.vehicles (fun _ => rfl) (List.Subset.refl _) h.sent
        ((hext.explained h.stored).next hmessage fun m id hm _ => ?_)
      rw [hout] at hm
      cases hm
  | some m =>
      obtain ⟨id, hm⟩ := CloudGateway.exists_carries_of_outgoing hout
      have hext : System.Extends
          { s with gateway := s.gateway.next cfg e, sent := s.sent ++ [m] } s :=
        ⟨List.subset_append_left _ _, List.Subset.refl _, fun _ => List.Subset.refl _⟩
      have hnew : m ∈ s.sent ++ [m] := List.mem_append_right _ List.mem_cons_self
      have h₁ : System.Inv codec configs
          { s with gateway := s.gateway.next cfg e, sent := s.sent ++ [m] } := by
        refine hext.inv h h.vehicles (fun _ => rfl) (List.Subset.refl _) (fun m' hm' => ?_)
          ((hext.explained h.stored).next hmessage fun m' id' hm' hcarries => ?_)
        · rcases List.mem_append.1 hm' with hm' | hm'
          · exact h.sent m' hm'
          · rw [List.mem_singleton.1 hm']
            exact ⟨id, hm⟩
        · rw [hout] at hm'
          cases hm'
          exact ⟨m, hnew, hcarries⟩
      exact h₁.publish (fun hmatch => absurd hmatch (not_matches_of_carries hm))
        fun i hmatch => ⟨hmatch, .inl ⟨m, hnew, rfl⟩⟩

/-- What a vehicle publishes may be delivered to whoever it matches. -/
theorem Inv.publishAll {out : List Message} : ∀ {s : System ι}, s.Inv codec configs →
    (∀ msg ∈ out, s.FromFleet codec configs msg) →
      (out.foldl (System.publish configs) s).Inv codec configs := by
  induction out with
  | nil => exact fun h _ => h
  | cons msg out ih =>
      intro s h hout
      have hmsg : s.FromFleet codec configs msg := hout msg List.mem_cons_self
      refine ih (h.publish (fun hmatch => ⟨hmatch, .inl hmsg⟩) fun i hmatch => ?_) ?_
      · obtain ⟨i', r, -, rfl⟩ := hmsg
        exact absurd hmatch (not_matches_responseSubject _ _)
      · intro msg' hmsg'
        obtain ⟨i', r, hr, heq⟩ := hout msg' (List.mem_cons_of_mem _ hmsg')
        refine ⟨i', r, ?_, heq⟩
        rw [answers_publish]
        exact hr

variable [DecidableEq ι]

theorem Inv.vehicle (h : s.Inv codec configs) {i : ι} {l : VehicleLabel} {v : Vehicle}
    {out : List Message} (hl : ∀ msg, l ≠ .hear msg)
    (hs : (s.vehicles i).step codec.vehicle (configs i) l = some (v, out)) :
    System.Inv codec configs
      (out.foldl (System.publish configs)
        { s with vehicles := Function.update s.vehicles i v }) := by
  obtain ⟨hheard, hanswers, hout⟩ := (h.vehicles i).step_frame hs hl
  have hext : System.Extends { s with vehicles := Function.update s.vehicles i v } s := by
    refine ⟨List.Subset.refl _, List.Subset.refl _, fun i' => ?_⟩
    by_cases hi : i' = i
    · subst hi
      simpa only [Function.update_self] using hanswers
    · simp only [Function.update_of_ne hi]
      exact List.Subset.refl _
  refine Inv.publishAll (hext.inv h (fun i' => ?_) (fun i' => ?_) (List.Subset.refl _) h.sent
    (hext.explained h.stored)) fun msg hmsg => ?_
  · by_cases hi : i' = i
    · subst hi
      simpa only [Function.update_self] using (h.vehicles i').step hs
    · simpa only [Function.update_of_ne hi] using h.vehicles i'
  · by_cases hi : i' = i
    · subst hi
      simpa only [Function.update_self] using hheard
    · simp only [Function.update_of_ne hi]
  · obtain ⟨r, hr, hmsg⟩ := hout msg hmsg
    refine ⟨i, r, ?_, hmsg⟩
    simpa only [Function.update_self] using hr

/-- **Every step of the system keeps the invariant.** -/
theorem Inv.step {l : Label ι} (h : s.Inv codec configs)
    (hs : s.step codec cfg configs l = some s') : s'.Inv codec configs := by
  cases l with
  | gateway e =>
      simp only [System.step] at hs
      split at hs
      · cases hs
      · next e he =>
        cases hs
        exact h.event he
  | receive =>
      simp only [System.step] at hs
      split at hs
      · cases hs
      · next msg rest hinbox =>
        cases hs
        have hmsg : s.Response codec configs msg := by
          refine h.inbox msg ?_
          rw [hinbox]
          exact List.mem_cons_self
        have hext : System.Extends
            { s with
              gateway := s.gateway.next cfg
                (.message (extractVinFromSubject msg.subject) (codec.unmarshal msg.payload))
              inbox := rest } s :=
          ⟨List.Subset.refl _, List.Subset.refl _, fun _ => List.Subset.refl _⟩
        refine hext.inv h h.vehicles (fun _ => rfl) ?_ h.sent
          ((hext.explained h.stored).receive fun r hr => ⟨rfl, msg, hext.response hmsg, hr⟩)
        rw [hinbox]
        exact List.subset_cons_self _ _
  | lose k =>
      cases hs
      have hext : System.Extends { s with inbox := s.inbox.eraseIdx k } s :=
        ⟨List.Subset.refl _, List.Subset.refl _, fun _ => List.Subset.refl _⟩
      exact hext.inv h h.vehicles (fun _ => rfl) (List.eraseIdx_subset ..) h.sent
        (hext.explained h.stored)
  | vehicle i l =>
      simp only [System.step] at hs
      split at hs
      · cases hs
      · next l hl =>
        obtain ⟨⟨v, out⟩, hstep, rfl⟩ := Option.map_eq_some_iff.1 hs
        exact h.vehicle hl hstep
  | foreign msg =>
      cases hs
      have hext : System.Extends { s with foreign := s.foreign ++ [msg] } s :=
        ⟨List.Subset.refl _, List.subset_append_left _ _, fun _ => List.Subset.refl _⟩
      have hnew : msg ∈ s.foreign ++ [msg] := List.mem_append_right _ List.mem_cons_self
      have h₁ : System.Inv codec configs { s with foreign := s.foreign ++ [msg] } :=
        hext.inv h h.vehicles (fun _ => rfl) (List.Subset.refl _) h.sent (hext.explained h.stored)
      exact h₁.publish (fun hmatch => ⟨hmatch, .inr hnew⟩) fun i hmatch => ⟨hmatch, .inr hnew⟩

/-- The invariant holds in every state that is reached. -/
theorem inv_of_reach (h : Lts.Reach (System.step codec cfg configs) .start s) :
    s.Inv codec configs :=
  h.invariant inv_start fun _ _ _ hs => hs.step

end System

/-! ### One vehicle -/

/-- The gateway of the demo vehicle. -/
def demoGateway : CloudGateway.Config := ⟨30, [⟨"demo-token", "DEMO-VIN-001"⟩]⟩

/-- The JSON of the command that is submitted to the gateway. -/
def submittedCommand : Json :=
  .obj [("command_id", .str "cmd-2"), ("type", .str "lock"), ("doors", .arr [.str "driver"])]

/-- Its text. -/
def submittedText : String :=
  "\x7b\"command_id\":\"cmd-2\",\"type\":\"lock\",\"doors\":[\"driver\"]\x7d"

/-- The texts that occur. -/
def systemTexts : List (String × Json) := demoTexts ++ [(submittedText, submittedCommand)]

/-- The JSON libraries on these texts, where the only command published is the submitted one. -/
def demoCodec : Codec where
  vehicle := .ofTable systemTexts
  marshal _ := submittedText.toUTF8
  unmarshal := (VehicleJson.ofTable systemTexts).fromSlice

/-- The command is submitted. -/
def submitDemo : CloudGateway.HttpRequest where
  urlPath := "/vehicles/DEMO-VIN-001/commands"
  vin := "DEMO-VIN-001"
  authorization := "Bearer demo-token"
  route := .submitCommand (some submittedCommand)

/-- The vehicle is up; a command is submitted, and its timeout is started. -/
def submitRun : List (Label Unit) :=
  [.vehicle () .subscribeResponses, .vehicle () .subscribeCommands,
    .gateway (.request submitDemo true), .gateway (.startTimeout "cmd-2" 0)]

/-- The command is dropped by the vehicle and times out. -/
def timeoutRun : List (Label Unit) :=
  submitRun ++ [.vehicle () (.command true), .gateway (.fire "cmd-2" 0),
    .gateway (.callback "cmd-2" 0)]

/-- Meanwhile another lock command arrives and is carried out. -/
def foreignRun : List (Label Unit) :=
  submitRun ++ [.foreign lockMessage, .vehicle () (.command true), .vehicle () (.command true),
    .vehicle () (.locking .forward false),
    .vehicle () (.locking (.recv (LockingService.standing false)) false),
    .vehicle () (.stream .forward), .vehicle () (.relay true), .receive]

/-- The system of the demo vehicle. -/
def demoStep : System Unit → Label Unit → Option (System Unit) :=
  System.step demoCodec demoGateway fun _ => demoConfig

theorem exists_timeoutRun :
    ∃ s, Lts.run demoStep .start timeoutRun = some s ∧ s.foreign = [] ∧
      s.sent.map (fun m => CloudGateway.decodeCommand (some m.data)) =
        [some ⟨"cmd-2", "lock", some ["driver"]⟩] ∧
      (s.vehicles ()).heard.length = 1 ∧
      s.gateway.store.getResponse "cmd-2" = some (Store.timeoutResponse "cmd-2") := by
  have hrun : (Lts.run demoStep .start timeoutRun).map (fun s =>
      (s.foreign.length, s.sent.map fun m => CloudGateway.decodeCommand (some m.data),
        (s.vehicles ()).heard.length, s.gateway.store.getResponse "cmd-2")) =
      some (0, [some ⟨"cmd-2", "lock", some ["driver"]⟩], 1,
        some (Store.timeoutResponse "cmd-2")) := by
    decide +kernel
  obtain ⟨s, hs, hfinal⟩ := Option.map_eq_some_iff.1 hrun
  simp only [Prod.mk.injEq] at hfinal
  obtain ⟨hforeign, hsent, hheard, hstored⟩ := hfinal
  exact ⟨s, hs, List.length_eq_zero_iff.1 hforeign, hsent, hheard, hstored⟩

theorem exists_foreignRun :
    ∃ s, Lts.run demoStep .start foreignRun = some s ∧
      s.foreign.map Message.subject = [commandSubject "DEMO-VIN-001"] ∧
      (s.vehicles ()).loop.answers = [⟨"cmd-1", "success", none, 1700000000⟩] ∧
      s.gateway.store.getResponse "cmd-1" = some ⟨"cmd-1", "success", ""⟩ := by
  have hrun : (Lts.run demoStep .start foreignRun).map (fun s =>
      (s.foreign.map Message.subject, (s.vehicles ()).loop.answers,
        s.gateway.store.getResponse "cmd-1")) =
      some ([commandSubject "DEMO-VIN-001"], [⟨"cmd-1", "success", none, 1700000000⟩],
        some ⟨"cmd-1", "success", ""⟩) := by
    decide +kernel
  obtain ⟨s, hs, hfinal⟩ := Option.map_eq_some_iff.1 hrun
  simp only [Prod.mk.injEq] at hfinal
  exact ⟨s, hs, hfinal⟩

/-! ### Who hears whom -/

variable {codec : Codec} {cfg : CloudGateway.Config} {configs : ι → Config} [DecidableEq ι]
  {s : System ι}

/-- **Which messages reach whom:** what a vehicle hears is foreign, or a command that the gateway
has published for this vehicle; what waits for the gateway is foreign, or a response of the vehicle
that its subject names. -/
theorem messages_addressed (h : Lts.Reach (System.step codec cfg configs) .start s) :
    (∀ i, Literal (configs i).vin → ∀ msg ∈ (s.vehicles i).heard,
      msg ∈ s.foreign ∨ ∃ cmd token, cmd.Accepted ∧
        publishCommand (configs i).vin cmd token ∈ s.sent ∧
        msg = codec.message (publishCommand (configs i).vin cmd token)) ∧
      ∀ msg ∈ s.inbox, msg ∈ s.foreign ∨
        ∃ i, extractVinFromSubject msg.subject = (configs i).vin ∧
          ∃ r ∈ (s.vehicles i).loop.answers,
            msg.payload = (codec.vehicle.toText r).toUTF8 := by
  have hs := System.inv_of_reach h
  constructor
  · intro i hvin msg hmsg
    obtain ⟨hmatch, ⟨m, hm, rfl⟩ | hforeign⟩ := hs.heard i msg hmsg
    · obtain ⟨id, vin, cmd, token, rfl, hacc, -⟩ := hs.sent m hm
      have hsubject : (codec.message (publishCommand vin cmd token)).subject =
          commandSubject vin := System.subject_publishCommand vin cmd token
      rw [hsubject] at hmatch
      obtain ⟨rfl, -⟩ :=
        (matches_vehicleSubject_iff hvin (by decide) (by decide)).1 hmatch
      exact .inr ⟨cmd, token, hacc, hm, rfl⟩
    · exact .inl hforeign
  · intro msg hmsg
    obtain ⟨hmatch, ⟨i, r, hr, rfl⟩ | hforeign⟩ := hs.inbox msg hmsg
    · have hdot := ((matches_allVehicles_iff (by decide) (by decide)).1 hmatch).1
      exact .inr ⟨i, CloudGateway.extractVinFromSubject_responseSubject hdot, r, hr, rfl⟩
    · exact .inl hforeign

theorem messages_addressed_submitted :
    ∃ s, Lts.run demoStep .start timeoutRun = some s ∧ (s.vehicles ()).heard.length = 1 ∧
      (∀ i, Literal demoConfig.vin → ∀ msg ∈ (s.vehicles i).heard,
        msg ∈ s.foreign ∨ ∃ cmd token, cmd.Accepted ∧
          publishCommand demoConfig.vin cmd token ∈ s.sent ∧
          msg = demoCodec.message (publishCommand demoConfig.vin cmd token)) ∧
      ∀ msg ∈ s.inbox, msg ∈ s.foreign ∨
        ∃ i, extractVinFromSubject msg.subject = demoConfig.vin ∧
          ∃ r ∈ (s.vehicles i).loop.answers,
            msg.payload = (demoCodec.vehicle.toText r).toUTF8 := by
  obtain ⟨s, hs, -, -, hheard, -⟩ := exists_timeoutRun
  exact ⟨s, hs, hheard, messages_addressed (Lts.reach_of_run hs)⟩

/-! ### What a stored response means -/

open LockingService (Handling SerdeJson responses parseCommand validateCommand handleCommandPayload
  checkSafety) in
/-- The payload is a valid command with the id, which was let through and carried out. -/
def Executed (serde : SerdeJson) (g : Handling) (commandId : String) : Prop :=
  ∃ b lockState cmd, g.result = handleCommandPayload b serde g.payload lockState ∧
    parseCommand serde g.payload = .ok cmd ∧ validateCommand cmd = .ok () ∧
    cmd.commandId = commandId ∧ (cmd.action = .lock → (checkSafety b).1 = .safe) ∧
    g.result.lockState = cmd.action.target

/-- The JSON of a response of the locking service; no reason is left out. -/
def responseJson (r : LockingService.CommandResponse) : Json :=
  .obj ([("command_id", .str r.commandId), ("status", .str r.status)] ++
    r.reason.toList.map (fun reason => ("reason", .str reason)) ++
      [("timestamp", .num (.int r.timestamp))])

/-- The gateway reads what the locking service has written. -/
theorem decodeResponse_responseJson (r : LockingService.CommandResponse) :
    decodeResponse (some (responseJson r)) =
      some ⟨r.commandId, r.status, r.reason.getD ""⟩ := by
  have htimestamp :
      CloudGateway.fieldFor ["command_id", "status", "reason"] "timestamp" = none := by
    decide
  have hid : CloudGateway.fieldFor ["command_id", "status", "reason"] "command_id" =
      some "command_id" := by decide
  have hstatus : CloudGateway.fieldFor ["command_id", "status", "reason"] "status" =
      some "status" := by decide
  have hreason : CloudGateway.fieldFor ["command_id", "status", "reason"] "reason" =
      some "reason" := by decide
  obtain ⟨commandId, status, reason, timestamp⟩ := r
  cases reason <;>
    simp [decodeResponse, responseJson, CloudGateway.decodeResponseField, htimestamp, hid, hstatus,
      hreason, CloudGateway.decodeString]

/-- **Where the responses in the store come from.**  If nobody else publishes responses, a response
in the store is the timeout of a command that the gateway has published, or the one that a vehicle
has computed for a payload with this id, which it has heard with its token; and a success is of a
command that was carried out. -/
theorem stored_responses_explained (h : Lts.Reach (System.step codec cfg configs) .start s)
    (hforeign : ∀ msg ∈ s.foreign, ¬ Matches allResponses msg.subject)
    (htext : ∀ i, ∀ a ∈ (s.vehicles i).loop.answers,
      codec.unmarshal (codec.vehicle.toText a).toUTF8 = some (responseJson a))
    {id : String} {r : CloudGateway.CommandResponse}
    (hr : s.gateway.store.getResponse id = some r) :
    r = Store.timeoutResponse id ∧ s.Submitted id ∨
      r.commandId = id ∧ ∃ i, ∃ g ∈ (s.vehicles i).loop.handled,
        (∃ msg ∈ (s.vehicles i).heard, Authentic codec.vehicle (configs i) msg g.payload) ∧
        (∃ a ∈ LockingService.responses g.result.calls,
          r = ⟨a.commandId, a.status, a.reason.getD ""⟩) ∧
        (r.status = "success" → Executed codec.vehicle.serde g id) := by
  have hs := System.inv_of_reach h
  refine (hs.stored.stored id r hr).imp_right ?_
  rintro ⟨hid, msg, ⟨hmatch, ⟨i, a, ha, rfl⟩ | horigin⟩, hdecode⟩
  · refine ⟨hid, i, ?_⟩
    have hv := hs.vehicles i
    obtain ⟨g, hg, hag⟩ := List.mem_flatMap.1 ha
    have hread : r = ⟨a.commandId, a.status, a.reason.getD ""⟩ := by
      have hdata : decodeResponse (codec.unmarshal (codec.vehicle.toText a).toUTF8) = some r :=
        hdecode
      rw [htext i a ha, decodeResponse_responseJson] at hdata
      exact (Option.some.inj hdata).symm
    obtain ⟨msg, hmsg, hauthentic⟩ := hv.authentic hg
    have hheard : msg ∈ (s.vehicles i).heard :=
      ((hv.written.trans (List.sublist_append_left _ _)).trans hv.heard).subset
        (List.mem_of_getElem? hmsg)
    refine ⟨g, hg, ⟨msg, hheard, hauthentic⟩, ⟨a, hag, hread⟩, fun hsuccess => ?_⟩
    obtain ⟨b, lockState, hresult⟩ := hv.history.computed g hg
    rw [hresult] at hag
    have hstatus : a.status = "success" := by
      rw [hread] at hsuccess
      exact hsuccess
    obtain ⟨cmd, hparse, hvalid, hcmd, hallowed, hstate⟩ :=
      LockingService.executed_of_success hag hstatus
    refine ⟨b, lockState, cmd, hresult, hparse, hvalid, ?_, hallowed, ?_⟩
    · rw [hcmd, ← hid, hread]
    · rw [hresult]
      exact hstate
  · exact absurd hmatch (hforeign msg horigin)

theorem stored_responses_explained_lock :
    ∃ s, Lts.run demoStep .start foreignRun = some s ∧
      s.gateway.store.getResponse "cmd-1" = some ⟨"cmd-1", "success", ""⟩ ∧
      ((⟨"cmd-1", "success", ""⟩ : CloudGateway.CommandResponse) = Store.timeoutResponse "cmd-1" ∧
          s.Submitted "cmd-1" ∨
        "cmd-1" = "cmd-1" ∧ ∃ i, ∃ g ∈ (s.vehicles i).loop.handled,
          (∃ msg ∈ (s.vehicles i).heard, Authentic demoCodec.vehicle demoConfig msg g.payload) ∧
          (∃ a ∈ LockingService.responses g.result.calls,
            (⟨"cmd-1", "success", ""⟩ : CloudGateway.CommandResponse) =
              ⟨a.commandId, a.status, a.reason.getD ""⟩) ∧
          ("success" = "success" → Executed demoCodec.vehicle.serde g "cmd-1")) := by
  obtain ⟨s, hs, hforeign, hanswers, hstored⟩ := exists_foreignRun
  refine ⟨s, hs, hstored,
    stored_responses_explained (Lts.reach_of_run hs) (fun msg hmsg => ?_) (fun i a ha => ?_)
      hstored⟩
  · have hsubject := List.mem_map_of_mem (f := Message.subject) hmsg
    rw [hforeign, List.mem_singleton] at hsubject
    rw [hsubject]
    decide +kernel
  · rw [hanswers, List.mem_singleton] at ha
    rw [ha]
    have hread : systemTexts.lookup successText =
        some (responseJson ⟨"cmd-1", "success", none, 1700000000⟩) := by
      simp [systemTexts, demoTexts, List.lookup_cons, successText, LockingService.lockPayload,
        responseJson]
    exact (fromSlice_ofTable systemTexts successText).trans hread

/-! ### What comes of the commands of the gateway -/

/-- A vehicle writes no command of the gateway, if it reads the JSON of the gateway. -/
theorem not_accepted_of_carries {m : NatsMsg} {id token payload : String} (hm : m.Carries id)
    (hjson : codec.vehicle.fromSlice (codec.marshal m.data) = some m.data) :
    acceptCommand codec.vehicle.fromSlice token (codec.message m) ≠ .ok payload := by
  intro haccept
  obtain ⟨vin, cmd, token, rfl, hacc, -⟩ := hm
  obtain ⟨-, ⟨p, hvalid⟩, -⟩ := acceptCommand_eq_ok_iff.1 haccept
  have hread : validateCommandPayload (some (CloudGateway.encodeCommand cmd)) = .ok p := by
    rw [← hvalid]
    exact congrArg validateCommandPayload hjson.symm
  rw [CloudGateway.validate_encodeCommand hacc.commandId] at hread
  cases hread

/-- **What comes of the commands of the gateway alone.**  If nobody else publishes commands with the
token of a vehicle, or responses, no vehicle ever handles anything; and whatever is found in the
store is a timeout. -/
theorem commands_never_executed (h : Lts.Reach (System.step codec cfg configs) .start s)
    (hcommands : ∀ msg ∈ s.foreign, ∀ i, Matches (commandSubject (configs i).vin) msg.subject →
      (msg.headers "Authorization").head? ≠ some ("Bearer " ++ (configs i).bearerToken))
    (hresponses : ∀ msg ∈ s.foreign, ¬ Matches allResponses msg.subject)
    (hjson : ∀ m ∈ s.sent, codec.vehicle.fromSlice (codec.marshal m.data) = some m.data) :
    (∀ i, (s.vehicles i).loop.handled = [] ∧ (s.vehicles i).loop.lockState = false ∧
      (s.vehicles i).relayed = []) ∧
      ∀ id r, s.gateway.store.getResponse id = some r →
        r = Store.timeoutResponse id ∧ s.Submitted id := by
  have hs := System.inv_of_reach h
  have hhandled : ∀ i, (s.vehicles i).loop.handled = [] := by
    intro i
    have hv := hs.vehicles i
    rw [List.eq_nil_iff_forall_not_mem]
    intro g hg
    obtain ⟨msg, hmsg, hauthentic⟩ := hv.authentic hg
    have hwritten := List.mem_of_getElem? hmsg
    have hheard : msg ∈ (s.vehicles i).heard :=
      ((hv.written.trans (List.sublist_append_left _ _)).trans hv.heard).subset hwritten
    obtain ⟨hmatch, ⟨m, hm, rfl⟩ | horigin⟩ := hs.heard i msg hheard
    · obtain ⟨id, hcarries⟩ := hs.sent m hm
      exact not_accepted_of_carries hcarries (hjson m hm) (hv.accepted _ hwritten)
    · exact hcommands msg horigin i hmatch hauthentic.authorization
  have hanswers : ∀ i, (s.vehicles i).loop.answers = [] := fun i => by
    rw [LockingService.MainLoop.answers, hhandled i]
    rfl
  refine ⟨fun i => ⟨hhandled i, ?_, ?_⟩, fun id r hr => ?_⟩
  · rw [(hs.vehicles i).history.lockState, hhandled i]
    rfl
  · have hrelayed := (hs.vehicles i).relayed.trans (hs.vehicles i).received_sublist
    rw [hanswers i] at hrelayed
    exact List.sublist_nil.1 hrelayed
  · rcases hs.stored.stored id r hr with htimeout | ⟨-, msg, ⟨hmatch, hmsg⟩, -⟩
    · exact htimeout
    · rcases hmsg with ⟨i, a, ha, -⟩ | horigin
      · rw [hanswers i] at ha
        cases ha
      · exact absurd hmatch (hresponses msg horigin)

theorem commands_never_executed_submitted :
    ∃ s, Lts.run demoStep .start timeoutRun = some s ∧
      s.gateway.store.getResponse "cmd-2" = some (Store.timeoutResponse "cmd-2") ∧
      (∀ i, (s.vehicles i).loop.handled = [] ∧ (s.vehicles i).loop.lockState = false ∧
        (s.vehicles i).relayed = []) ∧
      ∀ id r, s.gateway.store.getResponse id = some r →
        r = Store.timeoutResponse id ∧ s.Submitted id := by
  obtain ⟨s, hs, hforeign, hsent, -, hstored⟩ := exists_timeoutRun
  have hreach := Lts.reach_of_run hs
  refine ⟨s, hs, hstored, commands_never_executed hreach (fun msg hmsg => ?_) (fun msg hmsg => ?_)
    fun m hm => ?_⟩
  · rw [hforeign] at hmsg
    cases hmsg
  · rw [hforeign] at hmsg
    cases hmsg
  · -- the only command published is the submitted one
    obtain ⟨id, vin, cmd, token, rfl, -⟩ := (System.inv_of_reach hreach).sent m hm
    have hcmd := List.mem_map_of_mem
      (f := fun m => CloudGateway.decodeCommand (some m.data)) hm
    rw [hsent, List.mem_singleton] at hcmd
    have hdata : (publishCommand vin cmd token).data = CloudGateway.encodeCommand cmd := rfl
    rw [hdata, CloudGateway.decodeCommand_encodeCommand, Option.some.injEq] at hcmd
    rw [hdata, hcmd]
    have hread : systemTexts.lookup submittedText =
        some (CloudGateway.encodeCommand ⟨"cmd-2", "lock", some ["driver"]⟩) := by
      simp [systemTexts, demoTexts, List.lookup_cons, successText, LockingService.lockPayload,
        submittedText, submittedCommand, CloudGateway.encodeCommand, Json.ofStrings]
    exact (fromSlice_ofTable systemTexts submittedText).trans hread

end RemoteCommand
