/-
**What a vehicle's owner sees of the other vehicles.**

The store is keyed by command ids, and neither the subject a response arrives on nor the path a
status is asked under takes part in the lookup.  So the answer to a status request can come from
another vehicle, if that vehicle's messages or submissions carry the same command id; but all others
have no influence on it.

Main definitions:

* `CloudGateway.inView` — the events that a vehicle's owner and the vehicle itself take part in;
* `CloudGateway.Event.commandId` — the command id that an event carries;
* `CloudGateway.statusAnswers` — the answers to the owner's status requests for a command in a run.

Main results:

* `CloudGateway.unwinding` — one step: the events with other command ids are not seen;
* `CloudGateway.statusAnswers_eq` — every run;
* `CloudGateway.foreign_response_served` — another vehicle's response is served.
-/

import ParkingFeeService.GatewayServer
import ParkingFeeService.Noninterference

set_option relaxedAutoImplicit false
set_option autoImplicit false

namespace CloudGateway

/-! ### The view of a vehicle -/

/-- The request is made under the path of a vehicle with a token of that vehicle. -/
def HttpRequest.madeFor (cfg : Config) (vin : String) (r : HttpRequest) : Bool :=
  getVinForToken cfg (extractToken r.authorization) = some vin ∧ extractVinFromPath r.urlPath = vin

/-- The event is a request of the vehicle's owner, or a message of the vehicle. -/
def inView (cfg : Config) (vin : String) : Event → Bool
  | .request r _ => r.madeFor cfg vin
  | .message sender _ => sender = vin
  | _ => false

/-- The event is a command submitted for another vehicle, or a message of another vehicle. -/
def foreign (vin : String) : Event → Bool
  | .request r _ =>
      match r.route with
      | .submitCommand _ => r.vin ≠ vin
      | _ => false
  | .message sender _ => sender ≠ vin
  | _ => false

/-- The command id that a submission, a response or a step of a timer carries. -/
def Event.commandId : Event → Option String
  | .request r _ =>
      match r.route with
      | .submitCommand body => (decodeCommand body).map Command.commandId
      | _ => none
  | .message _ data => (decodeResponse data).map CommandResponse.commandId
  | .startTimeout commandId _ | .fire commandId _ | .callback commandId _ => some commandId

/-- The event is in the view of the vehicle, or carries the command id. -/
def relevant (cfg : Config) (vin commandId : String) (e : Event) : Bool :=
  inView cfg vin e || e.commandId = some commandId

/-- The answer to a request of the vehicle's owner for the status of the command. -/
def statusAnswer (cfg : Config) (vin commandId : String) (g : Gateway) (e : Event) :
    Option HttpResponse :=
  match e with
  | .request r published =>
      match r.route with
      | .getCommandStatus id =>
          if r.madeFor cfg vin ∧ id = commandId then g.answer cfg (.request r published) else none
      | _ => none
  | _ => none

/-- The answers to the owner's requests for the status of the command in a run of the gateway. -/
def statusAnswers (cfg : Config) (vin commandId : String) (es : List Event) : List HttpResponse :=
  observations (Gateway.next cfg) (statusAnswer cfg vin commandId) .init es

/-! ### One step -/

/-- What the gateway holds for a command id. -/
def Gateway.cell (g : Gateway) (commandId : String) : Store.Cell × List HttpResponse :=
  (g.store.cell commandId, g.inFlight commandId)

/-- What serving a request changes: a submission for the command id in its body may be in flight. -/
theorem next_request (cfg : Config) (r : HttpRequest) (published : Bool) :
    (∀ g : Gateway, g.next cfg (.request r published) = g) ∨
      ∃ commandId response, (Event.request r published).commandId = some commandId ∧
        ∀ g : Gateway, g.next cfg (.request r published) = g.enqueue commandId response := by
  cases hroute : r.route with
  | health => exact .inl fun g => by simp [Gateway.next, Gateway.handle, Gateway.serve, hroute]
  | getCommandStatus id =>
      refine .inl fun g => ?_
      cases hmw : middleware cfg r <;>
        simp [Gateway.next, Gateway.handle, Gateway.serve, hroute, hmw]
  | submitCommand body =>
      cases hmw : middleware cfg r with
      | some refusal =>
          exact .inl fun g => by simp [Gateway.next, Gateway.handle, Gateway.serve, hroute, hmw]
      | none =>
          generalize hsub : submitCommand (fun _ => published) ⟨r.vin, r.authorization, body⟩ = sub
          cases hid : sub.timeoutFor with
          | none =>
              refine .inl fun g => ?_
              simp [Gateway.next, Gateway.handle, Gateway.serve, hroute, hmw, hsub, hid]
          | some commandId =>
              -- the submission is queued under the id of the command in its body
              refine .inr ⟨commandId, sub.response, ?_, fun g => ?_⟩
              · rw [← hsub] at hid
                simpa [Event.commandId, hroute] using decodeCommand_of_timeoutFor hid
              · simp [Gateway.next, Gateway.handle, Gateway.serve, hroute, hmw, hsub, hid]

theorem local_enqueue (commandId : String) (response : HttpResponse) :
    Local Gateway.cell (some commandId) fun g => g.enqueue commandId response := by
  refine .of_key ?_ ?_
  · intro g id hid
    simp [Gateway.cell, Gateway.enqueue, hid]
  · intro g g' h
    obtain ⟨hstore, hflight⟩ := Prod.mk.inj h
    simp [Gateway.cell, Gateway.enqueue, hstore, hflight]

/-- An operation on the store only. -/
theorem local_store {key : Option String} {op : Store → Store} (h : Local Store.cell key op) :
    Local Gateway.cell key fun g => { g with store := op g.store } := by
  constructor
  · intro g id hid
    simp [Gateway.cell, h.frame hid]
  · intro g g' id hcell
    obtain ⟨hstore, hflight⟩ := Prod.mk.inj hcell
    simp [Gateway.cell, h.congr hstore, hflight]

theorem local_gatewayStartTimeout (cfg : Config) (commandId : String) (k : ℕ) :
    Local Gateway.cell (some commandId) fun g => (g.startTimeout cfg commandId k).1 := by
  have hlocal := Store.local_startTimeout commandId cfg.timeout
  refine .of_key ?_ ?_
  · intro g id hid
    rw [Gateway.startTimeout]
    cases (g.inFlight commandId)[k]? with
    | none => rfl
    | some response =>
        simp [Gateway.cell, hlocal.frame fun heq => hid (Option.some.inj heq).symm, hid]
  · intro g g' h
    obtain ⟨hstore, hflight⟩ := Prod.mk.inj h
    simp only [Gateway.startTimeout]
    rw [hflight]
    cases (g'.inFlight commandId)[k]? with
    | none => exact h
    | some response => simp [Gateway.cell, hlocal.congr hstore]

/-- **An event reads and writes** what the gateway holds for the command id that it carries. -/
theorem local_next (cfg : Config) (e : Event) :
    Local Gateway.cell e.commandId fun g => g.next cfg e := by
  cases e with
  | request r published =>
      rcases next_request cfg r published with hid | ⟨commandId, response, hid, hnext⟩
      · simp only [hid]
        exact ⟨fun _ => rfl, fun h => h⟩
      · simp only [hid, hnext]
        exact local_enqueue commandId response
  | startTimeout commandId k => exact local_gatewayStartTimeout cfg commandId k
  | message sender data =>
      simp only [Gateway.next, Gateway.handle, Gateway.receive, Event.commandId]
      cases decodeResponse data with
      | none => exact ⟨fun _ => rfl, fun h => h⟩
      | some resp => exact local_store (Store.local_storeResponse resp)
  | fire commandId n => exact local_store (Store.local_fire commandId n)
  | callback commandId n => exact local_store (Store.local_callback commandId n)

theorem getCommandStatus_congr {g g' : Gateway} {commandId : String}
    (h : g.cell commandId = g'.cell commandId) :
    getCommandStatus g.store commandId = getCommandStatus g'.store commandId := by
  have hresp : g.store.responses commandId = g'.store.responses commandId :=
    (Store.Cell.mk.inj (Prod.mk.inj h).1).1
  rw [getCommandStatus, getCommandStatus, Store.getResponse, Store.getResponse, hresp]

/-- The answer to a status request depends only on what the gateway holds for the command id. -/
theorem statusAnswer_congr {cfg : Config} {vin commandId : String} {g g' : Gateway} {e : Event}
    (h : g.cell commandId = g'.cell commandId) :
    statusAnswer cfg vin commandId g e = statusAnswer cfg vin commandId g' e := by
  cases e with
  | request r published =>
      cases hroute : r.route with
      | getCommandStatus id =>
          by_cases hmade : r.madeFor cfg vin = true ∧ id = commandId
          · -- the middleware does not look at the store, the handler only at this command id
            obtain ⟨-, rfl⟩ := hmade
            have hstatus := getCommandStatus_congr h
            simp only [statusAnswer, hroute, Gateway.answer, Gateway.handle, Gateway.serve]
            cases middleware cfg r <;> simp [hstatus]
          · simp [statusAnswer, hroute, hmade]
      | submitCommand body => simp [statusAnswer, hroute]
      | health => simp [statusAnswer, hroute]
  | startTimeout id k => rfl
  | message sender data => rfl
  | fire id n => rfl
  | callback id n => rfl

/-- The owner's status requests are in the view of the vehicle. -/
theorem statusAnswer_of_not_inView {cfg : Config} {vin commandId : String} {g : Gateway}
    {e : Event} (h : inView cfg vin e = false) : statusAnswer cfg vin commandId g e = none := by
  cases e with
  | request r published =>
      have hmade : r.madeFor cfg vin = false := h
      cases hroute : r.route <;> simp [statusAnswer, hroute, hmade]
  | startTimeout id k => rfl
  | message sender data => rfl
  | fire id n => rfl
  | callback id n => rfl

/-- One step of the gateway, as seen by the owner of a vehicle who asks for a command. -/
theorem unwinding (cfg : Config) (vin commandId : String) :
    Unwinding (Gateway.next cfg) (statusAnswer cfg vin commandId) (fun g => g.cell commandId)
      (relevant cfg vin commandId) := by
  refine .of_local (local_next cfg) ?_ ?_ ?_
  · intro e hid
    simp [relevant, hid]
  · intro g g' e h
    exact statusAnswer_congr h
  · intro g e hirr
    exact statusAnswer_of_not_inView (Bool.or_eq_false_iff.1 hirr).1

/-! ### Every run -/

/-- **The owner of a vehicle gets the same answers** to the requests for the status of a command in
any two runs that agree on the view of the vehicle and on the events that carry the command id. -/
theorem statusAnswers_eq (cfg : Config) (vin commandId : String) {es es' : List Event}
    (h : es.filter (relevant cfg vin commandId) = es'.filter (relevant cfg vin commandId)) :
    statusAnswers cfg vin commandId es = statusAnswers cfg vin commandId es' :=
  (unwinding cfg vin commandId).noninterference .init h

/-- A configuration with two vehicles. -/
def twoVehicles : Config where
  commandTimeoutSeconds := 30
  tokens := [⟨"token-A", "VIN-A"⟩, ⟨"token-B", "VIN-B"⟩]

/-- A submission of a vehicle's owner. -/
def submission (vin token commandId : String) : Event :=
  .request
    { urlPath := "/vehicles/" ++ vin ++ "/commands"
      vin := vin
      authorization := "Bearer " ++ token
      route := .submitCommand (some (encodeCommand ⟨commandId, "lock", some ["driver"]⟩)) } true

/-- A response of a vehicle. -/
def response (vin commandId : String) : Event :=
  .message vin (some (encodeResponse { commandId := commandId, status := "success" }))

/-- A status request of the first vehicle's owner. -/
def statusRequest (commandId : String) : Event :=
  .request
    { urlPath := "/vehicles/VIN-A/commands/" ++ commandId
      vin := "VIN-A"
      authorization := "Bearer token-A"
      route := .getCommandStatus commandId } true

/-- The owner of the first vehicle sees nothing of a command of the second. -/
theorem statusAnswers_eq_otherCommand :
    statusAnswers twoVehicles "VIN-A" "cmd-1"
        [submission "VIN-A" "token-A" "cmd-1", .startTimeout "cmd-1" 0, response "VIN-A" "cmd-1",
          statusRequest "cmd-1"] =
      statusAnswers twoVehicles "VIN-A" "cmd-1"
        [submission "VIN-B" "token-B" "cmd-2", submission "VIN-A" "token-A" "cmd-1",
          .startTimeout "cmd-2" 0, .startTimeout "cmd-1" 0, response "VIN-B" "cmd-2",
          response "VIN-A" "cmd-1", .fire "cmd-2" 0, statusRequest "cmd-1"] :=
  statusAnswers_eq twoVehicles "VIN-A" "cmd-1" rfl

/-- **A response of another vehicle is served**: two runs that differ in a message of the second
vehicle only, which the owner of the first vehicle gets to see. -/
theorem foreign_response_served :
    ¬ ∀ (cfg : Config) (vin commandId : String) (es es' : List Event),
      es.filter (fun e => !foreign vin e) = es'.filter (fun e => !foreign vin e) →
        statusAnswers cfg vin commandId es = statusAnswers cfg vin commandId es' := by
  intro hall
  have heq := hall twoVehicles "VIN-A" "cmd-1" [statusRequest "cmd-1"]
    [response "VIN-B" "cmd-1", statusRequest "cmd-1"] rfl
  have hstatus := congrArg (List.map HttpResponse.status) heq
  revert hstatus
  decide

end CloudGateway
