/-
**The cloud gateway.**

Requests pass the authorisation middleware, which compares the vehicle of the bearer token with the
one in the URL path, and reach a handler.  An accepted submission first publishes its command and
then starts the timeout, so other steps may come between the two.  Messages on the response subjects
of all vehicles go into the one store.

A request is what `net/http` hands over: the decoded path, the path values of the route, the header
and the body.

Main definitions:

* `CloudGateway.Config`, `CloudGateway.middleware`;
* `CloudGateway.decodeResponse`, `CloudGateway.encodeResponse`, `CloudGateway.getCommandStatus`;
* `CloudGateway.Event`, `CloudGateway.Gateway.handle` — the steps of the gateway.

Main results:

* `CloudGateway.decodeCommand_of_timeoutFor` — a timeout is started for the command in the body.
-/

import ParkingFeeService.GatewayHandler
import ParkingFeeService.GatewayStore

set_option relaxedAutoImplicit false
set_option autoImplicit false

namespace CloudGateway

/-! ### Configuration and authorisation -/

/-- A bearer token and its vehicle. -/
structure TokenMapping where
  token : String
  vin : String
  deriving DecidableEq, Repr

/-- The part of the configuration that the handlers use. -/
structure Config where
  commandTimeoutSeconds : Int64
  tokens : List TokenMapping

/-- The command timeout in nanoseconds; thirty seconds if none is configured. -/
def Config.timeout (cfg : Config) : Int64 :=
  let timeout := cfg.commandTimeoutSeconds * 1000000000
  if timeout = 0 then 30000000000 else timeout

/-- The vehicle of a token. -/
def getVinForToken (cfg : Config) (token : String) : Option String :=
  (cfg.tokens.find? fun tm => tm.token = token).map TokenMapping.vin

/-- The vehicle in a URL path, empty for a path that is not under `/vehicles/`. -/
def extractVinFromPath (path : String) : String :=
  let chars := path.toList
  let trimmed := if ['/'] <+: chars then chars.tail else chars
  match trimmed.splitOn '/' with
  | first :: vin :: _ => if first = "vehicles".toList then String.ofList vin else ""
  | _ => ""

example : extractVinFromPath "/vehicles/VIN12345/commands" = "VIN12345" := by decide

/-- The handler a request is routed to, with what only that handler reads. -/
inductive Route
  | submitCommand (body : Option Json)
  | getCommandStatus (commandId : String)
  | health

/-- A routed request: its decoded path, the path value of the vehicle, and the header. -/
structure HttpRequest where
  urlPath : String
  vin : String
  authorization : String
  route : Route

/-- The refusal of a request, `none` if it is let through. -/
def middleware (cfg : Config) (r : HttpRequest) : Option HttpResponse :=
  if r.authorization = "" ∨ ¬ "Bearer ".toList <+: r.authorization.toList then
    some (errorResponse 401 "unauthorized")
  else
    match getVinForToken cfg (extractToken r.authorization) with
    | none => some (errorResponse 401 "unauthorized")
    | some tokenVin =>
        if extractVinFromPath r.urlPath ≠ tokenVin then some (errorResponse 403 "forbidden")
        else none

/-! ### Responses -/

/-- Decoding one field of a response. -/
def decodeResponseField (resp : CommandResponse) (field : String × Json) :
    Option CommandResponse :=
  match fieldFor ["command_id", "status", "reason"] field.1 with
  | some "command_id" =>
      (decodeString resp.commandId field.2).map fun s => { resp with commandId := s }
  | some "status" => (decodeString resp.status field.2).map fun s => { resp with status := s }
  | some "reason" => (decodeString resp.reason field.2).map fun s => { resp with reason := s }
  | _ => some resp

/-- Decoding the data of a message, `none` if it is not one JSON value. -/
def decodeResponse : Option Json → Option CommandResponse
  | some (.obj fields) => fields.foldlM decodeResponseField ⟨"", "", ""⟩
  | some .null => some ⟨"", "", ""⟩
  | _ => none

/-- The JSON of a response; an empty reason is left out. -/
def encodeResponse (resp : CommandResponse) : Json :=
  .obj ([("command_id", .str resp.commandId), ("status", .str resp.status)] ++
    if resp.reason = "" then [] else [("reason", .str resp.reason)])

/-- The handler of `GET /vehicles/{vin}/commands/{command_id}`. -/
def getCommandStatus (s : Store) (commandId : String) : HttpResponse :=
  match s.getResponse commandId with
  | none => errorResponse 404 "command not found"
  | some resp => ⟨200, encodeResponse resp⟩

/-- The handler of `GET /health`. -/
def healthHandler : HttpResponse := ⟨200, .obj [("status", .str "ok")]⟩

/-! ### The steps of the gateway -/

/-- The store, and for each command id the answers of the submissions that are published but have
not started their timeout yet. -/
structure Gateway where
  store : Store
  inFlight : String → List HttpResponse

/-- The gateway when it starts. -/
def Gateway.init : Gateway := ⟨.new, fun _ => []⟩

/-- A step of the gateway: a request is handled, where `published` says whether the NATS connection
takes a message; a submission in flight goes on; a message arrives on the response subject of a
vehicle; a timer fires; its callback runs. -/
inductive Event
  | request (r : HttpRequest) (published : Bool)
  | startTimeout (commandId : String) (k : ℕ)
  | message (vin : String) (data : Option Json)
  | fire (commandId : String) (n : ℕ)
  | callback (commandId : String) (n : ℕ)

/-- A submission is published and has its timeout still to start. -/
def Gateway.enqueue (g : Gateway) (commandId : String) (response : HttpResponse) : Gateway :=
  { g with
    inFlight := Function.update g.inFlight commandId (g.inFlight commandId ++ [response]) }

/-- Handling a request: the state after it, and the answer if it is given at once. -/
def Gateway.serve (cfg : Config) (g : Gateway) (r : HttpRequest) (published : Bool) :
    Gateway × Option HttpResponse :=
  match r.route with
  | .health => (g, some healthHandler)
  | .submitCommand body =>
      match middleware cfg r with
      | some refusal => (g, some refusal)
      | none =>
          -- once published, the submission is answered only after its timeout has been started
          let sub := submitCommand (fun _ => published) ⟨r.vin, r.authorization, body⟩
          match sub.timeoutFor with
          | some commandId => (g.enqueue commandId sub.response, none)
          | none => (g, some sub.response)
  | .getCommandStatus commandId =>
      match middleware cfg r with
      | some refusal => (g, some refusal)
      | none => (g, some (getCommandStatus g.store commandId))

/-- A submission in flight starts its timeout and is answered. -/
def Gateway.startTimeout (cfg : Config) (g : Gateway) (commandId : String) (k : ℕ) :
    Gateway × Option HttpResponse :=
  match (g.inFlight commandId)[k]? with
  | some response =>
      (⟨g.store.startTimeout commandId cfg.timeout,
        Function.update g.inFlight commandId ((g.inFlight commandId).eraseIdx k)⟩, some response)
  | none => (g, none)

/-- A message on a response subject; one that cannot be decoded is dropped. -/
def Gateway.receive (g : Gateway) (data : Option Json) : Gateway :=
  match decodeResponse data with
  | some resp => { g with store := g.store.storeResponse resp }
  | none => g

/-- Handling an event: the state after it, and the answer to a request, if one is given. -/
def Gateway.handle (cfg : Config) (g : Gateway) : Event → Gateway × Option HttpResponse
  | .request r published => g.serve cfg r published
  | .startTimeout commandId k => g.startTimeout cfg commandId k
  | .message _ data => (g.receive data, none)
  | .fire commandId n => ({ g with store := g.store.fire commandId n }, none)
  | .callback commandId n => ({ g with store := g.store.callback commandId n }, none)

/-- The state after an event. -/
def Gateway.next (cfg : Config) (g : Gateway) (e : Event) : Gateway := (g.handle cfg e).1

/-- The answer given at an event. -/
def Gateway.answer (cfg : Config) (g : Gateway) (e : Event) : Option HttpResponse :=
  (g.handle cfg e).2

/-- The timeout of a submission is for the command that its body decodes to. -/
theorem decodeCommand_of_timeoutFor {conn : NatsMsg → Bool} {r : SubmitRequest}
    {commandId : String} (h : (submitCommand conn r).timeoutFor = some commandId) :
    (decodeCommand r.body).map Command.commandId = some commandId := by
  rw [submitCommand] at h
  cases hcmd : decodeCommand r.body with
  | none => simp [hcmd] at h
  | some cmd =>
      rw [hcmd] at h
      dsimp only at h
      split at h
      · cases h
      · split at h
        · cases h
        · split at h
          · exact h
          · cases h

end CloudGateway
