/-
**The operator's REST client.**

The adaptor posts a request and tries again when the request or its reply is lost, or the reply is
not a success; it cannot tell whether the operator has handled the request.  The network decides of
every attempt how it ends.

Main definitions:

* `ParkingOperatorAdaptor.Delivery`, `ParkingOperatorAdaptor.Network` — what the network does;
* `ParkingOperatorAdaptor.postWithRetry` — a request with its retries;
* `ParkingOperatorAdaptor.environment` — the event loop's operator and broker.
-/

import ParkingFeeService.AdaptorEventLoop
import ParkingFeeService.OperatorServer
import ParkingFeeService.Retry

set_option relaxedAutoImplicit false
set_option autoImplicit false

namespace ParkingOperatorAdaptor

open ParkingOperator (Store Uuids RequestError)

/-- The maximum number of retries after the initial attempt. -/
def maxRetries : ℕ := 3

/-- How an attempt ends: the request is lost; it is handled, but the reply is lost or comes with a
status that is no success; or the operator's reply arrives. -/
inductive Delivery
  | requestLost (error : String)
  | replyLost (error : String)
  | delivered
  deriving DecidableEq

/-- How an HTTP status reads. -/
def statusText : ℕ → String
  | 400 => "400 Bad Request"
  | 404 => "404 Not Found"
  | status => toString status

variable {α β : Type}

/-- One attempt to post a request that the operator handles as given. -/
def post (handle : Store → Except RequestError α × Store) (decode : α → β) (d : Delivery)
    (s : Store) : Except String β × Store :=
  match d with
  | .requestLost e => (.error e, s)
  | .replyLost e => (.error e, (handle s).2)
  | .delivered =>
      match handle s with
      | (.ok resp, s') => (.ok (decode resp), s')
      | (.error e, s') => (.error ("HTTP " ++ statusText e.status), s')

/-- Posting a request with its retries. -/
def postWithRetry (handle : Store → Except RequestError α × Store) (decode : α → β)
    (attempts : ℕ → Delivery) (s : Store) : Except OperatorError β × Store :=
  match retry (fun k => post handle decode (attempts k)) maxRetries s with
  | (.ok resp, s') => (.ok resp, s')
  | (.error e, s') => (.error (.requestFailed e), s')

/-- The reading of the operator's replies, which always succeeds and keeps the id.  So the operator
is one whose replies the adaptor understands; the mock operator names a field of its start replies
otherwise. -/
structure ReplyDecoding where
  start : ParkingOperator.StartResponse → StartResponse
  stop : ParkingOperator.StopResponse → StopResponse
  start_sessionId : ∀ resp, (start resp).sessionId = resp.sessionId

/-- What the network, the clocks and the broker do while an event is handled. -/
structure Network where
  attempts : ℕ → Delivery
  timestamp : Int64
  startTime : Int64
  published : Except String Unit

/-- The environment of the event loop: the operator behind the network. -/
def environment (uuids : Uuids) (decoding : ReplyDecoding) (n : Network) : Environment Store where
  operator :=
    { startSession := fun vehicleId zoneId =>
        postWithRetry
          (ParkingOperator.handleStart uuids (.ok ⟨vehicleId, zoneId, n.timestamp⟩))
          decoding.start n.attempts
      stopSession := fun sessionId =>
        postWithRetry (ParkingOperator.handleStop (.ok ⟨sessionId, n.timestamp⟩))
          decoding.stop n.attempts }
  broker := { setBool := fun _ _ s => (n.published, s) }
  unixTimestamp := fun _ => n.startTime

end ParkingOperatorAdaptor
