/-
**The broker client of the locking service.**

The locking service reads two sensors and writes two signals through the data broker's gRPC API.  A
read is an RPC that may fail; its answer may lack a data point, a value or a typed value, and the
typed value may be of any variant.  The client turns all of these but a failed RPC and a value of
the type it looks for into "nothing".

Main definitions:

* `LockingService.TypedValue`, `LockingService.GetValueResponse` — what the broker may answer;
* `LockingService.getFloat`, `LockingService.getBool` — the two reads.
-/

import ParkingFeeService.BinaryFloat

set_option relaxedAutoImplicit false
set_option autoImplicit false

namespace LockingService

/-- Errors in the communication with the data broker. -/
inductive BrokerError
  | connectionFailed (msg : String)
  | rpcError (msg : String)
  deriving DecidableEq, Repr

def signalSpeed : String := "Vehicle.Speed"

def signalDoorOpen : String := "Vehicle.Cabin.Door.Row1.DriverSide.IsOpen"

def signalIsLocked : String := "Vehicle.Cabin.Door.Row1.DriverSide.IsLocked"

def signalResponse : String := "Vehicle.Command.Door.Response"

/-- The single-precision numbers. -/
abbrev F32 : Type := BinaryFloat .binary32

/-- The double-precision numbers. -/
abbrev F64 : Type := BinaryFloat .binary64

/-- The variants of a typed value. -/
inductive TypedValue
  | string (v : String)
  | bool (v : Bool)
  | int32 (v : Int32)
  | int64 (v : Int64)
  | uint32 (v : UInt32)
  | uint64 (v : UInt64)
  | float (v : F32)
  | double (v : F64)
  | stringArray (values : List String)
  | boolArray (values : List Bool)
  | int32Array (values : List Int32)
  | int64Array (values : List Int64)
  | uint32Array (values : List UInt32)
  | uint64Array (values : List UInt64)
  | floatArray (values : List F32)
  | doubleArray (values : List F64)
  deriving DecidableEq

/-- A value of a signal. -/
structure Value where
  typedValue : Option TypedValue
  deriving DecidableEq

/-- A data point of a signal. -/
structure Datapoint where
  value : Option Value
  deriving DecidableEq

/-- The answer to a read. -/
structure GetValueResponse where
  dataPoint : Option Datapoint
  deriving DecidableEq

/-- The typed value of an answer, if the signal was ever given one. -/
def GetValueResponse.typedValue (inner : GetValueResponse) : Option TypedValue :=
  (inner.dataPoint.bind Datapoint.value).bind Value.typedValue

/-- Reading a float signal: a double is narrowed, and a value of any other type is no value. -/
def getFloat (signal : String) : Except String GetValueResponse → Except BrokerError (Option F32)
  | .error e => .error (.rpcError ("get_float(" ++ signal ++ "): " ++ e))
  | .ok inner =>
      match inner.typedValue with
      | some (.float f) => .ok (some f)
      | some (.double d) => .ok (some (d.convert .binary32))
      | _ => .ok none

/-- Reading a boolean signal: a value of any other type is no value. -/
def getBool (signal : String) : Except String GetValueResponse → Except BrokerError (Option Bool)
  | .error e => .error (.rpcError ("get_bool(" ++ signal ++ "): " ++ e))
  | .ok inner =>
      match inner.typedValue with
      | some (.bool b) => .ok (some b)
      | _ => .ok none

end LockingService
