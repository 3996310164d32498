/-
**The safety gate of the locking service.**

A lock command must be refused unless the vehicle is known to stand and the door to be closed, where
a signal that was never set counts as safe.  The gate reads "nothing" as safe, and the broker client
reads a failed RPC and a value of another type as nothing; NaN is not at least one.  All of these
are let through.

The gate does what it must exactly when no such reading is let through.  Narrowing a double to
single precision does no harm: rounding does not fall below one.

Main definitions:

* `LockingService.SpeedSafe`, `LockingService.DoorSafe` — the readings that permit locking;
* `LockingService.GateHolds` — a lock command succeeds only on such readings, and otherwise changes
  nothing;
* `LockingService.SpeedBlocks`, `LockingService.DoorBlocks`, `LockingService.SpeedFailsOpen`,
  `LockingService.DoorFailsOpen` — the readings that the gate refuses, and those it should.

Main results:

* `LockingService.gateHolds_iff` — when the gate does what it must;
* `LockingService.lock_with_failed_speed_read` — a lock command that succeeds without a speed.
-/

import ParkingFeeService.LockingProcess

set_option relaxedAutoImplicit false
set_option autoImplicit false

namespace LockingService

/-! ### What the gate is for -/

/-- The value is a number below one. -/
def TypedValue.BelowOne : TypedValue → Prop
  | .float f => f.Lt 1
  | .double d => d.Lt 1
  | .int32 n => n.toInt < 1
  | .int64 n => n.toInt < 1
  | .uint32 n => n.toNat < 1
  | .uint64 n => n.toNat < 1
  | _ => False

/-- The speed was read, and is unset or a number below one. -/
def SpeedSafe : Except String GetValueResponse → Prop
  | .error _ => False
  | .ok inner => ∀ v ∈ inner.typedValue, v.BelowOne

/-- The door state was read, and is unset or closed. -/
def DoorSafe : Except String GetValueResponse → Prop
  | .error _ => False
  | .ok inner => ∀ v ∈ inner.typedValue, v = .bool false

/-- The call writes the lock signal. -/
def Call.WritesIsLocked : Call → Prop
  | .setBool signal _ _ => signal = signalIsLocked
  | _ => False

/-- A lock command succeeds with the state locked on safe readings; otherwise it fails, leaves the
state as it was and does not write the lock signal. -/
def GateHolds (b : Broker) (cmd : LockCommand) (lockState : Bool) : Prop :=
  let o := processCommand b cmd lockState
  (o.response.status = "success" ∧ o.lockState = true ∧
      SpeedSafe (b.getValue signalSpeed) ∧ DoorSafe (b.getValue signalDoorOpen)) ∨
    (o.response.status = "failed" ∧ o.lockState = lockState ∧ ∀ c ∈ o.calls, ¬ c.WritesIsLocked)

/-! ### What the gate does with a reading -/

/-- The gate refuses the value as a speed: a float of at least one, or a double that is narrowed to
one. -/
def TypedValue.BlocksAsSpeed : TypedValue → Prop
  | .float f => f.Ge 1
  | .double d => (d.convert .binary32).Ge 1
  | _ => False

/-- The value is not a number below one, but is let through as a speed: a NaN, an integer of at
least one, or no number at all. -/
def TypedValue.FailsOpenAsSpeed : TypedValue → Prop
  | .float f => f = .nan
  | .double d => d = .nan
  | .int32 n => 1 ≤ n.toInt
  | .int64 n => 1 ≤ n.toInt
  | .uint32 n => 1 ≤ n.toNat
  | .uint64 n => 1 ≤ n.toNat
  | _ => True

/-- The value is let through as a door state without being one. -/
def TypedValue.FailsOpenAsDoor : TypedValue → Prop
  | .bool _ => False
  | _ => True

/-- The gate refuses the speed reading. -/
def SpeedBlocks : Except String GetValueResponse → Prop
  | .error _ => False
  | .ok inner => ∃ v ∈ inner.typedValue, v.BlocksAsSpeed

/-- The gate refuses the door reading. -/
def DoorBlocks : Except String GetValueResponse → Prop
  | .error _ => False
  | .ok inner => inner.typedValue = some (.bool true)

/-- The gate should refuse the speed reading but lets it through. -/
def SpeedFailsOpen : Except String GetValueResponse → Prop
  | .error _ => True
  | .ok inner => ∃ v ∈ inner.typedValue, v.FailsOpenAsSpeed

/-- The gate should refuse the door reading but lets it through. -/
def DoorFailsOpen : Except String GetValueResponse → Prop
  | .error _ => True
  | .ok inner => ∃ v ∈ inner.typedValue, v.FailsOpenAsDoor

theorem zero_not_ge_one : ¬ (.finite false 0 (-149) (by decide) : F32).Ge 1 := by
  decide +kernel

/-- The gate refuses exactly these speed readings. -/
theorem gateSpeed_ge_one_iff (b : Broker) :
    (gateSpeed b).Ge 1 ↔ SpeedBlocks (b.getValue signalSpeed) := by
  simp only [gateSpeed, SpeedBlocks, getFloat]
  cases b.getValue signalSpeed with
  | error e => simpa [Except.toOption] using zero_not_ge_one
  | ok inner =>
      cases hv : inner.typedValue with
      | none => simpa [Except.toOption, hv] using zero_not_ge_one
      | some v =>
          -- a value of another type becomes the default speed
          cases v with
          | float f => simp [Except.toOption, hv, TypedValue.BlocksAsSpeed]
          | double d => simp [Except.toOption, hv, TypedValue.BlocksAsSpeed]
          | _ => simpa [Except.toOption, hv, TypedValue.BlocksAsSpeed] using zero_not_ge_one

/-- The gate refuses exactly these door readings. -/
theorem gateDoorOpen_iff (b : Broker) :
    gateDoorOpen b = true ↔ DoorBlocks (b.getValue signalDoorOpen) := by
  simp only [gateDoorOpen, DoorBlocks, getBool]
  cases b.getValue signalDoorOpen with
  | error e => simp [Except.toOption]
  | ok inner =>
      cases hv : inner.typedValue with
      | none => simp [Except.toOption, hv]
      | some v => cases v <;> simp [Except.toOption, hv]

/-- A number that is narrowed to a single below one is below one. -/
theorem lt_one_of_convert {d : F64} (h : ¬ (d.convert .binary32).Ge 1) (hnan : d ≠ .nan) :
    d.Lt 1 := by
  rw [BinaryFloat.lt_iff_not_ge hnan]
  intro hge
  have hconv := BinaryFloat.ge_convert (G := .binary32) (j := 0) (by decide) (by simpa using hge)
  exact h (by simpa using hconv)

theorem not_lt_nan {F : FloatFormat} {q : ℚ} {x : BinaryFloat F} (h : x.Lt q) : x ≠ .nan := by
  rintro rfl
  exact h

/-- Of the values that are let through as speeds, the numbers below one are those that do not fail
open. -/
theorem belowOne_iff {v : TypedValue} (h : ¬ v.BlocksAsSpeed) :
    v.BelowOne ↔ ¬ v.FailsOpenAsSpeed := by
  cases v with
  | float f => exact ⟨not_lt_nan, fun hnan => (BinaryFloat.lt_iff_not_ge hnan).2 h⟩
  | double d => exact ⟨not_lt_nan, lt_one_of_convert h⟩
  | int32 n | int64 n | uint32 n | uint64 n =>
      simp [TypedValue.BelowOne, TypedValue.FailsOpenAsSpeed]
  | _ => simp [TypedValue.BelowOne, TypedValue.FailsOpenAsSpeed]

theorem speedSafe_iff {r : Except String GetValueResponse} (h : ¬ SpeedBlocks r) :
    SpeedSafe r ↔ ¬ SpeedFailsOpen r := by
  cases r with
  | error e => simp [SpeedSafe, SpeedFailsOpen]
  | ok inner =>
      constructor
      · rintro hsafe ⟨v, hv, hopen⟩
        exact (belowOne_iff fun hb => h ⟨v, hv, hb⟩).1 (hsafe v hv) hopen
      · intro hopen v hv
        exact (belowOne_iff fun hb => h ⟨v, hv, hb⟩).2 fun ho => hopen ⟨v, hv, ho⟩

theorem doorSafe_iff {r : Except String GetValueResponse} (h : ¬ DoorBlocks r) :
    DoorSafe r ↔ ¬ DoorFailsOpen r := by
  cases r with
  | error e => simp [DoorSafe, DoorFailsOpen]
  | ok inner =>
      constructor
      · rintro hsafe ⟨v, hv, hopen⟩
        rw [hsafe v hv] at hopen
        exact hopen
      · intro hopen v hv
        cases v with
        | bool isOpen =>
            cases isOpen with
            | false => rfl
            | true => exact absurd hv h
        | _ => exact absurd ⟨_, hv, trivial⟩ hopen

/-! ### The gate -/

theorem checkSafety_safe_iff (b : Broker) : (checkSafety b).1 = .safe ↔
    ¬ SpeedBlocks (b.getValue signalSpeed) ∧ ¬ DoorBlocks (b.getValue signalDoorOpen) := by
  rw [checkSafety_eq_safe_iff, gateSpeed_ge_one_iff, ← gateDoorOpen_iff, Bool.not_eq_true]

/-- A command that is refused does what the gate is for. -/
theorem gateHolds_of_not_safe {b : Broker} {cmd : LockCommand} {lockState : Bool}
    (hcmd : cmd.action = .lock) (h : (checkSafety b).1 ≠ .safe) : GateHolds b cmd lockState := by
  obtain ⟨reason, ho⟩ := processLock_of_not_safe b cmd lockState h
  refine .inr ?_
  simp only [processCommand, hcmd, ho, failureResponse_status, true_and]
  intro c hc
  rcases List.mem_append.1 hc with hc | hc
  · obtain ⟨signal, rfl⟩ := checkSafety_calls b c hc
    exact id
  · rw [List.mem_singleton.1 hc]
    exact id

/-- A command that is let through does what the gate is for exactly on safe readings. -/
theorem gateHolds_iff_of_safe {b : Broker} {cmd : LockCommand} {lockState : Bool}
    (hcmd : cmd.action = .lock) (h : (checkSafety b).1 = .safe) :
    GateHolds b cmd lockState ↔
      SpeedSafe (b.getValue signalSpeed) ∧ DoorSafe (b.getValue signalDoorOpen) := by
  rw [GateHolds]
  simp [processCommand, hcmd, processLock_of_safe b _ _ h]

/-- **The gate does what it must** exactly if one of the readings is refused or neither of them is
one that fails open. -/
theorem gateHolds_iff {b : Broker} {cmd : LockCommand} {lockState : Bool}
    (hcmd : cmd.action = .lock) :
    GateHolds b cmd lockState ↔
      SpeedBlocks (b.getValue signalSpeed) ∨ DoorBlocks (b.getValue signalDoorOpen) ∨
        ¬ SpeedFailsOpen (b.getValue signalSpeed) ∧
          ¬ DoorFailsOpen (b.getValue signalDoorOpen) := by
  by_cases hsafe : (checkSafety b).1 = .safe
  · obtain ⟨hspeed, hdoor⟩ := (checkSafety_safe_iff b).1 hsafe
    rw [gateHolds_iff_of_safe hcmd hsafe, speedSafe_iff hspeed, doorSafe_iff hdoor]
    simp [hspeed, hdoor]
  · -- both sides hold: the gate refuses, and it does so because of one of the readings
    have hblocks :
        SpeedBlocks (b.getValue signalSpeed) ∨ DoorBlocks (b.getValue signalDoorOpen) := by
      by_contra hno
      exact hsafe ((checkSafety_safe_iff b).2 (not_or.1 hno))
    refine ⟨fun _ => ?_, fun _ => gateHolds_of_not_safe hcmd hsafe⟩
    rcases hblocks with hspeed | hdoor
    · exact .inl hspeed
    · exact .inr (.inl hdoor)

/-- A lock command for the driver's door. -/
def lockCommand : LockCommand := ⟨"cmd-1", .lock, ["driver"], none, none, none⟩

/-- A broker in which the vehicle drives at 50 km/h with the door closed. -/
def driving : Broker where
  getValue := fun signal =>
    if signal = signalSpeed then
      .ok ⟨some ⟨some ⟨some (.float (.finite false 13107200 (-18) (by decide)))⟩⟩⟩
    else .ok ⟨some ⟨some ⟨some (.bool false)⟩⟩⟩
  setBool := fun _ _ => true
  setString := fun _ => true
  unixSecs := 1700000000

theorem gateHolds_iff_driving :
    GateHolds driving lockCommand false ↔
      SpeedBlocks (driving.getValue signalSpeed) ∨ DoorBlocks (driving.getValue signalDoorOpen) ∨
        ¬ SpeedFailsOpen (driving.getValue signalSpeed) ∧
          ¬ DoorFailsOpen (driving.getValue signalDoorOpen) :=
  gateHolds_iff rfl

/-- A broker whose reads of the speed fail. -/
def speedUnreadable : Broker where
  getValue := fun signal =>
    if signal = signalSpeed then .error "unavailable" else .ok ⟨some ⟨some ⟨some (.bool false)⟩⟩⟩
  setBool := fun _ _ => true
  setString := fun _ => true
  unixSecs := 1700000000

/-- **A lock command succeeds although the speed could not be read.** -/
theorem lock_with_failed_speed_read :
    ¬ ∀ (b : Broker) (cmd : LockCommand) (lockState : Bool), cmd.action = .lock →
      GateHolds b cmd lockState := by
  intro hall
  rcases hall speedUnreadable lockCommand false rfl with ⟨-, -, hspeed, -⟩ | ⟨hstatus, -⟩
  · exact hspeed
  · revert hstatus
    decide +kernel

end LockingService
