/-
**Telemetry snapshots.**

The telemetry state keeps the last value received of each signal.  An update yields the message with
all of them unless the signal had an equal value already.  Equality is that of `f64`, so NaN is
never a repetition, and JSON has no NaN and no infinities: `serde_json` writes `null` for them.

Main definitions:

* `CloudGatewayClient.TelemetryState`, `CloudGatewayClient.TelemetryState.update` — the state and
  its updates;
* `CloudGatewayClient.latest` — the value of a signal received last;
* `CloudGatewayClient.SnapshotOf` — a message that decodes to the latest values;
* `CloudGatewayClient.Faithful` — an update yields a message as it should.

Main results:

* `CloudGatewayClient.stateAfter_eq` — the state holds the latest values;
* `CloudGatewayClient.repeated_nan_published` — a repetition that is published;
* `CloudGatewayClient.faithful_iff` — which updates yield a message as they should.
-/

import ParkingFeeService.DecimalFloat
import Mathlib.Data.List.Induction
import Mathlib.Data.Option.Basic

set_option relaxedAutoImplicit false
set_option autoImplicit false

/-- What `serde_json` writes for an `f64`: there is no literal for NaN and the infinities. -/
def FloatText.serializeF64 (c : FloatText) (x : BinaryFloat .binary64) : Json :=
  if x.IsFinite then .num (c.write x) else .null

namespace CloudGatewayClient

/-! ### The telemetry state -/

/-- An update of a signal. -/
inductive SignalUpdate
  | isLocked (v : Bool)
  | latitude (v : BinaryFloat .binary64)
  | longitude (v : BinaryFloat .binary64)
  | parkingActive (v : Bool)
  deriving DecidableEq

/-- The current values of the signals. -/
structure TelemetryState where
  vin : String
  isLocked : Option Bool := none
  latitude : Option (BinaryFloat .binary64) := none
  longitude : Option (BinaryFloat .binary64) := none
  parkingActive : Option Bool := none

/-- A field that is left out if it has no value. -/
def optionalField (name : String) (v : Option Json) : List (String × Json) :=
  (v.map fun v => (name, v)).toList

/-- `self.latitude != Some(v)`. -/
def differs (old : Option (BinaryFloat .binary64)) (v : BinaryFloat .binary64) : Bool :=
  match old with
  | none => true
  | some x => !decide (x.Eqv v)

theorem differs_eq_false_iff {old : Option (BinaryFloat .binary64)} {v : BinaryFloat .binary64} :
    differs old v = false ↔ ∃ x, old = some x ∧ x.Eqv v := by
  cases old <;> simp [differs]

namespace TelemetryState

/-- The message with all values that are known. -/
def message (c : FloatText) (timestamp : UInt64) (s : TelemetryState) : Json :=
  .obj ([("vin", .str s.vin)] ++ optionalField "is_locked" (s.isLocked.map .bool) ++
    optionalField "latitude" (s.latitude.map c.serializeF64) ++
    optionalField "longitude" (s.longitude.map c.serializeF64) ++
    optionalField "parking_active" (s.parkingActive.map .bool) ++
    [("timestamp", .num (.int timestamp.toNat))])

/-- The new value is compared with the current one and replaces it. -/
def assign (s : TelemetryState) : SignalUpdate → Bool × TelemetryState
  | .isLocked v => (s.isLocked != some v, { s with isLocked := some v })
  | .latitude v => (differs s.latitude v, { s with latitude := some v })
  | .longitude v => (differs s.longitude v, { s with longitude := some v })
  | .parkingActive v => (s.parkingActive != some v, { s with parkingActive := some v })

/-- An update: the message if a value has changed, and the new state. -/
def update (c : FloatText) (timestamp : UInt64) (s : TelemetryState) (signal : SignalUpdate) :
    Option Json × TelemetryState :=
  let (changed, s) := s.assign signal
  if changed then (some (s.message c timestamp), s) else (none, s)

theorem update_snd (c : FloatText) (timestamp : UInt64) (s : TelemetryState)
    (signal : SignalUpdate) : (s.update c timestamp signal).2 = (s.assign signal).2 := by
  rw [update]
  rcases s.assign signal with ⟨_ | _, s'⟩ <;> rfl

theorem update_fst (c : FloatText) (timestamp : UInt64) (s : TelemetryState)
    (signal : SignalUpdate) :
    (s.update c timestamp signal).1 =
      if (s.assign signal).1 then some ((s.assign signal).2.message c timestamp) else none := by
  rw [update]
  rcases s.assign signal with ⟨_ | _, s'⟩ <;> rfl

end TelemetryState

/-! ### What the state holds -/

/-- The state after the updates, each at its time, from the start. -/
def stateAfter (c : FloatText) (vin : String) (us : List (UInt64 × SignalUpdate)) :
    TelemetryState :=
  us.foldl (fun s u => (s.update c u.1 u.2).2) { vin }

/-- The values of the four signals. -/
def SignalUpdate.asLocked : SignalUpdate → Option Bool
  | .isLocked v => some v
  | _ => none

def SignalUpdate.asLatitude : SignalUpdate → Option (BinaryFloat .binary64)
  | .latitude v => some v
  | _ => none

def SignalUpdate.asLongitude : SignalUpdate → Option (BinaryFloat .binary64)
  | .longitude v => some v
  | _ => none

def SignalUpdate.asParking : SignalUpdate → Option Bool
  | .parkingActive v => some v
  | _ => none

open SignalUpdate (asLocked asLatitude asLongitude asParking)

/-- The value of a signal received last. -/
def latest {α : Type} (read : SignalUpdate → Option α) (us : List (UInt64 × SignalUpdate)) :
    Option α :=
  (us.filterMap fun u => read u.2).getLast?

theorem latest_concat {α : Type} (read : SignalUpdate → Option α)
    (us : List (UInt64 × SignalUpdate)) (u : UInt64 × SignalUpdate) :
    latest read (us ++ [u]) = (read u.2).or (latest read us) := by
  rw [latest, List.filterMap_append, List.getLast?_append]
  cases h : read u.2 <;> simp [h, latest]

/-- **The state holds the latest values.** -/
theorem stateAfter_eq (c : FloatText) (vin : String) (us : List (UInt64 × SignalUpdate)) :
    stateAfter c vin us = ⟨vin, latest asLocked us, latest asLatitude us, latest asLongitude us,
      latest asParking us⟩ := by
  induction us using List.reverseRecOn with
  | nil => rfl
  | append_singleton us u ih =>
      rw [stateAfter, List.foldl_concat, ← stateAfter, ih, TelemetryState.update_snd]
      simp only [latest_concat]
      cases u.2 <;> rfl

/-! ### What a message says -/

/-- A number that is read as one with the value of `x`. -/
def NumberIs (c : FloatText) (x : BinaryFloat .binary64) (v : Json) : Prop :=
  ∃ y, c.asF64 v = some y ∧ y.Eqv x

/-- The message decodes to the VIN and the latest value of each signal, without a field for a signal
that was never received. -/
def SnapshotOf (c : FloatText) (vin : String) (us : List (UInt64 × SignalUpdate)) (json : Json) :
    Prop :=
  ∃ fields, json = .obj fields ∧ Json.get fields "vin" = some (.str vin) ∧
    Option.Rel (fun b v => v = .bool b) (latest asLocked us) (Json.get fields "is_locked") ∧
    Option.Rel (NumberIs c) (latest asLatitude us) (Json.get fields "latitude") ∧
    Option.Rel (NumberIs c) (latest asLongitude us) (Json.get fields "longitude") ∧
    Option.Rel (fun b v => v = .bool b) (latest asParking us) (Json.get fields "parking_active")

/-- The signal was already set to that same value. -/
def Repeats (us : List (UInt64 × SignalUpdate)) : SignalUpdate → Prop
  | .isLocked v => latest asLocked us = some v
  | .latitude v => ∃ x, latest asLatitude us = some x ∧ x.Same v
  | .longitude v => ∃ x, latest asLongitude us = some x ∧ x.Same v
  | .parkingActive v => latest asParking us = some v

/-- **An update yields a message as it should:** none for a repetition, and else a snapshot. -/
def Faithful (c : FloatText) (vin : String) (us : List (UInt64 × SignalUpdate))
    (u : UInt64 × SignalUpdate) : Prop :=
  (((stateAfter c vin us).update c u.1 u.2).1 = none ↔ Repeats us u.2) ∧
    ∀ json, ((stateAfter c vin us).update c u.1 u.2).1 = some json →
      SnapshotOf c vin (us ++ [u]) json

/-- The new value is not NaN. -/
def SignalUpdate.NotNan : SignalUpdate → Prop
  | .latitude v | .longitude v => v ≠ .nan
  | .isLocked _ | .parkingActive _ => True

/-- The latest coordinates are finite, where they have been received. -/
def CoordinatesFinite (us : List (UInt64 × SignalUpdate)) : Prop :=
  (∀ x, latest asLatitude us = some x → x.IsFinite) ∧
    ∀ x, latest asLongitude us = some x → x.IsFinite

theorem get_optionalField (name name' : String) (v : Option Json) :
    Json.get (optionalField name' v) name = if name' = name then v else none := by
  cases v with
  | none => simp [optionalField, Json.get]
  | some v => simp [optionalField, Json.get_singleton]

/-- The fields of a message. -/
theorem exists_message_eq (c : FloatText) (timestamp : UInt64) (s : TelemetryState) :
    ∃ fields, s.message c timestamp = .obj fields ∧
      Json.get fields "vin" = some (.str s.vin) ∧
      Json.get fields "is_locked" = s.isLocked.map .bool ∧
      Json.get fields "latitude" = s.latitude.map c.serializeF64 ∧
      Json.get fields "longitude" = s.longitude.map c.serializeF64 ∧
      Json.get fields "parking_active" = s.parkingActive.map .bool := by
  refine ⟨_, rfl, ?_⟩
  simp only [Json.get_append, Json.get_singleton, get_optionalField]
  simp

theorem rel_bool (b : Option Bool) :
    Option.Rel (fun b v => v = Json.bool b) b (b.map Json.bool) := by
  cases b with
  | none => exact .none
  | some b => exact .some rfl

/-- A coordinate can be read from the message exactly if it is finite. -/
theorem rel_number_iff {c : FloatText} (hc : ∀ x, x.IsFinite → c.Reads x)
    (x : Option (BinaryFloat .binary64)) :
    Option.Rel (NumberIs c) x (x.map c.serializeF64) ↔ ∀ y, x = some y → y.IsFinite := by
  cases x with
  | none => exact iff_of_true .none (by simp)
  | some x =>
      simp only [Option.map_some, Option.rel_some_some, Option.some.injEq, forall_eq',
        FloatText.serializeF64]
      by_cases h : x.IsFinite
      · rw [if_pos h]
        obtain ⟨y, hy, heqv⟩ := hc x h
        exact iff_of_true ⟨y, hy, heqv⟩ h
      · rw [if_neg h]
        refine iff_of_false ?_ h
        rintro ⟨y, hy, -⟩
        cases hy

/-- **A message is a snapshot exactly if the coordinates it gives are finite.** -/
theorem snapshotOf_message_iff {c : FloatText} (hc : ∀ x, x.IsFinite → c.Reads x) (vin : String)
    (us : List (UInt64 × SignalUpdate)) (timestamp : UInt64) :
    SnapshotOf c vin us ((stateAfter c vin us).message c timestamp) ↔ CoordinatesFinite us := by
  obtain ⟨fields, hmessage, hvin, hlocked, hlat, hlon, hparking⟩ :=
    exists_message_eq c timestamp (stateAfter c vin us)
  rw [stateAfter_eq] at hvin hlocked hlat hlon hparking
  rw [hmessage, CoordinatesFinite, ← rel_number_iff hc, ← rel_number_iff hc]
  constructor
  · rintro ⟨fields', hfields, -, -, hlat', hlon', -⟩
    cases hfields
    rw [hlat] at hlat'
    rw [hlon] at hlon'
    exact ⟨hlat', hlon'⟩
  · rintro ⟨hlat', hlon'⟩
    refine ⟨fields, rfl, hvin, ?_, ?_, ?_, ?_⟩
    · rw [hlocked]
      exact rel_bool _
    · rwa [hlat]
    · rwa [hlon]
    · rw [hparking]
      exact rel_bool _

/-- The code takes an update for a repetition exactly if it is one and not of NaN. -/
theorem changed_eq_false_iff (c : FloatText) (vin : String) (us : List (UInt64 × SignalUpdate))
    (signal : SignalUpdate) :
    ((stateAfter c vin us).assign signal).1 = false ↔ Repeats us signal ∧ signal.NotNan := by
  have hfloat : ∀ (old : Option (BinaryFloat .binary64)) (v : BinaryFloat .binary64),
      differs old v = false ↔ (∃ x, old = some x ∧ x.Same v) ∧ v ≠ .nan := by
    intro old v
    rw [differs_eq_false_iff]
    cases old with
    | none => simp
    | some x => simp [BinaryFloat.same_and_ne_nan_iff]
  rw [stateAfter_eq]
  cases signal with
  | isLocked v => simp [TelemetryState.assign, Repeats, SignalUpdate.NotNan]
  | latitude v => exact hfloat _ v
  | longitude v => exact hfloat _ v
  | parkingActive v => simp [TelemetryState.assign, Repeats, SignalUpdate.NotNan]

theorem stateAfter_concat (c : FloatText) (vin : String) (us : List (UInt64 × SignalUpdate))
    (u : UInt64 × SignalUpdate) :
    stateAfter c vin (us ++ [u]) = ((stateAfter c vin us).assign u.2).2 := by
  rw [stateAfter, List.foldl_concat, TelemetryState.update_snd, stateAfter]

/-- A coordinate that is NaN is not finite. -/
theorem notNan_of_coordinatesFinite {us : List (UInt64 × SignalUpdate)}
    {u : UInt64 × SignalUpdate} (h : CoordinatesFinite (us ++ [u])) : u.2.NotNan := by
  obtain ⟨timestamp, signal⟩ := u
  cases signal with
  | isLocked v => trivial
  | parkingActive v => trivial
  | latitude v =>
      rintro rfl
      exact h.1 .nan (by rw [latest_concat]; rfl)
  | longitude v =>
      rintro rfl
      exact h.2 .nan (by rw [latest_concat]; rfl)

/-- **Which updates yield a message as they should:** the repetitions of anything but NaN, and the
others after which the coordinates are finite. -/
theorem faithful_iff {c : FloatText} (hc : ∀ x, x.IsFinite → c.Reads x) (vin : String)
    (us : List (UInt64 × SignalUpdate)) (u : UInt64 × SignalUpdate) :
    Faithful c vin us u ↔ (Repeats us u.2 ∧ u.2.NotNan) ∨ CoordinatesFinite (us ++ [u]) := by
  have hchanged := changed_eq_false_iff c vin us u.2
  rw [Faithful, TelemetryState.update_fst, ← stateAfter_concat]
  cases h : ((stateAfter c vin us).assign u.2).1 with
  | false =>
      obtain ⟨hrep, hnot⟩ := hchanged.1 h
      refine iff_of_true ⟨iff_of_true rfl hrep, ?_⟩ (.inl ⟨hrep, hnot⟩)
      intro json hjson
      cases hjson
  | true =>
      have hnew : ¬ (Repeats us u.2 ∧ u.2.NotNan) := by
        rw [← hchanged, h]
        exact Bool.noConfusion
      constructor
      · rintro ⟨-, hsnapshot⟩
        exact .inr ((snapshotOf_message_iff hc vin _ u.1).1 (hsnapshot _ rfl))
      · rintro (hrep | hfinite)
        · exact absurd hrep hnew
        · refine ⟨iff_of_false (fun hnone => by cases hnone) fun hrep =>
            hnew ⟨hrep, notNan_of_coordinatesFinite hfinite⟩, fun json hjson => ?_⟩
          cases hjson
          exact (snapshotOf_message_iff hc vin _ u.1).2 hfinite

/-- **A latitude of NaN that is received again is published again,** and not as a number. -/
theorem repeated_nan_published :
    ¬ Faithful .exact "VIN" [(1, .latitude .nan)] (2, .latitude .nan) := by
  rintro ⟨hnone, -⟩
  have := hnone.2 ⟨.nan, rfl, .inr ⟨rfl, rfl⟩⟩
  cases this

/-- A lock state after a position, with numbers taken as values. -/
theorem faithful_locked :
    Faithful .exact "VIN" [(1, .latitude (.finite false 0 (-1074) (by decide +kernel)))]
      (2, .isLocked true) :=
  (faithful_iff (fun _ => FloatText.reads_exact) "VIN" _ _).2 (.inr ⟨by
    intro x hx
    cases hx
    trivial, by
    intro x hx
    cases hx⟩)

end CloudGatewayClient
