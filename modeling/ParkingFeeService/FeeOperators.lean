/-
**Operators of a place.**

The answer to an operator lookup is put together from three indexes: the zones the place is in or
near to, the operators grouped by zone, and the operators by id, of which the last one configured
counts.  Nothing checks that the ids of a configuration are unique.  Two matching zones with one id
list their operators twice, and an operator whose id is used again has the adapter of the later one.

Main definitions:

* `ParkingFeeService.Store`, `ParkingFeeService.newStore` — the store and its indexes;
* `ParkingFeeService.Service.operatorHandler`, `ParkingFeeService.Service.getAdapter` — the two
  requests;
* `ParkingFeeService.Service.LookupExact` — the lookup is exact and agrees with the adapters.

Main results:

* `List.flatMap_filter_perm_iff` — the groups of a list of keys against the elements of a set of
  keys;
* `ParkingFeeService.duplicate_zone_lists_twice` — an operator that is answered twice;
* `ParkingFeeService.Service.lookupExact_iff` — when the lookup is exact.
-/

import ParkingFeeService.FeeGeo
import Mathlib.Data.List.Induction
import Mathlib.Data.List.Count
import Mathlib.Logic.Function.Basic

set_option relaxedAutoImplicit false
set_option autoImplicit false
set_option linter.unusedSectionVars false

namespace List

variable {α β γ : Type*} [DecidableEq β]

theorem count_flatMap_filter [DecidableEq α] (f : α → β) (ks : List β) (l : List α) (a : α) :
    (ks.flatMap fun k => l.filter fun b => f b = k).count a = ks.count (f a) * l.count a := by
  induction ks with
  | nil => simp
  | cons k ks ih =>
      rw [flatMap_cons, count_append, ih, count_cons, Nat.add_mul, Nat.add_comm]
      by_cases hk : f a = k
      · simp [hk, count_filter]
      · have h0 : (l.filter fun b => f b = k).count a = 0 :=
          count_eq_zero_of_not_mem fun h => hk (by simpa using (mem_filter.1 h).2)
        simp [h0, Ne.symm hk]

/-- **The groups of a list of keys have every element with one of the keys once** exactly if no
element has a key that is listed twice; what is read off the elements does not matter. -/
theorem flatMap_filter_perm_iff (f : α → β) (g : α → γ) (ks : List β) (l : List α) :
    ((ks.flatMap fun k => l.filter fun a => f a = k).map g).Perm
        ((l.filter fun a => f a ∈ ks).map g) ↔
      ∀ a ∈ l, ks.count (f a) ≤ 1 := by
  classical
  have hfilter : ∀ a, (l.filter fun a => f a ∈ ks).count a =
      if f a ∈ ks then l.count a else 0 := by
    intro a
    split_ifs with ha
    · exact count_filter (by simpa using ha)
    · exact count_eq_zero_of_not_mem fun h => ha (by simpa using (mem_filter.1 h).2)
  have hsub : (l.filter fun a => f a ∈ ks).Subperm
      (ks.flatMap fun k => l.filter fun a => f a = k) := by
    refine subperm_ext_iff.2 fun a _ => ?_
    rw [hfilter, count_flatMap_filter]
    split_ifs with ha
    · exact Nat.le_mul_of_pos_left _ (count_pos_iff.2 ha)
    · exact Nat.zero_le _
  constructor
  · intro h a ha
    have hlen := h.length_eq
    rw [length_map, length_map] at hlen
    have hcount := (hsub.perm_of_length_le hlen.le).count_eq a
    rw [hfilter, count_flatMap_filter] at hcount
    split_ifs at hcount with hk
    · have hpos : 0 < l.count a := count_pos_iff.2 ha
      have hone : ks.count (f a) * l.count a = 1 * l.count a := by rw [← hcount, Nat.one_mul]
      exact (Nat.eq_of_mul_eq_mul_right hpos hone).le
    · exact (count_eq_zero_of_not_mem hk).le.trans zero_le_one
  · intro h
    refine Perm.map g (perm_iff_count.2 fun a => ?_)
    rw [hfilter, count_flatMap_filter]
    by_cases ha : a ∈ l
    · split_ifs with hk
      · rw [Nat.le_antisymm (h a ha) (count_pos_iff.2 hk), Nat.one_mul]
      · rw [count_eq_zero_of_not_mem hk, Nat.zero_mul]
    · rw [count_eq_zero_of_not_mem ha]
      simp

end List

namespace ParkingFeeService

/-! ### The store -/

/-- A parking rate. -/
structure Rate (K : Type*) where
  rateType : String
  amount : K
  currency : String
  deriving DecidableEq, Repr

/-- What is needed to download an adapter. -/
structure AdapterMeta where
  imageRef : String
  checksumSHA256 : String
  version : String
  deriving DecidableEq, Repr

/-- A parking operator. -/
structure Operator (K : Type*) where
  id : String
  name : String
  zoneID : String
  rate : Rate K
  adapter : AdapterMeta
  deriving DecidableEq, Repr

/-- The answer for an operator, without its adapter. -/
structure OperatorResponse (K : Type*) where
  id : String
  name : String
  zoneID : String
  rate : Rate K
  deriving DecidableEq, Repr

def Operator.response {K : Type*} (op : Operator K) : OperatorResponse K :=
  { id := op.id, name := op.name, zoneID := op.zoneID, rate := op.rate }

/-- The operators by id and by zone. -/
structure Store (K : Type*) where
  operators : String → Option (Operator K)
  operatorsByZone : String → List (Operator K)

section Store

variable {K : Type*}

/-- One turn of the loop of `NewStore`. -/
def Store.insert (s : Store K) (op : Operator K) : Store K where
  operators := Function.update s.operators op.id (some op)
  operatorsByZone :=
    Function.update s.operatorsByZone op.zoneID (s.operatorsByZone op.zoneID ++ [op])

/-- `NewStore`. -/
def newStore (operators : List (Operator K)) : Store K :=
  operators.foldl Store.insert ⟨fun _ => none, fun _ => []⟩

/-- `GetOperatorsByZoneIDs`. -/
def Store.getOperatorsByZoneIDs (s : Store K) (zoneIDs : List String) : List (Operator K) :=
  zoneIDs.flatMap s.operatorsByZone

theorem newStore_concat (operators : List (Operator K)) (op : Operator K) :
    newStore (operators ++ [op]) = (newStore operators).insert op := by
  simp [newStore]

theorem Store.insert_operators (s : Store K) (op : Operator K) (id : String) :
    (s.insert op).operators id = if id = op.id then some op else s.operators id :=
  Function.update_apply ..

theorem Store.insert_operatorsByZone (s : Store K) (op : Operator K) (zoneID : String) :
    (s.insert op).operatorsByZone zoneID =
      if zoneID = op.zoneID then s.operatorsByZone op.zoneID ++ [op]
      else s.operatorsByZone zoneID :=
  Function.update_apply ..

/-- Of the operators with one id the last one is found. -/
theorem newStore_operators (operators : List (Operator K)) (id : String) :
    (newStore operators).operators id = (operators.filter fun op => op.id = id).getLast? := by
  induction operators using List.reverseRecOn with
  | nil => rfl
  | append_singleton operators op ih =>
      rw [newStore_concat, Store.insert_operators, List.filter_append, ih]
      split_ifs with h
      · simp [h]
      · simp [Ne.symm h]

/-- The operators of a zone are found in the order in which they are configured. -/
theorem newStore_operatorsByZone (operators : List (Operator K)) (zoneID : String) :
    (newStore operators).operatorsByZone zoneID =
      operators.filter fun op => op.zoneID = zoneID := by
  induction operators using List.reverseRecOn with
  | nil => rfl
  | append_singleton operators op ih =>
      rw [newStore_concat, Store.insert_operatorsByZone, List.filter_append]
      split_ifs with h
      · subst h
        simp [ih]
      · simp [ih, Ne.symm h]

theorem newStore_getOperatorsByZoneIDs (operators : List (Operator K)) (zoneIDs : List String) :
    (newStore operators).getOperatorsByZoneIDs zoneIDs =
      zoneIDs.flatMap fun zoneID => operators.filter fun op => op.zoneID = zoneID := by
  rw [Store.getOperatorsByZoneIDs, funext (newStore_operatorsByZone operators)]

end Store

/-! ### The requests -/

/-- An answer of the service: a body with status 200, or a status and an error message. -/
inductive Reply (α : Type*)
  | ok (body : α)
  | error (status : ℕ) (message : String)
  deriving DecidableEq, Repr

/-- The service: its configuration, and what it uses of the sphere and of the parsing of numbers. -/
structure Service (K D : Type*) where
  sphere : Sphere K D
  parseFloat : String → Option K
  zones : List (Zone K)
  operators : List (Operator K)
  threshold : D

section Handlers

variable {K D : Type*} [Zero K] [One K] [Add K] [Sub K] [Mul K] [Div K] [LT K] [DecidableLT K]
  [BEq K] [IntCast K] [LT D] [DecidableLT D] [LE D] [DecidableLE D]

/-- The point of a lookup, from the two query parameters, or the message of the error. -/
def queryPoint (parseFloat : String → Option K) (latStr lonStr : String) :
    Except String (Coordinate K) :=
  if latStr = "" ∨ lonStr = "" then .error "lat and lon query parameters are required"
  else
    match parseFloat latStr with
    | none => .error "invalid coordinates"
    | some lat =>
        match parseFloat lonStr with
        | none => .error "invalid coordinates"
        | some lon =>
            if lat < ((-90 : ℤ) : K) ∨ ((90 : ℤ) : K) < lat ∨ lon < ((-180 : ℤ) : K) ∨
                ((180 : ℤ) : K) < lon then
              .error "invalid coordinates"
            else .ok { lat, lon }

namespace Service

variable (S : Service K D)

/-- `GET /operators?lat=…&lon=…`. -/
def operatorHandler (latStr lonStr : String) : Reply (List (OperatorResponse K)) :=
  match queryPoint S.parseFloat latStr lonStr with
  | .error message => .error 400 message
  | .ok point =>
      let zoneIDs := S.sphere.findMatchingZones point S.threshold S.zones
      .ok (((newStore S.operators).getOperatorsByZoneIDs zoneIDs).map Operator.response)

/-- The handler of adapter lookups, with the path value of the request. -/
def adapterHandler (id : String) : Reply AdapterMeta :=
  match (newStore S.operators).operators id with
  | none => .error 404 "operator not found"
  | some op => .ok op.adapter

/-- `GET /operators/{id}/adapter`.  A path with an empty part is redirected and not routed to the
handler. -/
def getAdapter (id : String) : Option (Reply AdapterMeta) :=
  if id = "" then none else some (S.adapterHandler id)

/-- The zone is matched by the point. -/
def Matches (point : Coordinate K) (zone : Zone K) : Prop :=
  pointInPolygon point zone.polygon = true ∨
    S.sphere.distanceToPolygonEdge point zone.polygon ≤ S.threshold

instance (point : Coordinate K) : DecidablePred (S.Matches point) := fun _ =>
  inferInstanceAs (Decidable (_ ∨ _))

/-- The operator serves a zone that is matched by the point. -/
def Serves (point : Coordinate K) (op : Operator K) : Prop :=
  ∃ zone ∈ S.zones, S.Matches point zone ∧ zone.id = op.zoneID

instance (point : Coordinate K) : DecidablePred (S.Serves point) := fun _ =>
  inferInstanceAs (Decidable (∃ _ ∈ _, _))

/-- **The lookup is exact:** the answer has every operator that serves a matching zone once and no
other, and the adapter lookup gives each of them its adapter. -/
def LookupExact (latStr lonStr : String) (point : Coordinate K) : Prop :=
  (∃ answer, S.operatorHandler latStr lonStr = .ok answer ∧
    answer.Perm ((S.operators.filter (S.Serves point)).map Operator.response)) ∧
  ∀ op ∈ S.operators, S.Serves point op →
    S.getAdapter op.id = some (.ok op.adapter)

theorem findMatchingZones_eq (point : Coordinate K) (zones : List (Zone K)) :
    S.sphere.findMatchingZones point S.threshold zones =
      (zones.filter (S.Matches point)).map Zone.id := by
  induction zones with
  | nil => rfl
  | cons zone zones ih =>
      rw [Sphere.findMatchingZones, ih, List.filter_cons]
      by_cases hin : pointInPolygon point zone.polygon = true
      · simp [Matches, hin]
      · by_cases hnear : S.sphere.distanceToPolygonEdge point zone.polygon ≤ S.threshold
        · simp [Matches, hin, hnear]
        · simp [Matches, hin, hnear]

theorem operatorHandler_of_ok {latStr lonStr : String} {point : Coordinate K}
    (h : queryPoint S.parseFloat latStr lonStr = .ok point) :
    S.operatorHandler latStr lonStr =
      .ok (((S.sphere.findMatchingZones point S.threshold S.zones).flatMap fun zoneID =>
        S.operators.filter fun op => op.zoneID = zoneID).map Operator.response) := by
  rw [operatorHandler, h]
  simp only [newStore_getOperatorsByZoneIDs]

theorem serves_iff {point : Coordinate K} {op : Operator K} :
    S.Serves point op ↔
      op.zoneID ∈ S.sphere.findMatchingZones point S.threshold S.zones := by
  simp [Serves, findMatchingZones_eq, and_assoc]

/-- The last configured operator with the id of a configured operator. -/
theorem getAdapter_eq_iff {op : Operator K} (hop : op ∈ S.operators) :
    S.getAdapter op.id = some (.ok op.adapter) ↔
      op.id ≠ "" ∧ ∀ last ∈ (S.operators.filter fun other => other.id = op.id).getLast?,
        last.adapter = op.adapter := by
  have hmem : op ∈ S.operators.filter fun other => other.id = op.id := by simp [hop]
  rw [getAdapter, adapterHandler, newStore_operators]
  cases hlast : (S.operators.filter fun other => other.id = op.id).getLast? with
  | none => rw [List.getLast?_eq_none_iff.1 hlast] at hmem; cases hmem
  | some last => by_cases hid : op.id = "" <;> simp [hid]

theorem count_findMatchingZones (point : Coordinate K) (zoneID : String) :
    (S.sphere.findMatchingZones point S.threshold S.zones).count zoneID =
      S.zones.countP fun zone => S.Matches point zone ∧ zone.id = zoneID := by
  rw [findMatchingZones_eq, List.count_eq_countP, List.countP_map, List.countP_filter]
  exact List.countP_congr fun zone _ => by simp [and_comm]

/-- **When the lookup is exact:** no zone id of an operator is matched twice, and the operators that
are found have an id, which no operator with another adapter uses after them. -/
theorem lookupExact_iff {latStr lonStr : String} {point : Coordinate K}
    (h : queryPoint S.parseFloat latStr lonStr = .ok point) :
    S.LookupExact latStr lonStr point ↔
      (∀ op ∈ S.operators,
        S.zones.countP (fun zone => S.Matches point zone ∧ zone.id = op.zoneID) ≤ 1) ∧
      ∀ op ∈ S.operators, S.Serves point op → op.id ≠ "" ∧
        ∀ last ∈ (S.operators.filter fun other => other.id = op.id).getLast?,
          last.adapter = op.adapter := by
  have hserves : S.operators.filter (S.Serves point) = S.operators.filter fun op =>
      op.zoneID ∈ S.sphere.findMatchingZones point S.threshold S.zones :=
    List.filter_congr fun op _ => by simp only [S.serves_iff]
  have hanswer : (∃ answer, S.operatorHandler latStr lonStr = .ok answer ∧
      answer.Perm ((S.operators.filter (S.Serves point)).map Operator.response)) ↔
      ∀ op ∈ S.operators,
        S.zones.countP (fun zone => S.Matches point zone ∧ zone.id = op.zoneID) ≤ 1 := by
    simp only [← count_findMatchingZones]
    rw [S.operatorHandler_of_ok h, hserves, ← List.flatMap_filter_perm_iff]
    constructor
    · rintro ⟨answer, hok, hperm⟩
      cases hok
      exact hperm
    · exact fun hperm => ⟨_, rfl, hperm⟩
  rw [LookupExact, hanswer]
  exact and_congr_right fun _ => forall₂_congr fun op hop =>
    imp_congr_right fun _ => S.getAdapter_eq_iff hop

end Service

end Handlers

/-- A triangle configured twice under one id, and an operator that serves it. -/
def twiceConfigured : Service ℚ ℚ where
  sphere :=
    { haversineDistance := fun p q => if p = q then 0 else 111195, cosLat := fun _ => 1,
      inf := 1000000000 }
  parseFloat := fun s => if s = "1" then some 1 else none
  zones := [⟨"central", [⟨0, 0⟩, ⟨0, 4⟩, ⟨4, 0⟩]⟩, ⟨"central", [⟨0, 0⟩, ⟨0, 4⟩, ⟨4, 0⟩]⟩]
  operators := [⟨"parkhaus", "Parkhaus", "central", ⟨"per-hour", 2, "EUR"⟩, ⟨"image", "sum", "1"⟩⟩]
  threshold := 500

/-- **A zone that is configured twice has its operator listed twice.** -/
theorem duplicate_zone_lists_twice :
    queryPoint twiceConfigured.parseFloat "1" "1" = .ok ⟨1, 1⟩ ∧
      ¬ twiceConfigured.LookupExact "1" "1" ⟨1, 1⟩ := by
  have hpoint : queryPoint twiceConfigured.parseFloat "1" "1" = .ok ⟨1, 1⟩ := by
    decide +kernel
  have htwice : ∃ op, twiceConfigured.operatorHandler "1" "1" = .ok [op, op] :=
    ⟨⟨"parkhaus", "Parkhaus", "central", ⟨"per-hour", 2, "EUR"⟩⟩, by decide +kernel⟩
  refine ⟨hpoint, fun ⟨⟨answer, hok, hperm⟩, _⟩ => ?_⟩
  obtain ⟨op, htwice⟩ := htwice
  rw [htwice] at hok
  cases hok
  have hle := List.length_filter_le
    (fun op => decide (twiceConfigured.Serves ⟨1, 1⟩ op)) twiceConfigured.operators
  have hlen := hperm.length_eq
  rw [List.length_map] at hlen
  have htwo : 2 ≤ twiceConfigured.operators.length := hlen.trans_le hle
  exact absurd htwo (by decide)

/-- A configuration with an operator of its own for the zone. -/
theorem lookupExact_once :
    Service.LookupExact { twiceConfigured with zones := twiceConfigured.zones.take 1 } "1" "1"
      ⟨1, 1⟩ :=
  (Service.lookupExact_iff { twiceConfigured with zones := twiceConfigured.zones.take 1 }
    (by decide +kernel)).2 ⟨by decide +kernel, by decide +kernel⟩

end ParkingFeeService
