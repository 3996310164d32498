/-
**The geofence of the parking fee service.**

The functions of package `geo`, over any arithmetic: the number type of the coordinates is a
parameter, and so are the great-circle distance, the cosine of a latitude and the type of distances.
Over an ordered field the ray casting counts the edges that cross the ray to the east, and an edge
crosses it or not whichever way it is walked.

Main definitions:

* `ParkingFeeService.pointInPolygon`, `ParkingFeeService.distanceToPolygonEdge`,
  `ParkingFeeService.findMatchingZones` — the functions of the package;
* `ParkingFeeService.side` — on which side of a line a point lies.

Main results:

* `ParkingFeeService.pointInPolygon_eq` — ray casting is the parity of the crossing edges;
* `ParkingFeeService.crosses_of_enter`, `ParkingFeeService.crosses_of_leave` — when an edge crosses;
* `ParkingFeeService.pointInPolygon_chord` — a zone cut along a chord;
* `ParkingFeeService.pointInPolygon_of_beyond` — outside the bounding box nothing is inside.
-/

import ParkingFeeService.ClosedPath
import Mathlib.Algebra.Order.Field.Basic
import Mathlib.Algebra.Order.Ring.Rat
import Mathlib.Tactic.Ring
import Mathlib.Tactic.FieldSimp
import Mathlib.Tactic.Linarith
import Mathlib.Tactic.Positivity

set_option relaxedAutoImplicit false
set_option autoImplicit false
set_option linter.unusedSectionVars false

namespace ParkingFeeService

/-- A geographic point. -/
@[ext] structure Coordinate (K : Type*) where
  lat : K
  lon : K
  deriving DecidableEq, Repr

/-- A zone, given by a polygon. -/
structure Zone (K : Type*) where
  id : String
  polygon : List (Coordinate K)
  deriving DecidableEq, Repr

/-- What the searches use of the sphere: the great-circle distance, the cosine of a latitude in
degrees, and the distance from which a minimum starts. -/
structure Sphere (K D : Type*) where
  haversineDistance : Coordinate K → Coordinate K → D
  cosLat : K → K
  inf : D

section RayCasting

variable {K : Type*} [Add K] [Sub K] [Mul K] [Div K] [LT K] [DecidableLT K]

/-- The ends of an edge lie on different sides of the latitude of the point. -/
def straddles (point pi pj : Coordinate K) : Bool :=
  decide (point.lat < pi.lat) != decide (point.lat < pj.lat)

/-- The longitude at which the edge from `pj` to `pi` has the latitude of the point. -/
def intersectLon (point pi pj : Coordinate K) : K :=
  pj.lon + (point.lat - pj.lat) / (pi.lat - pj.lat) * (pi.lon - pj.lon)

/-- The ray from the point to the east crosses the edge from `pj` to `pi`. -/
def crosses (point pi pj : Coordinate K) : Bool :=
  straddles point pi pj && decide (point.lon < intersectLon point pi pj)

/-- The loop of the ray casting, from the vertex before the list on. -/
def crossingLoop (point : Coordinate K) (inside : Bool) (pj : Coordinate K) :
    List (Coordinate K) → Bool
  | [] => inside
  | pi :: rest => crossingLoop point (if crosses point pi pj then !inside else inside) pi rest

/-- `PointInPolygon`: a polygon of fewer than three vertices has no inside, and the first edge
comes from the last vertex. -/
def pointInPolygon (point : Coordinate K) (polygon : List (Coordinate K)) : Bool :=
  if polygon.length < 3 then false
  else
    match polygon.getLast? with
    | none => false
    | some pj => crossingLoop point false pj polygon

end RayCasting

section Distance

variable {K D : Type*} [Zero K] [One K] [Add K] [Sub K] [Mul K] [Div K] [LT K] [DecidableLT K]
  [BEq K] [LT D] [DecidableLT D] [LE D] [DecidableLE D]

/-- The squared length of the segment in the local projection. -/
def segLenSq (cosLat : K) (a b : Coordinate K) : K :=
  let dx := (b.lon - a.lon) * cosLat
  let dy := b.lat - a.lat
  dx * dx + dy * dy

/-- The parameter of the projection of the point on the line, before it is clamped. -/
def projection (cosLat : K) (point a b : Coordinate K) : K :=
  let dx := (b.lon - a.lon) * cosLat
  let dy := b.lat - a.lat
  let px := (point.lon - a.lon) * cosLat
  let py := point.lat - a.lat
  (px * dx + py * dy) / segLenSq cosLat a b

def clamp (t : K) : K := if t < 0 then 0 else if 1 < t then 1 else t

/-- The point of the segment whose distance is measured. -/
def closest (cosLat : K) (point a b : Coordinate K) : Coordinate K :=
  if segLenSq cosLat a b == 0 then a
  else
    let t := clamp (projection cosLat point a b)
    { lat := a.lat + t * (b.lat - a.lat), lon := a.lon + t * (b.lon - a.lon) }

def Sphere.distanceToSegment (g : Sphere K D) (point a b : Coordinate K) : D :=
  g.haversineDistance point (closest (g.cosLat point.lat) point a b)

/-- `DistanceToPolygonEdge`: the edge at `i` goes on to the vertex at `(i + 1) % n`. -/
def Sphere.distanceToPolygonEdge (g : Sphere K D) (point : Coordinate K) :
    List (Coordinate K) → D
  | [] => g.inf
  | [a] => g.haversineDistance point a
  | polygon => (polygon.zip (polygon.rotate 1)).foldl
      (fun minDist e =>
        let d := g.distanceToSegment point e.1 e.2
        if d < minDist then d else minDist) g.inf

/-- `FindMatchingZones`: the zones the point is in or near to. -/
def Sphere.findMatchingZones (g : Sphere K D) (point : Coordinate K) (threshold : D) :
    List (Zone K) → List String
  | [] => []
  | zone :: zones =>
      if pointInPolygon point zone.polygon then
        zone.id :: g.findMatchingZones point threshold zones
      else if g.distanceToPolygonEdge point zone.polygon ≤ threshold then
        zone.id :: g.findMatchingZones point threshold zones
      else g.findMatchingZones point threshold zones

end Distance

/-! ### Crossing edges -/

section Crossings

variable {K : Type*} [Add K] [Sub K] [Mul K] [Div K] [LT K] [DecidableLT K]

/-- The vertex lies north of the point. -/
def above (point v : Coordinate K) : Bool := decide (point.lat < v.lat)

/-- How many edges of the walk cross the ray. -/
def crossings (point : Coordinate K) (walk : List (Coordinate K × Coordinate K)) : ℕ :=
  walk.countP fun e => crosses point e.2 e.1

@[simp] theorem crossings_cons (point : Coordinate K) (e : Coordinate K × Coordinate K)
    (walk : List (Coordinate K × Coordinate K)) :
    crossings point (e :: walk) =
      crossings point walk + if crosses point e.2 e.1 then 1 else 0 :=
  List.countP_cons

theorem crossings_append (point : Coordinate K) (l m : List (Coordinate K × Coordinate K)) :
    crossings point (l ++ m) = crossings point l + crossings point m :=
  List.countP_append

theorem crossings_perm (point : Coordinate K) {l m : List (Coordinate K × Coordinate K)}
    (h : l.Perm m) : crossings point l = crossings point m :=
  h.countP_eq _

theorem crossingLoop_eq (point : Coordinate K) (inside : Bool) (pj : Coordinate K)
    (l : List (Coordinate K)) :
    crossingLoop point inside pj l =
      (inside ^^ (crossings point (ClosedPath.legs pj l)).bodd) := by
  induction l generalizing inside pj with
  | nil => simp [crossingLoop, crossings]
  | cons pi l ih =>
      rw [crossingLoop, ih, ClosedPath.legs_cons, crossings_cons, Nat.bodd_add]
      cases inside <;> cases crosses point pi pj <;> simp

/-- **Ray casting is the parity of the edges that cross the ray.** -/
theorem pointInPolygon_eq (point : Coordinate K) {polygon : List (Coordinate K)}
    (h : 3 ≤ polygon.length) :
    pointInPolygon point polygon = (crossings point (ClosedPath.closed polygon)).bodd := by
  rw [pointInPolygon, if_neg (by omega), ClosedPath.closed]
  cases polygon.getLast? with
  | none => simp [crossings]
  | some pj => simpa using crossingLoop_eq point false pj polygon

theorem pointInPolygon_of_short (point : Coordinate K) {polygon : List (Coordinate K)}
    (h : polygon.length < 3) : pointInPolygon point polygon = false :=
  if_pos h

end Crossings

/-! ### Crossings over an ordered field -/

section Field

variable {K : Type*} [Field K] [LinearOrder K] [IsStrictOrderedRing K]

/-- Twice the signed area of the triangle: positive if `v` lies to the left of the line from `a` to
`b`, with the longitude to the right and the latitude up. -/
def side (a b v : Coordinate K) : K :=
  (b.lon - a.lon) * (v.lat - a.lat) - (b.lat - a.lat) * (v.lon - a.lon)

theorem side_swap (a b v : Coordinate K) : side b a v = -side a b v := by
  simp only [side]; ring

theorem side_cycle (a b c : Coordinate K) : side b c a = side a b c := by
  simp only [side]; ring

theorem straddles_eq (point a b : Coordinate K) :
    straddles point b a = (above point b != above point a) :=
  rfl

theorem straddles_iff {point a b : Coordinate K} :
    straddles point b a = true ↔
      (a.lat ≤ point.lat ∧ point.lat < b.lat) ∨ (b.lat ≤ point.lat ∧ point.lat < a.lat) := by
  rw [straddles, bne_iff_ne, ne_eq, decide_eq_decide]
  constructor
  · intro h
    rcases le_or_gt a.lat point.lat with ha | ha
    · exact .inl ⟨ha, by by_contra hb; exact h ⟨fun h => (hb h).elim, fun h => absurd ha h.not_ge⟩⟩
    · exact .inr ⟨by by_contra hb; exact h ⟨fun _ => ha, fun _ => not_le.1 hb⟩, ha⟩
  · rintro (⟨ha, hb⟩ | ⟨hb, ha⟩) h
    · exact absurd (h.1 hb) ha.not_gt
    · exact absurd (h.2 ha) hb.not_gt

/-- The ray casting never divides by zero. -/
theorem lat_sub_ne_zero {point a b : Coordinate K} (h : straddles point b a = true) :
    b.lat - a.lat ≠ 0 := by
  rw [sub_ne_zero]
  rcases straddles_iff.1 h with ⟨ha, hb⟩ | ⟨hb, ha⟩
  · exact (ha.trans_lt hb).ne'
  · exact (hb.trans_lt ha).ne

/-- The distance from the point to the crossing, in terms of the side. -/
theorem intersectLon_sub {point a b : Coordinate K} (h : b.lat - a.lat ≠ 0) :
    intersectLon point b a - point.lon = side a b point / (b.lat - a.lat) := by
  rw [intersectLon, side]
  field_simp
  ring

theorem lt_intersectLon_of_lt {point a b : Coordinate K} (h : a.lat < b.lat) :
    point.lon < intersectLon point b a ↔ 0 < side a b point := by
  have hpos : 0 < b.lat - a.lat := sub_pos.2 h
  rw [← sub_pos, intersectLon_sub hpos.ne', lt_div_iff₀ hpos, zero_mul]

theorem lt_intersectLon_of_gt {point a b : Coordinate K} (h : b.lat < a.lat) :
    point.lon < intersectLon point b a ↔ side a b point < 0 := by
  have hneg : b.lat - a.lat < 0 := sub_neg.2 h
  rw [← sub_pos, intersectLon_sub hneg.ne, lt_div_iff_of_neg hneg, zero_mul]

/-- **An edge that goes up crosses the ray exactly if the point lies to its left.** -/
theorem crosses_of_enter {point a b : Coordinate K} (ha : above point a = false)
    (hb : above point b = true) : crosses point b a = true ↔ 0 < side a b point := by
  have hlt : a.lat < b.lat := (not_lt.1 (of_decide_eq_false ha)).trans_lt (of_decide_eq_true hb)
  have hs : straddles point b a = true := by rw [straddles_eq, ha, hb]; rfl
  rw [crosses, hs, Bool.true_and, decide_eq_true_iff, lt_intersectLon_of_lt hlt]

/-- **An edge that goes down crosses the ray exactly if the point lies to its right.** -/
theorem crosses_of_leave {point a b : Coordinate K} (ha : above point a = true)
    (hb : above point b = false) : crosses point b a = true ↔ side a b point < 0 := by
  have hlt : b.lat < a.lat := (not_lt.1 (of_decide_eq_false hb)).trans_lt (of_decide_eq_true ha)
  have hs : straddles point b a = true := by rw [straddles_eq, ha, hb]; rfl
  rw [crosses, hs, Bool.true_and, decide_eq_true_iff, lt_intersectLon_of_gt hlt]

theorem crosses_of_above_eq {point a b : Coordinate K} (h : above point a = above point b) :
    crosses point b a = false := by
  have hs : straddles point b a = false := by rw [straddles_eq, h, bne_self_eq_false]
  rw [crosses, hs, Bool.false_and]

/-- **Whether an edge crosses does not depend on the direction in which it is walked.** -/
theorem crosses_comm (point a b : Coordinate K) : crosses point a b = crosses point b a := by
  rw [Bool.eq_iff_iff]
  cases ha : above point a <;> cases hb : above point b
  · rw [crosses_of_above_eq (hb.trans ha.symm), crosses_of_above_eq (ha.trans hb.symm)]
  · rw [crosses_of_enter ha hb, crosses_of_leave hb ha, side_swap, neg_neg_iff_pos]
  · rw [crosses_of_leave ha hb, crosses_of_enter hb ha, side_swap, neg_pos]
  · rw [crosses_of_above_eq (hb.trans ha.symm), crosses_of_above_eq (ha.trans hb.symm)]

theorem crossings_map_swap (point : Coordinate K) (l : List (Coordinate K × Coordinate K)) :
    crossings point (l.map Prod.swap) = crossings point l := by
  rw [crossings, List.countP_map]
  exact List.countP_congr fun e _ => by simp [crosses_comm point e.1 e.2]

/-- The ray casting, whatever the number of vertices. -/
theorem pointInPolygon_congr {point : Coordinate K} {l m : List (Coordinate K)}
    (hlen : l.length = m.length)
    (h : crossings point (ClosedPath.closed l) = crossings point (ClosedPath.closed m)) :
    pointInPolygon point l = pointInPolygon point m := by
  rcases le_or_gt 3 l.length with hl | hl
  · rw [pointInPolygon_eq point hl, pointInPolygon_eq point (hlen ▸ hl), h]
  · rw [pointInPolygon_of_short point hl, pointInPolygon_of_short point (hlen ▸ hl)]

theorem pointInPolygon_of_isRotated (point : Coordinate K) {l m : List (Coordinate K)}
    (h : l ~r m) : pointInPolygon point l = pointInPolygon point m :=
  pointInPolygon_congr h.perm.length_eq
    (crossings_perm point (ClosedPath.closed_perm_of_isRotated h))

theorem pointInPolygon_reverse (point : Coordinate K) (l : List (Coordinate K)) :
    pointInPolygon point l.reverse = pointInPolygon point l := by
  refine pointInPolygon_congr List.length_reverse ?_
  rw [crossings_perm point (ClosedPath.closed_reverse l), crossings_map_swap]

/-! ### A zone cut along a chord -/

/-- The two parts of a zone cross the chord twice, or not at all. -/
theorem crossings_chord (point u w : Coordinate K) (l m : List (Coordinate K)) :
    (crossings point (ClosedPath.closed (u :: l ++ w :: m))).bodd =
      ((crossings point (ClosedPath.closed (u :: l ++ [w]))).bodd ^^
        (crossings point (ClosedPath.closed (w :: m ++ [u]))).bodd) := by
  have h := crossings_perm point (ClosedPath.closed_chord u w l m)
  rw [crossings_append, crossings_cons, crossings_cons, crosses_comm point w u] at h
  rw [← Nat.bodd_add, h]
  cases crosses point u w <;> simp

/-- **A chord between two vertices cuts a zone into two parts:** a point is in the zone exactly if
it is in one of them and not in the other. -/
theorem pointInPolygon_chord (point u w a b : Coordinate K) (as bs : List (Coordinate K)) :
    pointInPolygon point (u :: a :: as ++ w :: b :: bs) =
        (pointInPolygon point (u :: a :: as ++ [w]) ^^
          pointInPolygon point (w :: b :: bs ++ [u])) ∧
      (pointInPolygon point (u :: a :: as ++ w :: b :: bs) = true →
        pointInPolygon point (u :: a :: as ++ [w]) =
          !pointInPolygon point (w :: b :: bs ++ [u])) := by
  have hxor : pointInPolygon point (u :: a :: as ++ w :: b :: bs) =
      (pointInPolygon point (u :: a :: as ++ [w]) ^^
        pointInPolygon point (w :: b :: bs ++ [u])) := by
    rw [pointInPolygon_eq point (by simp; omega), pointInPolygon_eq point (by simp),
      pointInPolygon_eq point (by simp)]
    exact crossings_chord point u w (a :: as) (b :: bs)
  refine ⟨hxor, fun h => ?_⟩
  rw [hxor, bne_iff_ne] at h
  exact Bool.eq_not_of_ne h

/-- A square cut along its diagonal, and a point of the diagonal. -/
theorem pointInPolygon_chord_diagonal :
    pointInPolygon (⟨1, 1⟩ : Coordinate ℚ) [⟨0, 0⟩, ⟨0, 2⟩, ⟨2, 2⟩, ⟨2, 0⟩] =
      (pointInPolygon (⟨1, 1⟩ : Coordinate ℚ) [⟨0, 0⟩, ⟨0, 2⟩, ⟨2, 2⟩] ^^
        pointInPolygon (⟨1, 1⟩ : Coordinate ℚ) [⟨2, 2⟩, ⟨2, 0⟩, ⟨0, 0⟩]) :=
  (pointInPolygon_chord (⟨1, 1⟩ : Coordinate ℚ) ⟨0, 0⟩ ⟨2, 2⟩ ⟨0, 2⟩ ⟨2, 0⟩ [] []).1

/-! ### Outside the bounding box -/

/-- The side of a point, by its longitudes to the two ends. -/
theorem side_eq (point a b : Coordinate K) :
    side a b point = (b.lat - point.lat) * (a.lon - point.lon) +
      (point.lat - a.lat) * (b.lon - point.lon) := by
  simp only [side]; ring

/-- Whether the edges between certain vertices cross is settled by those that go up. -/
theorem crosses_of_forall_enter {point : Coordinate K} {p : Coordinate K → Prop} {r : Bool}
    (enter : ∀ a b, p a → p b → above point a = false → above point b = true →
      crosses point b a = r) {a b : Coordinate K} (ha : p a) (hb : p b) :
    crosses point b a = (straddles point b a && r) := by
  rw [straddles_eq]
  cases haa : above point a <;> cases hab : above point b
  · exact crosses_of_above_eq (haa.trans hab.symm)
  · exact enter a b ha hb haa hab
  · rw [crosses_comm]
    exact enter b a hb ha hab haa
  · exact crosses_of_above_eq (haa.trans hab.symm)

/-- West of an edge the latitudes of its ends decide. -/
theorem crosses_of_west {point a b : Coordinate K} (ha : point.lon < a.lon)
    (hb : point.lon < b.lon) : crosses point b a = straddles point b a := by
  have enter : ∀ a b : Coordinate K, point.lon < a.lon → point.lon < b.lon →
      above point a = false → above point b = true → crosses point b a = true := by
    intro a b ha hb haa hab
    rw [crosses_of_enter haa hab, side_eq]
    have hlat : 0 < b.lat - point.lat := sub_pos.2 (of_decide_eq_true hab)
    have hlat' : 0 ≤ point.lat - a.lat := sub_nonneg.2 (not_lt.1 (of_decide_eq_false haa))
    exact add_pos_of_pos_of_nonneg (mul_pos hlat (sub_pos.2 ha))
      (mul_nonneg hlat' (sub_pos.2 hb).le)
  rw [crosses_of_forall_enter enter ha hb, Bool.and_true]

/-- East of an edge there is no crossing. -/
theorem crosses_of_east {point a b : Coordinate K} (ha : a.lon < point.lon)
    (hb : b.lon < point.lon) : crosses point b a = false := by
  have enter : ∀ a b : Coordinate K, a.lon < point.lon → b.lon < point.lon →
      above point a = false → above point b = true → crosses point b a = false := by
    intro a b ha hb haa hab
    rw [← Bool.not_eq_true, crosses_of_enter haa hab, side_eq, not_lt]
    have hlat : 0 < b.lat - point.lat := sub_pos.2 (of_decide_eq_true hab)
    have hlat' : 0 ≤ point.lat - a.lat := sub_nonneg.2 (not_lt.1 (of_decide_eq_false haa))
    exact add_nonpos (mul_nonpos_of_nonneg_of_nonpos hlat.le (sub_neg.2 ha).le)
      (mul_nonpos_of_nonneg_of_nonpos hlat' (sub_neg.2 hb).le)
  rw [crosses_of_forall_enter enter ha hb, Bool.and_false]

theorem pointInPolygon_of_crosses_false {point : Coordinate K} {polygon : List (Coordinate K)}
    (h : ∀ a ∈ polygon, ∀ b ∈ polygon, crosses point b a = false) :
    pointInPolygon point polygon = false := by
  rcases le_or_gt 3 polygon.length with hl | hl
  · have h0 : crossings point (ClosedPath.closed polygon) = 0 := by
      refine List.countP_eq_zero.2 fun e he => ?_
      rw [h e.1 (ClosedPath.fst_mem_of_mem_closed he) e.2 (ClosedPath.snd_mem_of_mem_closed he)]
      exact Bool.false_ne_true
    rw [pointInPolygon_eq point hl, h0, Nat.bodd_zero]
  · exact pointInPolygon_of_short point hl

/-- West of all vertices the ray crosses every edge that straddles its latitude, and their number is
even. -/
theorem pointInPolygon_of_west {point : Coordinate K} {polygon : List (Coordinate K)}
    (h : ∀ v ∈ polygon, point.lon < v.lon) : pointInPolygon point polygon = false := by
  rcases le_or_gt 3 polygon.length with hl | hl
  · have heven : crossings point (ClosedPath.closed polygon) =
        (ClosedPath.closed polygon).countP (fun e => above point e.2 != above point e.1) := by
      refine List.countP_congr fun e he => ?_
      rw [crosses_of_west (h _ (ClosedPath.fst_mem_of_mem_closed he))
        (h _ (ClosedPath.snd_mem_of_mem_closed he)), straddles_eq]
    rw [pointInPolygon_eq point hl, heven, ClosedPath.countP_change_closed]
    simp
  · exact pointInPolygon_of_short point hl

/-- **No point outside the bounding box is inside the zone**, whatever the shape of the polygon. -/
theorem pointInPolygon_of_beyond {point : Coordinate K} {polygon : List (Coordinate K)}
    (h : (∀ v ∈ polygon, point.lat < v.lat) ∨ (∀ v ∈ polygon, v.lat < point.lat) ∨
      (∀ v ∈ polygon, point.lon < v.lon) ∨ ∀ v ∈ polygon, v.lon < point.lon) :
    pointInPolygon point polygon = false := by
  rcases h with hsouth | hnorth | hwest | heast
  · refine pointInPolygon_of_crosses_false fun a ha b hb => crosses_of_above_eq ?_
    rw [above, above, decide_eq_true (hsouth a ha), decide_eq_true (hsouth b hb)]
  · refine pointInPolygon_of_crosses_false fun a ha b hb => crosses_of_above_eq ?_
    rw [above, above, decide_eq_false (hnorth a ha).not_gt, decide_eq_false (hnorth b hb).not_gt]
  · exact pointInPolygon_of_west hwest
  · exact pointInPolygon_of_crosses_false fun a ha b hb => crosses_of_east (heast a ha) (heast b hb)

/-- A point to the west of a square. -/
theorem pointInPolygon_of_beyond_west :
    pointInPolygon (⟨1, -1⟩ : Coordinate ℚ) [⟨0, 0⟩, ⟨0, 2⟩, ⟨2, 2⟩, ⟨2, 0⟩] = false :=
  pointInPolygon_of_beyond (.inr (.inr (.inl (by
    simp only [List.forall_mem_cons, List.not_mem_nil, false_imp_iff, implies_true, and_true]
    norm_num))))

end Field

end ParkingFeeService
