/-
**Distances to the edges of a zone.**

The projection of a point on a segment is computed in a plane in which the longitudes are scaled by
the cosine of the latitude, and its parameter, clamped, is used on the segment itself.  Scaling
keeps the parameter, so the point found is the one nearest in the scaled plane.  Walked backwards a
segment has the parameter `1 - t` and the same nearest point, and a minimum does not depend on the
order of the edges: which zones match does not depend on how their polygons are written down.

Main definitions:

* `ParkingFeeService.scaledDistSq` — the squared distance in the scaled plane;
* `ParkingFeeService.onSegment` — the point of a segment at a parameter;
* `ParkingFeeService.Rewritten` — a zone with its polygon written in another way.

Main results:

* `ParkingFeeService.closest_minimises` — the nearest point of a segment;
* `ParkingFeeService.closest_comm` — the same point from the other end;
* `ParkingFeeService.Sphere.findMatchingZones_of_rewritten` — zone matching for zones written in
  another way.
-/

import ParkingFeeService.FeeGeo
import Mathlib.Tactic.LinearCombination

set_option relaxedAutoImplicit false
set_option autoImplicit false
set_option linter.unusedSectionVars false

namespace ParkingFeeService

variable {K D : Type*} [Field K] [LinearOrder K] [IsStrictOrderedRing K]

/-- The point of the segment at the parameter. -/
def onSegment (a b : Coordinate K) (s : K) : Coordinate K :=
  { lat := a.lat + s * (b.lat - a.lat), lon := a.lon + s * (b.lon - a.lon) }

/-- The squared distance in the plane whose longitudes are scaled. -/
def scaledDistSq (c : K) (p q : Coordinate K) : K :=
  (c * (q.lon - p.lon)) ^ 2 + (q.lat - p.lat) ^ 2

theorem segLenSq_nonneg (c : K) (a b : Coordinate K) : 0 ≤ segLenSq c a b :=
  add_nonneg (mul_self_nonneg _) (mul_self_nonneg _)

/-- A segment has no length exactly if its ends are the same point. -/
theorem segLenSq_eq_zero_iff {c : K} (hc : c ≠ 0) {a b : Coordinate K} :
    segLenSq c a b = 0 ↔ a = b := by
  rw [segLenSq, mul_self_add_mul_self_eq_zero, mul_eq_zero, or_iff_left hc, sub_eq_zero,
    sub_eq_zero, Coordinate.ext_iff]
  exact ⟨fun h => ⟨h.2.symm, h.1.symm⟩, fun h => ⟨h.2.symm, h.1.symm⟩⟩

theorem closest_self {c : K} (point a : Coordinate K) : closest c point a a = a := by
  have h : segLenSq c a a = 0 := by simp [segLenSq]
  rw [closest, h, beq_self_eq_true, if_pos rfl]

theorem closest_of_ne {c : K} (hc : c ≠ 0) {a b : Coordinate K} (hab : a ≠ b)
    (point : Coordinate K) :
    closest c point a b = onSegment a b (clamp (projection c point a b)) := by
  have h : (segLenSq c a b == 0) = false :=
    beq_false_of_ne fun h => hab ((segLenSq_eq_zero_iff hc).1 h)
  rw [closest, h]
  rfl

/-! ### The nearest point -/

theorem clamp_nonneg (t : K) : 0 ≤ clamp t := by
  rw [clamp]
  split_ifs with h0 h1
  · exact le_rfl
  · exact zero_le_one
  · exact not_lt.1 h0

theorem clamp_le_one (t : K) : clamp t ≤ 1 := by
  rw [clamp]
  split_ifs with h0 h1
  · exact zero_le_one
  · exact le_rfl
  · exact not_lt.1 h1

/-- Clamping a parameter moves it no more than it has to. -/
theorem clamp_nearest (t : K) {s : K} (h0 : 0 ≤ s) (h1 : s ≤ 1) :
    (clamp t - t) ^ 2 ≤ (s - t) ^ 2 := by
  rw [clamp]
  split_ifs with ht0 ht1
  · exact pow_le_pow_left₀ (by linarith) (by linarith) 2
  · rw [← neg_sub t 1, ← neg_sub t s, neg_sq, neg_sq]
    exact pow_le_pow_left₀ (by linarith) (by linarith) 2
  · rw [sub_self, zero_pow two_ne_zero]
    exact sq_nonneg _

/-- **The distance to a point of the segment grows with the distance of its parameter from the
projection**, whose own distance is the height over the line. -/
theorem scaledDistSq_onSegment {c : K} {a b : Coordinate K} (h : segLenSq c a b ≠ 0)
    (point : Coordinate K) (s : K) :
    scaledDistSq c point (onSegment a b s) =
      scaledDistSq c point (onSegment a b (projection c point a b)) +
        segLenSq c a b * (s - projection c point a b) ^ 2 := by
  have hproj : projection c point a b * segLenSq c a b =
      (point.lon - a.lon) * c * ((b.lon - a.lon) * c) +
        (point.lat - a.lat) * (b.lat - a.lat) :=
    div_mul_cancel₀ _ h
  simp only [scaledDistSq, onSegment]
  simp only [segLenSq] at hproj ⊢
  linear_combination (2 * (s - projection c point a b)) * hproj

theorem exists_closest_eq (c : K) (point a b : Coordinate K) :
    ∃ s, 0 ≤ s ∧ s ≤ 1 ∧ closest c point a b = onSegment a b s := by
  rw [closest]
  split
  · exact ⟨0, le_rfl, zero_le_one, by simp [onSegment]⟩
  · exact ⟨_, clamp_nonneg _, clamp_le_one _, rfl⟩

/-- No point of the segment is nearer. -/
theorem scaledDistSq_closest_le {c : K} (hc : c ≠ 0) (point a b : Coordinate K) {s : K}
    (h0 : 0 ≤ s) (h1 : s ≤ 1) :
    scaledDistSq c point (closest c point a b) ≤ scaledDistSq c point (onSegment a b s) := by
  by_cases hab : a = b
  · have hs : onSegment b b s = b := by simp [onSegment]
    rw [hab, closest_self, hs]
  · have hlen : segLenSq c a b ≠ 0 := fun h => hab ((segLenSq_eq_zero_iff hc).1 h)
    rw [closest_of_ne hc hab, scaledDistSq_onSegment hlen point s,
      scaledDistSq_onSegment hlen point (clamp (projection c point a b))]
    gcongr _ + _ * ?_
    · exact segLenSq_nonneg c a b
    · exact clamp_nearest _ h0 h1

/-- **The point whose distance is returned is the nearest one of the segment**, in the plane with
scaled longitudes, and the division is by zero for no segment that reaches it. -/
theorem closest_minimises (g : Sphere K D) {point : Coordinate K}
    (hc : g.cosLat point.lat ≠ 0) (a b : Coordinate K) :
    g.distanceToSegment point a b =
        g.haversineDistance point (closest (g.cosLat point.lat) point a b) ∧
      (∃ s, 0 ≤ s ∧ s ≤ 1 ∧ closest (g.cosLat point.lat) point a b = onSegment a b s) ∧
      (∀ s, 0 ≤ s → s ≤ 1 →
        scaledDistSq (g.cosLat point.lat) point (closest (g.cosLat point.lat) point a b) ≤
          scaledDistSq (g.cosLat point.lat) point (onSegment a b s)) ∧
      (segLenSq (g.cosLat point.lat) a b = 0 ↔ a = b) ∧
      (a = b → closest (g.cosLat point.lat) point a b = a) := by
  refine ⟨rfl, exists_closest_eq _ point a b, fun s h0 h1 => ?_, segLenSq_eq_zero_iff hc, ?_⟩
  · exact scaledDistSq_closest_le hc point a b h0 h1
  · rintro rfl
    exact closest_self point a

/-- A point on the equator and a segment of two degrees along it, compared with its first end. -/
theorem closest_minimises_equator :
    scaledDistSq 1 (⟨0, 1⟩ : Coordinate ℚ) (closest 1 ⟨0, 1⟩ ⟨0, 0⟩ ⟨0, 2⟩) ≤
      scaledDistSq 1 ⟨0, 1⟩ (onSegment ⟨0, 0⟩ ⟨0, 2⟩ 0) :=
  (closest_minimises
    (⟨fun p q => if p = q then 0 else 111195, fun _ => 1, 0⟩ : Sphere ℚ ℚ)
    (one_ne_zero : (1 : ℚ) ≠ 0) ⟨0, 0⟩ ⟨0, 2⟩).2.2.1 0 le_rfl zero_le_one

/-! ### The other direction -/

theorem segLenSq_comm (c : K) (a b : Coordinate K) : segLenSq c b a = segLenSq c a b := by
  simp only [segLenSq]; ring

theorem projection_comm {c : K} {a b : Coordinate K} (h : segLenSq c a b ≠ 0)
    (point : Coordinate K) : projection c point b a = 1 - projection c point a b := by
  rw [eq_sub_iff_add_eq, projection, projection, segLenSq_comm, ← add_div, div_eq_one_iff_eq h]
  simp only [segLenSq]
  ring

theorem clamp_one_sub (t : K) : clamp (1 - t) = 1 - clamp t := by
  rcases lt_or_ge t 0 with h0 | h0
  · have h1 : ¬ 1 - t < 0 := by linarith
    have h2 : 1 < 1 - t := by linarith
    rw [clamp, clamp, if_neg h1, if_pos h2, if_pos h0, sub_zero]
  · rcases lt_or_ge 1 t with h1 | h1
    · have h2 : 1 - t < 0 := by linarith
      rw [clamp, clamp, if_pos h2, if_neg h0.not_gt, if_pos h1, sub_self]
    · have h2 : ¬ 1 - t < 0 := by linarith
      have h3 : ¬ 1 < 1 - t := by linarith
      rw [clamp, clamp, if_neg h2, if_neg h3, if_neg h0.not_gt, if_neg h1.not_gt]

theorem onSegment_one_sub (a b : Coordinate K) (s : K) :
    onSegment b a (1 - s) = onSegment a b s := by
  simp only [onSegment, Coordinate.mk.injEq]
  constructor <;> ring

/-- **The nearest point is the same from the other end of the segment.** -/
theorem closest_comm {c : K} (hc : c ≠ 0) (point a b : Coordinate K) :
    closest c point b a = closest c point a b := by
  by_cases hab : a = b
  · rw [hab]
  · have hlen : segLenSq c a b ≠ 0 := fun h => hab ((segLenSq_eq_zero_iff hc).1 h)
    rw [closest_of_ne hc hab, closest_of_ne hc (Ne.symm hab), projection_comm hlen, clamp_one_sub,
      onSegment_one_sub]

/-! ### Zones written in another way -/

section Order

variable [LinearOrder D]

/-- The least distance over a walk. -/
def Sphere.minDistance (g : Sphere K D) (point : Coordinate K)
    (walk : List (Coordinate K × Coordinate K)) : D :=
  walk.foldl (fun m e => min m (g.distanceToSegment point e.1 e.2)) g.inf

/-- The least distance does not depend on the order of the edges. -/
theorem Sphere.minDistance_perm (g : Sphere K D) (point : Coordinate K)
    {l m : List (Coordinate K × Coordinate K)} (h : l.Perm m) :
    g.minDistance point l = g.minDistance point m := by
  have hcomm : RightCommutative fun (m : D) (e : Coordinate K × Coordinate K) =>
      min m (g.distanceToSegment point e.1 e.2) := ⟨fun m e f => min_right_comm _ _ _⟩
  exact h.foldl_eq _

theorem Sphere.distanceToPolygonEdge_eq (g : Sphere K D) (point : Coordinate K)
    {l : List (Coordinate K)} (h : 2 ≤ l.length) :
    g.distanceToPolygonEdge point l = g.minDistance point (ClosedPath.closed l) := by
  have hmin : ∀ (m : D) (e : Coordinate K × Coordinate K),
      (if g.distanceToSegment point e.1 e.2 < m then g.distanceToSegment point e.1 e.2 else m) =
        min m (g.distanceToSegment point e.1 e.2) := by
    intro m e
    rw [min_comm, min_def_lt]
  match l, h with
  | a :: b :: rest, _ =>
      have hfold : g.distanceToPolygonEdge point (a :: b :: rest) =
          g.minDistance point ((a :: b :: rest).zip ((a :: b :: rest).rotate 1)) := by
        simp only [distanceToPolygonEdge, minDistance, hmin]
      rw [hfold]
      exact g.minDistance_perm point (ClosedPath.zip_rotate_perm _)

theorem Sphere.minDistance_map_swap (g : Sphere K D) {point : Coordinate K}
    (hc : g.cosLat point.lat ≠ 0) (l : List (Coordinate K × Coordinate K)) :
    g.minDistance point (l.map Prod.swap) = g.minDistance point l := by
  rw [minDistance, List.foldl_map]
  simp only [distanceToSegment, Prod.fst_swap, Prod.snd_swap, closest_comm hc, minDistance]

theorem Sphere.distanceToPolygonEdge_of_isRotated (g : Sphere K D) (point : Coordinate K)
    {l m : List (Coordinate K)} (h : l ~r m) :
    g.distanceToPolygonEdge point m = g.distanceToPolygonEdge point l := by
  rcases le_or_gt 2 l.length with hl | hl
  · rw [g.distanceToPolygonEdge_eq point hl,
      g.distanceToPolygonEdge_eq point (h.perm.length_eq ▸ hl)]
    exact g.minDistance_perm point (ClosedPath.closed_perm_of_isRotated h).symm
  · match l, hl, h with
    | [], _, h => rw [List.isRotated_nil_iff'.1 h]
    | [a], _, h => rw [List.isRotated_singleton_iff'.1 h]

theorem Sphere.distanceToPolygonEdge_reverse (g : Sphere K D) {point : Coordinate K}
    (hc : g.cosLat point.lat ≠ 0) (l : List (Coordinate K)) :
    g.distanceToPolygonEdge point l.reverse = g.distanceToPolygonEdge point l := by
  rcases le_or_gt 2 l.length with hl | hl
  · rw [g.distanceToPolygonEdge_eq point hl,
      g.distanceToPolygonEdge_eq point (by rwa [List.length_reverse]),
      g.minDistance_perm point (ClosedPath.closed_reverse l), g.minDistance_map_swap hc]
  · match l, hl with
    | [], _ => rfl
    | [a], _ => rfl

/-- The zone with its polygon written from another vertex on, or backwards. -/
def Rewritten (zone zone' : Zone K) : Prop :=
  zone'.id = zone.id ∧
    (zone.polygon ~r zone'.polygon ∨ zone'.polygon = zone.polygon.reverse)

/-- **Which zones match does not depend on how their polygons are written down.** -/
theorem Sphere.findMatchingZones_of_rewritten (g : Sphere K D) {point : Coordinate K}
    (hc : g.cosLat point.lat ≠ 0) (threshold : D) {zones zones' : List (Zone K)}
    (h : List.Forall₂ Rewritten zones zones') :
    g.findMatchingZones point threshold zones' = g.findMatchingZones point threshold zones := by
  induction h with
  | nil => rfl
  | @cons zone zone' _ _ hz _ ih =>
      obtain ⟨hid, hpoly⟩ := hz
      have hin : pointInPolygon point zone'.polygon = pointInPolygon point zone.polygon := by
        rcases hpoly with hrot | hrev
        · exact (pointInPolygon_of_isRotated point hrot).symm
        · rw [hrev, pointInPolygon_reverse]
      have hdist : g.distanceToPolygonEdge point zone'.polygon =
          g.distanceToPolygonEdge point zone.polygon := by
        rcases hpoly with hrot | hrev
        · exact g.distanceToPolygonEdge_of_isRotated point hrot
        · rw [hrev, g.distanceToPolygonEdge_reverse hc]
      rw [findMatchingZones, findMatchingZones, hid, hin, hdist, ih]

/-- A triangle at the equator, rotated and reversed. -/
theorem Sphere.findMatchingZones_of_rewritten_triangle :
    let g : Sphere ℚ ℚ :=
      { haversineDistance := fun p q => if p = q then 0 else 111195, cosLat := fun _ => 1,
        inf := 0 }
    g.findMatchingZones ⟨0, 0⟩ 0 [⟨"a", [⟨0, 1⟩, ⟨1, 0⟩, ⟨0, 0⟩]⟩, ⟨"b", [⟨0, 0⟩, ⟨0, 1⟩]⟩] =
      g.findMatchingZones ⟨0, 0⟩ 0 [⟨"a", [⟨0, 0⟩, ⟨0, 1⟩, ⟨1, 0⟩]⟩, ⟨"b", [⟨0, 1⟩, ⟨0, 0⟩]⟩] :=
  Sphere.findMatchingZones_of_rewritten _ one_ne_zero 0
    (.cons ⟨rfl, .inl ⟨1, rfl⟩⟩ (.cons ⟨rfl, .inr rfl⟩ .nil))

end Order

end ParkingFeeService
