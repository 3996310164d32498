/-
**Convex zones.**

If every edge of a zone has all other vertices strictly on one side, then the edges turn all the
same way, and a latitude is entered by one edge at most and left by one edge at most.  The ray
casting is then right about every point that lies on no edge line: inside, the edge that goes up is
crossed and the one that goes down is not; outside, they are crossed both or neither, since a point
between the two crossings is a mean of vertices.

Main definitions:

* `ParkingFeeService.StrictlyConvex` — convexity by the sides of the edges, in either orientation;
* `ParkingFeeService.InnerSide`, `ParkingFeeService.OuterSide` — points inside and outside.

Main results:

* `ParkingFeeService.CounterClockwise.not_two_enter` — at most one edge goes up through a latitude;
* `ParkingFeeService.CounterClockwise.side_nonneg_of_between` — a point between the two crossings is
  on no outer side;
* `ParkingFeeService.pointInPolygon_of_convex` — ray casting on convex zones.
-/

import ParkingFeeService.FeeGeo
import Mathlib.Data.Finset.Max

set_option relaxedAutoImplicit false
set_option autoImplicit false
set_option linter.unusedSectionVars false

namespace ParkingFeeService

variable {K : Type*} [Field K] [LinearOrder K] [IsStrictOrderedRing K]

/-- Every edge has all other vertices strictly on one side.  The edges are the first ones of the
rotations of the list. -/
def StrictlyConvex (l : List (Coordinate K)) : Prop :=
  3 ≤ l.length ∧ ∀ a b rest, l ~r a :: b :: rest →
    (∀ v ∈ rest, 0 < side a b v) ∨ ∀ v ∈ rest, side a b v < 0

/-- The point is strictly on the side of every edge on which the other vertices are. -/
def InnerSide (point : Coordinate K) (l : List (Coordinate K)) : Prop :=
  ∀ a b rest, l ~r a :: b :: rest → ∀ v ∈ rest, 0 < side a b point * side a b v

/-- The point is strictly on the other side of at least one edge. -/
def OuterSide (point : Coordinate K) (l : List (Coordinate K)) : Prop :=
  ∃ a b rest, l ~r a :: b :: rest ∧ ∀ v ∈ rest, side a b point * side a b v < 0

/-- Every edge has all other vertices strictly to its left. -/
structure CounterClockwise (l : List (Coordinate K)) : Prop where
  three : 3 ≤ l.length
  left : ∀ {a b rest}, l ~r a :: b :: rest → ∀ v ∈ rest, 0 < side a b v

/-! ### Sides -/

@[simp] theorem side_left (a b : Coordinate K) : side a b a = 0 := by simp [side]

@[simp] theorem side_right (a b : Coordinate K) : side a b b = 0 := by simp [side]; ring

/-- The ends of two edges, weighed by their distances to a latitude: what one crossing is to the
left of the other edge, the other crossing is to the right of the first. -/
theorem side_balance (point a b c d : Coordinate K) :
    (d.lat - point.lat) * side a b c + (point.lat - c.lat) * side a b d +
      ((b.lat - point.lat) * side c d a + (point.lat - a.lat) * side c d b) = 0 := by
  simp only [side]; ring

/-- The point as a mean of the crossings of two edges, seen from a third line. -/
theorem side_between (point a b c d u w : Coordinate K) :
    (side c d point * (b.lat - a.lat) + side a b point * (c.lat - d.lat)) * side u w point =
      side c d point * ((b.lat - point.lat) * side u w a + (point.lat - a.lat) * side u w b) +
        side a b point * ((point.lat - d.lat) * side u w c + (c.lat - point.lat) * side u w d) := by
  simp only [side]; ring

/-- The latitude of a point, from the edges into and out of a vertex. -/
theorem side_vertex (point a b c : Coordinate K) :
    side a b c * (point.lat - b.lat) =
      side a b point * (c.lat - b.lat) - side b c point * (b.lat - a.lat) := by
  simp only [side]; ring

/-! ### Orientation -/

theorem isRotated_of_reverse {a b : Coordinate K} {l rest : List (Coordinate K)}
    (h : l.reverse ~r a :: b :: rest) : l ~r b :: a :: rest.reverse := by
  have h' : l ~r rest.reverse ++ [b, a] := by simpa using h.reverse
  exact h'.trans List.isRotated_append

theorem StrictlyConvex.reverse {l : List (Coordinate K)} (h : StrictlyConvex l) :
    StrictlyConvex l.reverse := by
  refine ⟨by simpa using h.1, fun a b rest hr => ?_⟩
  rcases h.2 b a rest.reverse (isRotated_of_reverse hr) with hpos | hneg
  · refine .inr fun v hv => ?_
    rw [side_swap, neg_neg_iff_pos]
    exact hpos v (List.mem_reverse.2 hv)
  · refine .inl fun v hv => ?_
    rw [side_swap, neg_pos]
    exact hneg v (List.mem_reverse.2 hv)

theorem InnerSide.reverse {point : Coordinate K} {l : List (Coordinate K)}
    (h : InnerSide point l) : InnerSide point l.reverse := by
  intro a b rest hr v hv
  have := h b a rest.reverse (isRotated_of_reverse hr) v (List.mem_reverse.2 hv)
  rwa [side_swap a b point, side_swap a b v, neg_mul_neg] at this

theorem OuterSide.reverse {point : Coordinate K} {l : List (Coordinate K)}
    (h : OuterSide point l) : OuterSide point l.reverse := by
  obtain ⟨a, b, rest, hr, hv⟩ := h
  refine ⟨b, a, rest.reverse, isRotated_of_reverse (by simpa using hr), fun v hmem => ?_⟩
  rw [side_swap a b point, side_swap a b v, neg_mul_neg]
  exact hv v (List.mem_reverse.1 hmem)

/-- One vertex settles on which side of an edge the others are. -/
theorem StrictlyConvex.left_of_left {l : List (Coordinate K)} (h : StrictlyConvex l)
    {a b v : Coordinate K} {rest : List (Coordinate K)} (hl : l ~r a :: b :: rest)
    (hv : v ∈ rest) (hpos : 0 < side a b v) : ∀ w ∈ rest, 0 < side a b w :=
  (h.2 _ _ _ hl).resolve_right fun hneg => (hneg v hv).not_gt hpos

/-- The next edge turns the same way. -/
theorem StrictlyConvex.left_next {l : List (Coordinate K)} (h : StrictlyConvex l)
    {a b c : Coordinate K} {rest : List (Coordinate K)} (hl : l ~r a :: b :: c :: rest)
    (hc : 0 < side a b c) : ∀ w ∈ rest ++ [a], 0 < side b c w := by
  have hstep : [a] ++ b :: c :: rest ~r b :: c :: rest ++ [a] := List.isRotated_append
  refine h.left_of_left (hl.trans hstep) (List.mem_append_right rest List.mem_cons_self) ?_
  rwa [side_cycle]

/-- Consecutive edges turn the same way, so that one edge settles the orientation. -/
theorem StrictlyConvex.counterClockwise {l : List (Coordinate K)} (h : StrictlyConvex l)
    {a b v : Coordinate K} {rest : List (Coordinate K)} (hl : l ~r a :: b :: rest)
    (hv : v ∈ rest) (hpos : 0 < side a b v) : CounterClockwise l := by
  have key : ∀ k {a' b' rest'}, (a :: b :: rest).rotate k = a' :: b' :: rest' →
      ∀ w ∈ rest', 0 < side a' b' w := by
    intro k
    induction k with
    | zero =>
        intro a' b' rest' hk
        rw [List.rotate_zero] at hk
        obtain ⟨rfl, htail⟩ := List.cons.inj hk
        obtain ⟨rfl, rfl⟩ := List.cons.inj htail
        exact h.left_of_left hl hv hpos
    | succ k ih =>
        intro a' b' rest' hk
        have hlen : ((a :: b :: rest).rotate k).length = l.length := by
          rw [List.length_rotate, hl.perm.length_eq]
        rw [← List.rotate_rotate] at hk
        match hm : (a :: b :: rest).rotate k with
        | [] | [_] | [_, _] =>
            have := h.1
            rw [hm] at hlen
            simp at hlen
            omega
        | x :: y :: z :: s =>
            rw [hm] at hk
            have hk' : y :: z :: (s ++ [x]) = a' :: b' :: rest' := by simpa using hk
            obtain ⟨rfl, htail⟩ := List.cons.inj hk'
            obtain ⟨rfl, rfl⟩ := List.cons.inj htail
            exact h.left_next (hl.trans ⟨k, hm⟩) (ih hm z List.mem_cons_self)
  refine ⟨h.1, fun {a' b' rest'} hrot => ?_⟩
  obtain ⟨k, hk⟩ := hl.symm.trans hrot
  exact key k hk

theorem StrictlyConvex.counterClockwise_or_reverse {l : List (Coordinate K)}
    (h : StrictlyConvex l) : CounterClockwise l ∨ CounterClockwise l.reverse := by
  match l, h with
  | [], h | [_], h | [_, _], h => have := h.1; simp at this
  | a :: b :: c :: rest, h =>
      rcases h.2 a b (c :: rest) (.refl _) with hpos | hneg
      · exact .inl (h.counterClockwise (.refl _) List.mem_cons_self (hpos c List.mem_cons_self))
      · refine .inr (h.reverse.counterClockwise (v := c)
          (isRotated_of_reverse (l := (a :: b :: c :: rest).reverse)
            (by rw [List.reverse_reverse])) (by simp) ?_)
        rw [side_swap, neg_pos]
        exact hneg c List.mem_cons_self

/-! ### The edges at a latitude -/

/-- The edge goes up through the latitude of the point. -/
def enters (point : Coordinate K) (e : Coordinate K × Coordinate K) : Bool :=
  !above point e.1 && above point e.2

/-- The edge goes down through the latitude of the point. -/
def leaves (point : Coordinate K) (e : Coordinate K × Coordinate K) : Bool :=
  above point e.1 && !above point e.2

theorem enters_iff {point : Coordinate K} {e : Coordinate K × Coordinate K} :
    enters point e = true ↔ above point e.1 = false ∧ above point e.2 = true := by
  simp [enters]

theorem leaves_iff {point : Coordinate K} {e : Coordinate K × Coordinate K} :
    leaves point e = true ↔ above point e.1 = true ∧ above point e.2 = false := by
  simp [leaves]

theorem countP_enters_eq_leaves (point : Coordinate K) (l : List (Coordinate K)) :
    (ClosedPath.closed l).countP (enters point) = (ClosedPath.closed l).countP (leaves point) :=
  ClosedPath.countP_enter_eq_leave (above point) l

theorem countP_and_of_forall {α : Type*} {p q : α → Bool} {b : Bool} {l : List α}
    (h : ∀ e ∈ l, p e = true → q e = b) :
    l.countP (fun e => p e && q e) = if b then l.countP p else 0 := by
  cases b with
  | true =>
      refine List.countP_congr fun e he => ?_
      cases hp : p e
      · simp
      · simp [h e he hp]
  | false =>
      refine List.countP_eq_zero.2 fun e he hpq => ?_
      rw [Bool.and_eq_true] at hpq
      rw [h e he hpq.1] at hpq
      exact Bool.false_ne_true hpq.2

/-- An edge that crosses goes up or down. -/
theorem crossings_eq_add (point : Coordinate K) (walk : List (Coordinate K × Coordinate K)) :
    crossings point walk =
      walk.countP (fun e => enters point e && crosses point e.2 e.1) +
        walk.countP (fun e => leaves point e && crosses point e.2 e.1) := by
  induction walk with
  | nil => rfl
  | cons e walk ih =>
      rw [crossings_cons, ih, List.countP_cons, List.countP_cons]
      cases ha : above point e.1 <;> cases hb : above point e.2
      · simp [enters, leaves, ha, hb, crosses_of_above_eq (ha.trans hb.symm)]
      · simp [enters, leaves, ha, hb]; omega
      · simp [enters, leaves, ha, hb]; omega
      · simp [enters, leaves, ha, hb, crosses_of_above_eq (ha.trans hb.symm)]

namespace CounterClockwise

variable {l : List (Coordinate K)} {point : Coordinate K}

/-- An edge has a third vertex beside it. -/
theorem exists_third (h : CounterClockwise l) {a b : Coordinate K} {rest : List (Coordinate K)}
    (hrot : l ~r a :: b :: rest) : ∃ v rest', rest = v :: rest' := by
  have hthree := h.three
  rw [hrot.perm.length_eq, List.length_cons, List.length_cons] at hthree
  exact List.exists_cons_of_length_pos (by omega)

/-- A vertex is on no outer side, and on the line of an edge only as one of its ends. -/
theorem side_pos (h : CounterClockwise l) {a b v : Coordinate K}
    (he : (a, b) ∈ ClosedPath.closed l) (hv : v ∈ l) (hva : v ≠ a) (hvb : v ≠ b) :
    0 < side a b v := by
  have hthree := h.three
  obtain ⟨rest, hrot⟩ := ClosedPath.exists_isRotated_of_mem he (by omega)
  have hmem : v ∈ a :: b :: rest := hrot.mem_iff.1 hv
  exact h.left hrot v (by simpa [hva, hvb] using hmem)

theorem side_nonneg (h : CounterClockwise l) {a b v : Coordinate K}
    (he : (a, b) ∈ ClosedPath.closed l) (hv : v ∈ l) : 0 ≤ side a b v := by
  by_cases hva : v = a
  · rw [hva, side_left]
  · by_cases hvb : v = b
    · rw [hvb, side_right]
    · exact (h.side_pos he hv hva hvb).le

/-- Two edges that go up through one latitude cannot each have the other on the left. -/
theorem not_two_enter (h : CounterClockwise l) {a b : Coordinate K} {rest : List (Coordinate K)}
    (hrot : l ~r a :: b :: rest) (ha : above point a = false) (hb : above point b = true)
    {e : Coordinate K × Coordinate K} (he : e ∈ ClosedPath.legs b (rest ++ [a]))
    (hc : above point e.1 = false) (hd : above point e.2 = true) : False := by
  obtain ⟨c, d⟩ := e
  have hab : ClosedPath.legs a (b :: rest ++ [a]) = (a, b) :: ClosedPath.legs b (rest ++ [a]) := rfl
  have hmem : (c, d) ∈ ClosedPath.closed l := by
    refine (ClosedPath.closed_perm_of_isRotated hrot).mem_iff.2 ?_
    rw [(ClosedPath.closed_cons_perm a (b :: rest)).mem_iff, hab]
    exact List.mem_cons_of_mem _ he
  -- the ends differ from those of the other edge by their latitudes
  have hcrest : c ∈ rest := by
    have := List.mem_map_of_mem (f := Prod.fst) he
    rw [ClosedPath.map_fst_legs] at this
    refine (List.mem_cons.1 this).resolve_left fun hcb => ?_
    rw [show c = b from hcb, hb] at hc
    cases hc
  have hdrest : d ∈ rest := by
    have := List.mem_map_of_mem (f := Prod.snd) he
    rw [ClosedPath.map_snd_legs] at this
    refine (List.mem_append.1 this).resolve_right fun hda => ?_
    rw [show d = a from List.mem_singleton.1 hda, ha] at hd
    cases hd
  have hsc := h.left hrot c hcrest
  have hsd := h.left hrot d hdrest
  have hal : a ∈ l := hrot.mem_iff.2 List.mem_cons_self
  have hbl : b ∈ l := hrot.mem_iff.2 (by simp)
  have hsa : 0 < side c d a := by
    refine h.side_pos hmem hal ?_ ?_
    · rintro rfl
      rw [side_left] at hsc
      exact hsc.false
    · rintro rfl
      rw [ha] at hd
      cases hd
  have hsb : 0 < side c d b := by
    refine h.side_pos hmem hbl ?_ ?_
    · rintro rfl
      rw [hb] at hc
      cases hc
    · rintro rfl
      rw [side_right] at hsd
      exact hsd.false
  have hbal := side_balance point a b c d
  have h1 := mul_pos (sub_pos.2 (of_decide_eq_true hd)) hsc
  have h2 := mul_nonneg (sub_nonneg.2 (not_lt.1 (of_decide_eq_false hc))) hsd.le
  have h3 := mul_pos (sub_pos.2 (of_decide_eq_true hb)) hsa
  have h4 := mul_nonneg (sub_nonneg.2 (not_lt.1 (of_decide_eq_false ha))) hsb.le
  linarith

/-- **At most one edge goes up through a latitude.** -/
theorem countP_enters_le_one (h : CounterClockwise l) (point : Coordinate K) :
    (ClosedPath.closed l).countP (enters point) ≤ 1 := by
  by_contra hgt
  obtain ⟨⟨a, b⟩, hmem, he⟩ := List.countP_pos_iff.1
    (by omega : 0 < (ClosedPath.closed l).countP (enters point))
  have hthree := h.three
  obtain ⟨rest, hrot⟩ := ClosedPath.exists_isRotated_of_mem hmem (by omega)
  have hperm : (ClosedPath.closed l).Perm ((a, b) :: ClosedPath.legs b (rest ++ [a])) :=
    (ClosedPath.closed_perm_of_isRotated hrot).trans (ClosedPath.closed_cons_perm a (b :: rest))
  rw [hperm.countP_eq, List.countP_cons_of_pos he] at hgt
  obtain ⟨f, hf, hfe⟩ := List.countP_pos_iff.1
    (by omega : 0 < (ClosedPath.legs b (rest ++ [a])).countP (enters point))
  obtain ⟨ha, hb⟩ := enters_iff.1 he
  obtain ⟨hc, hd⟩ := enters_iff.1 hfe
  exact h.not_two_enter hrot ha hb hf hc hd

/-! ### Points outside -/

/-- **A point between the two crossings is on no outer side:** if exactly one of the two edges
crosses the ray, the point is a mean of their ends. -/
theorem side_nonneg_of_between (h : CounterClockwise l) {e f g : Coordinate K × Coordinate K}
    (he : e ∈ ClosedPath.closed l) (hf : f ∈ ClosedPath.closed l) (hg : g ∈ ClosedPath.closed l)
    (hup : enters point e = true) (hdown : leaves point f = true)
    (hne : crosses point e.2 e.1 ≠ crosses point f.2 f.1) : 0 ≤ side g.1 g.2 point := by
  obtain ⟨a, b⟩ := e
  obtain ⟨c, d⟩ := f
  obtain ⟨u, w⟩ := g
  obtain ⟨ha, hb⟩ := enters_iff.1 hup
  obtain ⟨hc, hd⟩ := leaves_iff.1 hdown
  have hA := sub_nonneg.2 (not_lt.1 (of_decide_eq_false ha))
  have hB := sub_pos.2 (of_decide_eq_true hb)
  have hC := sub_pos.2 (of_decide_eq_true hc)
  have hD := sub_nonneg.2 (not_lt.1 (of_decide_eq_false hd))
  have hsa := h.side_nonneg hg (ClosedPath.fst_mem_of_mem_closed he)
  have hsb := h.side_nonneg hg (ClosedPath.snd_mem_of_mem_closed he)
  have hsc := h.side_nonneg hg (ClosedPath.fst_mem_of_mem_closed hf)
  have hsd := h.side_nonneg hg (ClosedPath.snd_mem_of_mem_closed hf)
  have hE : 0 ≤ (b.lat - point.lat) * side u w a + (point.lat - a.lat) * side u w b :=
    add_nonneg (mul_nonneg hB.le hsa) (mul_nonneg hA hsb)
  have hF : 0 ≤ (point.lat - d.lat) * side u w c + (c.lat - point.lat) * side u w d :=
    add_nonneg (mul_nonneg hD hsc) (mul_nonneg hC.le hsd)
  have hbetween := side_between point a b c d u w
  have hab : 0 < b.lat - a.lat := by linarith
  have hcd : 0 < c.lat - d.lat := by linarith
  by_contra hlt
  rw [not_le] at hlt
  cases hce : crosses point b a with
  | true =>
      have hcf : crosses point d c = false := by simpa [hce] using hne
      have hse : 0 < side a b point := (crosses_of_enter ha hb).1 hce
      have hsf : 0 ≤ side c d point := by
        rw [← not_lt, ← crosses_of_leave hc hd, hcf]
        exact Bool.false_ne_true
      have hw : 0 < side c d point * (b.lat - a.lat) + side a b point * (c.lat - d.lat) :=
        add_pos_of_nonneg_of_pos (mul_nonneg hsf hab.le) (mul_pos hse hcd)
      have h1 := mul_neg_of_pos_of_neg hw hlt
      have h2 := add_nonneg (mul_nonneg hsf hE) (mul_nonneg hse.le hF)
      linarith
  | false =>
      have hcf : crosses point d c = true := by simpa [hce] using hne
      have hse : side a b point ≤ 0 := by
        rw [← not_lt, ← crosses_of_enter ha hb, hce]
        exact Bool.false_ne_true
      have hsf : side c d point < 0 := (crosses_of_leave hc hd).1 hcf
      have hw : side c d point * (b.lat - a.lat) + side a b point * (c.lat - d.lat) < 0 :=
        add_neg_of_neg_of_nonpos (mul_neg_of_neg_of_pos hsf hab)
          (mul_nonpos_of_nonpos_of_nonneg hse hcd.le)
      have h1 := mul_pos_of_neg_of_neg hw hlt
      have h2 := add_nonpos (mul_nonpos_of_nonpos_of_nonneg hsf.le hE)
        (mul_nonpos_of_nonpos_of_nonneg hse hF)
      linarith

/-- On an outer side the edges that go up and down are crossed both or neither. -/
theorem pointInPolygon_of_outer (h : CounterClockwise l) (hout : OuterSide point l) :
    pointInPolygon point l = false := by
  obtain ⟨a, b, rest, hrot, hside⟩ := hout
  have hthree := h.three
  have hneg : side a b point < 0 := by
    obtain ⟨v, rest', rfl⟩ := h.exists_third hrot
    have hv := h.left hrot v List.mem_cons_self
    exact neg_of_mul_neg_left (hside v List.mem_cons_self) hv.le
  have hg : (a, b) ∈ ClosedPath.closed l := by
    rw [(ClosedPath.closed_perm_of_isRotated hrot).mem_iff,
      (ClosedPath.closed_cons_perm a (b :: rest)).mem_iff]
    exact List.mem_cons_self
  have hboth : ∀ e ∈ ClosedPath.closed l, enters point e = true →
      ∀ f ∈ ClosedPath.closed l, leaves point f = true →
        crosses point e.2 e.1 = crosses point f.2 f.1 := by
    intro e he hup f hf hdown
    by_contra hne
    exact (h.side_nonneg_of_between he hf hg hup hdown hne).not_gt hneg
  rw [pointInPolygon_eq point hthree, crossings_eq_add]
  have hcount := countP_enters_eq_leaves point l
  rcases Nat.eq_zero_or_pos ((ClosedPath.closed l).countP (enters point)) with h0 | hpos
  · have hup := List.countP_eq_zero.1 h0
    have hdown := List.countP_eq_zero.1 (hcount.symm.trans h0)
    rw [countP_and_of_forall (b := false) fun e he hp => absurd hp (hup e he),
      countP_and_of_forall (b := false) fun e he hp => absurd hp (hdown e he)]
    simp
  · obtain ⟨e, he, hup⟩ := List.countP_pos_iff.1 hpos
    obtain ⟨f, hf, hdown⟩ := List.countP_pos_iff.1 (hcount ▸ hpos)
    rw [countP_and_of_forall fun e' he' hup' => hboth e' he' hup' f hf hdown,
      countP_and_of_forall fun f' hf' hdown' => (hboth e he hup f' hf' hdown').symm,
      hboth e he hup f hf hdown, hcount]
    cases crosses point f.2 f.1 <;> simp

/-! ### Points inside -/

theorem side_pos_of_inner (h : CounterClockwise l) (hin : InnerSide point l)
    {a b : Coordinate K} {rest : List (Coordinate K)} (hrot : l ~r a :: b :: rest) :
    0 < side a b point := by
  obtain ⟨v, rest', rfl⟩ := h.exists_third hrot
  have hv := h.left hrot v List.mem_cons_self
  exact (mul_pos_iff_of_pos_right hv).1 (hin a b (v :: rest') hrot v List.mem_cons_self)

/-- A vertex with the edge before it and the vertex after it. -/
theorem exists_isRotated_around (h : CounterClockwise l) {b : Coordinate K} (hb : b ∈ l) :
    ∃ a c rest, l ~r a :: b :: c :: rest := by
  have hthree := h.three
  obtain ⟨a, he⟩ := ClosedPath.exists_leg_to hb
  obtain ⟨rest, hrot⟩ := ClosedPath.exists_isRotated_of_mem he (by omega)
  obtain ⟨c, rest', rfl⟩ := h.exists_third hrot
  exact ⟨a, c, rest', hrot⟩

/-- At a vertex the path turns to the left, and a point inside is to the left of both edges. -/
theorem side_vertex_pos (h : CounterClockwise l) (hin : InnerSide point l)
    {a b c : Coordinate K} {rest : List (Coordinate K)} (hrot : l ~r a :: b :: c :: rest) :
    0 < side a b c ∧ 0 < side a b point ∧ 0 < side b c point := by
  have hstep : [a] ++ b :: c :: rest ~r b :: c :: rest ++ [a] := List.isRotated_append
  have hnext : l ~r b :: c :: (rest ++ [a]) := hrot.trans hstep
  exact ⟨h.left hrot c List.mem_cons_self, h.side_pos_of_inner hin hrot,
    h.side_pos_of_inner hin hnext⟩

/-- A point inside is below the highest vertex. -/
theorem exists_above (h : CounterClockwise l) (hin : InnerSide point l) :
    ∃ v ∈ l, above point v = true := by
  have hthree := h.three
  obtain ⟨b, hb, hmax⟩ := l.toFinset.exists_max_image Coordinate.lat
    (List.toFinset_nonempty_iff l |>.2 (List.ne_nil_of_length_pos (by omega)))
  rw [List.mem_toFinset] at hb
  obtain ⟨a, c, rest, hrot⟩ := h.exists_isRotated_around hb
  obtain ⟨habc, hab, hbc⟩ := h.side_vertex_pos hin hrot
  have ha : a.lat ≤ b.lat := hmax a (List.mem_toFinset.2 (hrot.mem_iff.2 (by simp)))
  have hc : c.lat ≤ b.lat := hmax c (List.mem_toFinset.2 (hrot.mem_iff.2 (by simp)))
  refine ⟨b, hb, decide_eq_true ?_⟩
  by_contra hge
  have hv := side_vertex point a b c
  have h1 := mul_nonneg habc.le (sub_nonneg.2 (not_lt.1 hge))
  have h2 := mul_nonneg hab.le (sub_nonneg.2 hc)
  have h3 := mul_nonneg hbc.le (sub_nonneg.2 ha)
  -- both edges would be level, and the path would not turn
  have hcb : b.lat - c.lat = 0 := (mul_eq_zero.1 (by linarith)).resolve_left hab.ne'
  have hba : b.lat - a.lat = 0 := (mul_eq_zero.1 (by linarith)).resolve_left hbc.ne'
  have hca : c.lat - a.lat = 0 := by linarith
  have h0 : side a b c = 0 := by rw [side, hca, hba, mul_zero, zero_mul, sub_zero]
  exact habc.ne' h0

/-- A point inside is not below the lowest vertex. -/
theorem exists_not_above (h : CounterClockwise l) (hin : InnerSide point l) :
    ∃ v ∈ l, above point v = false := by
  have hthree := h.three
  obtain ⟨b, hb, hmin⟩ := l.toFinset.exists_min_image Coordinate.lat
    (List.toFinset_nonempty_iff l |>.2 (List.ne_nil_of_length_pos (by omega)))
  rw [List.mem_toFinset] at hb
  obtain ⟨a, c, rest, hrot⟩ := h.exists_isRotated_around hb
  obtain ⟨habc, hab, hbc⟩ := h.side_vertex_pos hin hrot
  have ha : b.lat ≤ a.lat := hmin a (List.mem_toFinset.2 (hrot.mem_iff.2 (by simp)))
  have hc : b.lat ≤ c.lat := hmin c (List.mem_toFinset.2 (hrot.mem_iff.2 (by simp)))
  refine ⟨b, hb, decide_eq_false fun hlt => ?_⟩
  have hv := side_vertex point a b c
  have h1 := mul_pos habc (sub_pos.2 hlt)
  have h2 := mul_nonneg hab.le (sub_nonneg.2 hc)
  have h3 := mul_nonneg hbc.le (sub_nonneg.2 ha)
  linarith

/-- On all inner sides the one edge that goes up is crossed, and the one that goes down is not. -/
theorem pointInPolygon_of_inner (h : CounterClockwise l) (hin : InnerSide point l) :
    pointInPolygon point l = true := by
  have hthree := h.three
  have hedge : ∀ e ∈ ClosedPath.closed l, 0 < side e.1 e.2 point := by
    rintro ⟨a, b⟩ he
    obtain ⟨rest, hrot⟩ := ClosedPath.exists_isRotated_of_mem he (by omega)
    exact h.side_pos_of_inner hin hrot
  have hup : ∀ e ∈ ClosedPath.closed l, enters point e = true →
      crosses point e.2 e.1 = true := fun e he hpe =>
    (crosses_of_enter (enters_iff.1 hpe).1 (enters_iff.1 hpe).2).2 (hedge e he)
  have hdown : ∀ e ∈ ClosedPath.closed l, leaves point e = true →
      crosses point e.2 e.1 = false := by
    intro e he hpe
    rw [← Bool.not_eq_true, crosses_of_leave (leaves_iff.1 hpe).1 (leaves_iff.1 hpe).2]
    exact (hedge e he).not_gt
  have hone : (ClosedPath.closed l).countP (enters point) = 1 :=
    Nat.le_antisymm (h.countP_enters_le_one point)
      (ClosedPath.countP_enter_pos (h.exists_above hin) (h.exists_not_above hin))
  rw [pointInPolygon_eq point hthree, crossings_eq_add, countP_and_of_forall hup,
    countP_and_of_forall hdown, hone]
  simp

end CounterClockwise

/-- **Ray casting is right on convex zones**, in either orientation and for points level with
vertices or edges as well, and it never divides by zero. -/
theorem pointInPolygon_of_convex {polygon : List (Coordinate K)} (h : StrictlyConvex polygon)
    (point : Coordinate K) :
    (InnerSide point polygon → pointInPolygon point polygon = true) ∧
      (OuterSide point polygon → pointInPolygon point polygon = false) ∧
      ∀ e ∈ ClosedPath.closed polygon, straddles point e.2 e.1 = true →
        e.2.lat - e.1.lat ≠ 0 := by
  refine ⟨fun hin => ?_, fun hout => ?_, fun e _ hs => lat_sub_ne_zero hs⟩
  · rcases h.counterClockwise_or_reverse with hccw | hcw
    · exact hccw.pointInPolygon_of_inner hin
    · rw [← pointInPolygon_reverse]
      exact hcw.pointInPolygon_of_inner hin.reverse
  · rcases h.counterClockwise_or_reverse with hccw | hcw
    · exact hccw.pointInPolygon_of_outer hout
    · rw [← pointInPolygon_reverse]
      exact hcw.pointInPolygon_of_outer hout.reverse

/-- The first edges of the rotations of a triangle. -/
theorem isRotated_triangle {x y z a b : Coordinate K} {rest : List (Coordinate K)}
    (h : [x, y, z] ~r a :: b :: rest) :
    (a = x ∧ b = y ∧ rest = [z]) ∨ (a = y ∧ b = z ∧ rest = [x]) ∨ (a = z ∧ b = x ∧ rest = [y]) := by
  rw [List.isRotated_iff_mem_map_range] at h
  simpa [List.range_succ, or_assoc, or_comm, or_left_comm] using h

/-- A triangle, a point in it, and a point outside that is level with one of its edges. -/
theorem pointInPolygon_of_convex_triangle :
    pointInPolygon (⟨1, 1⟩ : Coordinate ℚ) [⟨0, 0⟩, ⟨0, 4⟩, ⟨4, 0⟩] = true ∧
      pointInPolygon (⟨0, 5⟩ : Coordinate ℚ) [⟨0, 0⟩, ⟨0, 4⟩, ⟨4, 0⟩] = false := by
  have hconvex : StrictlyConvex ([⟨0, 0⟩, ⟨0, 4⟩, ⟨4, 0⟩] : List (Coordinate ℚ)) := by
    refine ⟨le_rfl, fun a b rest h => .inl ?_⟩
    rcases isRotated_triangle h with ⟨rfl, rfl, rfl⟩ | ⟨rfl, rfl, rfl⟩ | ⟨rfl, rfl, rfl⟩ <;>
      simp [side]
  refine ⟨(pointInPolygon_of_convex hconvex ⟨1, 1⟩).1 ?_,
    (pointInPolygon_of_convex hconvex ⟨0, 5⟩).2.1 ⟨⟨0, 4⟩, ⟨4, 0⟩, [⟨0, 0⟩], ⟨1, rfl⟩, ?_⟩⟩
  · intro a b rest h
    rcases isRotated_triangle h with ⟨rfl, rfl, rfl⟩ | ⟨rfl, rfl, rfl⟩ | ⟨rfl, rfl, rfl⟩
    · simp [side]
    · simp [side]
      norm_num
    · simp [side]
  · simp [side]
    norm_num

end ParkingFeeService
