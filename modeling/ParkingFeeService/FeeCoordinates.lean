/-
**The coordinates of a lookup.**

The two query parameters are read as floating-point numbers, and the handler answers 400 if one of
them compares as out of range.  NaN is read like any other number and compares as false with every
bound, so that it is taken for a coordinate: a lookup with NaN for a latitude is answered 200 where
the longitude is in range or NaN too.  Infinities fail the comparisons, and texts that are not
numbers, or are too large, are not read.

Main definitions:

* `ParkingFeeService.float64Service` — the service with its numbers read from texts;
* `ParkingFeeService.InRange` — a text denotes a number in a range;
* `ParkingFeeService.CoordinatesChecked` — only coordinates in range are searched for.

Main results:

* `ParkingFeeService.inRange_90_iff`, `ParkingFeeService.inRange_180_iff` — the texts in range;
* `ParkingFeeService.exists_queryPoint_iff` — what reaches the search;
* `ParkingFeeService.nan_latitude_is_searched` — a lookup with NaN for a latitude;
* `ParkingFeeService.coordinatesChecked_iff` — when only coordinates in range are searched for.
-/

import ParkingFeeService.FeeOperators
import ParkingFeeService.ParseFloat

set_option relaxedAutoImplicit false
set_option autoImplicit false

namespace ParkingFeeService

open ParseFloat (parseFloat NamesNan)

/-- The numbers of the service. -/
abbrev Float64 := BinaryFloat .binary64

/-- The status of an answer. -/
def Reply.status {α : Type*} : Reply α → ℕ
  | .ok _ => 200
  | .error status _ => status

/-- The service with its configuration, reading numbers as `ParseFloat` does. -/
def float64Service (sphere : Sphere Float64 Float64) (zones : List (Zone Float64))
    (operators : List (Operator Float64)) (threshold : Float64) : Service Float64 Float64 where
  sphere := sphere
  parseFloat := parseFloat .binary64
  zones := zones
  operators := operators
  threshold := threshold

/-- The text denotes a finite number between `-bound` and `bound`. -/
def InRange (bound : ℤ) (s : String) : Prop :=
  ∃ x, parseFloat .binary64 s = some x ∧ x.IsFinite ∧ -bound ≤ x.toRat ∧ x.toRat ≤ bound

/-- **Only coordinates in range are searched for**, and all others are answered 400. -/
def CoordinatesChecked (S : Service Float64 Float64) (lat lon : String) : Prop :=
  (((∃ point, queryPoint S.parseFloat lat lon = .ok point) ∧
      (S.operatorHandler lat lon).status = 200) ↔ InRange 90 lat ∧ InRange 180 lon) ∧
    (¬ (InRange 90 lat ∧ InRange 180 lon) → (S.operatorHandler lat lon).status = 400)

/-! ### The texts in range -/

theorem inRange_iff_within {bound : ℤ} {s : String} :
    InRange bound s ↔ ∃ x, parseFloat .binary64 s = some x ∧ x.Within (bound : ℚ) := by
  refine exists_congr fun x => and_congr_right fun _ => and_congr_right fun _ => ?_
  exact abs_le.symm

/-- A bound that is a floating-point number, with its significand. -/
theorem inRange_iff {bound : ℤ} {N : ℕ} {E : ℤ} (hbound : (bound : ℚ) = BinaryFloat.dyadic N E)
    (h : BinaryFloat.EvenBound .binary64 N E) (hE : -53 ≤ E) {s : String} :
    InRange bound s ↔ ∃ n, ParseFloat.readFloat s.toList = some n ∧
      |n.toRat| ≤ BinaryFloat.dyadic (2 * N + 1) (E - 1) := by
  rw [inRange_iff_within, hbound]
  exact ParseFloat.exists_parseFloat_within_iff h hE

/-- **The latitudes in range** are the numerals that are at most `2⁻⁴⁷` beyond ninety degrees. -/
theorem inRange_90_iff {s : String} :
    InRange 90 s ↔ ∃ n, ParseFloat.readFloat s.toList = some n ∧ |n.toRat| ≤ 90 + 1 / 2 ^ 47 := by
  have hhalf : BinaryFloat.dyadic (2 * (45 * 2 ^ 47) + 1) (-46 - 1) = 90 + 1 / 2 ^ 47 := by
    norm_num [BinaryFloat.dyadic]
  rw [← hhalf]
  refine inRange_iff ?_ ⟨by decide, by decide, by decide, by decide, by decide⟩ (by decide)
  norm_num [BinaryFloat.dyadic]

/-- **The longitudes in range** are the numerals that are at most `2⁻⁴⁶` beyond 180 degrees. -/
theorem inRange_180_iff {s : String} :
    InRange 180 s ↔ ∃ n, ParseFloat.readFloat s.toList = some n ∧ |n.toRat| ≤ 180 + 1 / 2 ^ 46 := by
  have hhalf : BinaryFloat.dyadic (2 * (45 * 2 ^ 47) + 1) (-45 - 1) = 180 + 1 / 2 ^ 46 := by
    norm_num [BinaryFloat.dyadic]
  rw [← hhalf]
  refine inRange_iff ?_ ⟨by decide, by decide, by decide, by decide, by decide⟩ (by decide)
  norm_num [BinaryFloat.dyadic]

/-! ### The comparisons -/

/-- The text is taken for a number between `-bound` and `bound`. -/
def TakenInRange (bound : ℤ) (s : String) : Prop := NamesNan s.toList ∨ InRange bound s

theorem not_inRange_of_namesNan {bound : ℤ} {s : String} (h : NamesNan s.toList) :
    ¬ InRange bound s := by
  rintro ⟨x, hx, hfinite, -⟩
  rw [ParseFloat.parseFloat_eq_nan_iff.2 h] at hx
  cases hx
  exact hfinite

/-- A bound that is a floating-point number on both sides of zero. -/
def Represented (bound : ℤ) : Prop :=
  (((-bound : ℤ) : Float64).IsFinite ∧ ((-bound : ℤ) : Float64).toRat = -bound) ∧
    (bound : Float64).IsFinite ∧ (bound : Float64).toRat = bound

theorem represented_90 : Represented 90 :=
  ⟨⟨by decide +kernel, by decide +kernel⟩, by decide +kernel, by decide +kernel⟩

theorem represented_180 : Represented 180 :=
  ⟨⟨by decide +kernel, by decide +kernel⟩, by decide +kernel, by decide +kernel⟩

/-- The two comparisons of the handler. -/
theorem not_out_of_range_iff {bound : ℤ} (h : Represented bound) {s : String} {x : Float64}
    (hx : parseFloat .binary64 s = some x) :
    (¬ x < ((-bound : ℤ) : Float64) ∧ ¬ (bound : Float64) < x) ↔ TakenInRange bound s := by
  obtain ⟨⟨hlower, hlowerRat⟩, hupper, hupperRat⟩ := h
  rw [BinaryFloat.not_lt_and_not_lt_iff hlower hupper, hlowerRat, hupperRat]
  refine or_congr ?_ ?_
  · rw [← ParseFloat.parseFloat_eq_nan_iff (F := .binary64), hx, Option.some_inj]
  · constructor
    · exact fun hrange => ⟨x, hx, hrange⟩
    · rintro ⟨y, hy, hrange⟩
      cases hx.symm.trans hy
      exact hrange

theorem not_takenInRange_of_none {bound : ℤ} {s : String} (h : parseFloat .binary64 s = none) :
    ¬ TakenInRange bound s := by
  rintro (hnan | ⟨x, hx, -⟩)
  · rw [ParseFloat.parseFloat_eq_nan_iff.2 hnan] at h
    cases h
  · rw [hx] at h
    cases h

theorem parseFloat_empty : parseFloat .binary64 "" = none := by decide

/-- **What reaches the search:** the pairs of texts that are both taken for numbers in range. -/
theorem exists_queryPoint_iff {lat lon : String} :
    (∃ point, queryPoint (parseFloat .binary64) lat lon = .ok point) ↔
      TakenInRange 90 lat ∧ TakenInRange 180 lon := by
  rw [queryPoint]
  split_ifs with hempty
  · refine iff_of_false (by simp) fun h => ?_
    rcases hempty with rfl | rfl
    · exact not_takenInRange_of_none parseFloat_empty h.1
    · exact not_takenInRange_of_none parseFloat_empty h.2
  · cases hlat : parseFloat .binary64 lat with
    | none => exact iff_of_false (by simp) fun h => not_takenInRange_of_none hlat h.1
    | some x =>
        cases hlon : parseFloat .binary64 lon with
        | none => exact iff_of_false (by simp) fun h => not_takenInRange_of_none hlon h.2
        | some y =>
            rw [← not_out_of_range_iff represented_90 hlat,
              ← not_out_of_range_iff represented_180 hlon]
            dsimp only
            split_ifs with hout
            · refine iff_of_false (by simp) fun h => ?_
              rcases hout with hout | hout | hout | hout
              · exact h.1.1 hout
              · exact h.1.2 hout
              · exact h.2.1 hout
              · exact h.2.2 hout
            · simp only [not_or] at hout
              exact iff_of_true ⟨_, rfl⟩ ⟨⟨hout.1, hout.2.1⟩, hout.2.2⟩

/-! ### The answer -/

section Answer

variable (sphere : Sphere Float64 Float64) (zones : List (Zone Float64))
  (operators : List (Operator Float64)) (threshold : Float64)

/-- What reaches the search is answered 200, and all else 400. -/
theorem status_operatorHandler (lat lon : String) :
    (TakenInRange 90 lat ∧ TakenInRange 180 lon ∧
        ((float64Service sphere zones operators threshold).operatorHandler lat lon).status = 200) ∨
      (¬ (TakenInRange 90 lat ∧ TakenInRange 180 lon) ∧
        ((float64Service sphere zones operators threshold).operatorHandler lat lon).status =
          400) := by
  rw [← and_assoc, ← exists_queryPoint_iff, Service.operatorHandler, float64Service]
  dsimp only
  cases queryPoint (parseFloat .binary64) lat lon with
  | error message => exact .inr ⟨by simp, rfl⟩
  | ok point => exact .inl ⟨⟨point, rfl⟩, rfl⟩

theorem status_eq_200_iff {lat lon : String} :
    ((float64Service sphere zones operators threshold).operatorHandler lat lon).status = 200 ↔
      TakenInRange 90 lat ∧ TakenInRange 180 lon := by
  rcases status_operatorHandler sphere zones operators threshold lat lon with
    ⟨hlat, hlon, hstatus⟩ | ⟨htaken, hstatus⟩
  · exact iff_of_true hstatus ⟨hlat, hlon⟩
  · exact iff_of_false (by simp [hstatus]) htaken

theorem status_eq_400_iff {lat lon : String} :
    ((float64Service sphere zones operators threshold).operatorHandler lat lon).status = 400 ↔
      ¬ (TakenInRange 90 lat ∧ TakenInRange 180 lon) := by
  rcases status_operatorHandler sphere zones operators threshold lat lon with
    ⟨hlat, hlon, hstatus⟩ | ⟨htaken, hstatus⟩
  · exact iff_of_false (by simp [hstatus]) (fun h => h ⟨hlat, hlon⟩)
  · exact iff_of_true hstatus htaken

/-- **A lookup with NaN for a latitude is searched for.** -/
theorem nan_latitude_is_searched :
    ¬ CoordinatesChecked
      (float64Service ⟨fun _ _ => 0, fun _ => 1, .inf false⟩ [] [] ((500 : ℤ) : Float64))
      "NaN" "0" := by
  have hlat : NamesNan "NaN".toList := by decide
  have hlon : InRange 180 "0" :=
    ⟨.zero .binary64 false, by decide +kernel, by decide +kernel, by decide +kernel,
      by decide +kernel⟩
  rintro ⟨hsearched, -⟩
  refine not_inRange_of_namesNan hlat (hsearched.1 ⟨?_, ?_⟩).1
  · exact exists_queryPoint_iff.2 ⟨.inl hlat, .inr hlon⟩
  · exact (status_eq_200_iff ..).2 ⟨.inl hlat, .inr hlon⟩

/-- **When only coordinates in range are searched for:** NaN is not one of the two texts, or the
other one is neither in range nor NaN. -/
theorem coordinatesChecked_iff (lat lon : String) :
    CoordinatesChecked (float64Service sphere zones operators threshold) lat lon ↔
      (NamesNan lat.toList → ¬ (NamesNan lon.toList ∨ InRange 180 lon)) ∧
        (NamesNan lon.toList → ¬ (NamesNan lat.toList ∨ InRange 90 lat)) := by
  rw [CoordinatesChecked, status_eq_200_iff, status_eq_400_iff]
  simp only [float64Service, exists_queryPoint_iff, and_self]
  constructor
  · rintro ⟨hsearched, -⟩
    refine ⟨fun hlat hlon => ?_, fun hlon hlat => ?_⟩
    · exact not_inRange_of_namesNan hlat (hsearched.1 ⟨.inl hlat, hlon⟩).1
    · exact not_inRange_of_namesNan hlon (hsearched.1 ⟨hlat, .inl hlon⟩).2
  · rintro ⟨hlat, hlon⟩
    have hinRange : TakenInRange 90 lat ∧ TakenInRange 180 lon →
        InRange 90 lat ∧ InRange 180 lon := by
      rintro ⟨hlat' | hlat', hlon' | hlon'⟩
      · exact absurd (.inl hlon') (hlat hlat')
      · exact absurd (.inr hlon') (hlat hlat')
      · exact absurd (.inr hlat') (hlon hlon')
      · exact ⟨hlat', hlon'⟩
    exact ⟨⟨hinRange, fun h => ⟨.inr h.1, .inr h.2⟩⟩, fun h htaken => h (hinRange htaken)⟩

end Answer

end ParkingFeeService
