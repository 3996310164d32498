/-
**Floating-point arithmetic.**

Sums, products and quotients of finite numbers are the exact ones, rounded.  A result that is zero
keeps the sign that IEEE 754 gives it, and NaN comes of everything that has no value.  A comparison
with NaN is false, whichever side it is on.

Main definitions:

* `BinaryFloat.opposite`, `BinaryFloat.add`, `BinaryFloat.mul`, `BinaryFloat.div` — arithmetic;
* `BinaryFloat.Less` — comparison.

Main results:

* `BinaryFloat.lt_iff_toRat_lt` — finite numbers are compared by their values;
* `BinaryFloat.not_lt_and_not_lt_iff` — what passes a test that it is not out of range.
-/

import ParkingFeeService.DecimalFloat

set_option relaxedAutoImplicit false
set_option autoImplicit false

namespace BinaryFloat

variable {F : FloatFormat}

/-! ### Arithmetic -/

/-- A zero, with its sign. -/
def zero (F : FloatFormat) (neg : Bool) : BinaryFloat F := pack F neg 0 F.emin

/-- The number with the other sign. -/
def opposite : BinaryFloat F → BinaryFloat F
  | .nan => .nan
  | .inf neg => .inf (!neg)
  | .finite neg m e h => .finite (!neg) m e h

/-- The sum, which is a positive zero if two numbers cancel out. -/
def add : BinaryFloat F → BinaryFloat F → BinaryFloat F
  | .nan, _ | .inf _, .nan | .finite _ _ _ _, .nan => .nan
  | .inf a, .inf b => if a = b then .inf a else .nan
  | .inf a, .finite _ _ _ _ => .inf a
  | .finite _ _ _ _, .inf b => .inf b
  | .finite a m e _, .finite b n f _ =>
      let sum := signed a (dyadic m e) + signed b (dyadic n f)
      if sum = 0 then zero F (a && b) else ofRat F sum

def mul : BinaryFloat F → BinaryFloat F → BinaryFloat F
  | .nan, _ | .inf _, .nan | .finite _ _ _ _, .nan => .nan
  | .inf a, .inf b => .inf (a ^^ b)
  | .inf a, .finite b n _ _ => if n = 0 then .nan else .inf (a ^^ b)
  | .finite a m _ _, .inf b => if m = 0 then .nan else .inf (a ^^ b)
  | .finite a m e _, .finite b n f _ => round F (a ^^ b) (m * n) (e + f)

def div : BinaryFloat F → BinaryFloat F → BinaryFloat F
  | .nan, _ | .inf _, .nan | .finite _ _ _ _, .nan => .nan
  | .inf _, .inf _ => .nan
  | .inf a, .finite b _ _ _ => .inf (a ^^ b)
  | .finite a _ _ _, .inf b => zero F (a ^^ b)
  | .finite a m e _, .finite b n f _ =>
      if n = 0 then if m = 0 then .nan else .inf (a ^^ b)
      else if m = 0 then zero F (a ^^ b)
      else ofRat F (signed (a ^^ b) (dyadic m e / dyadic n f))

instance : Zero (BinaryFloat F) := ⟨ofRat F 0⟩
instance : One (BinaryFloat F) := ⟨ofRat F 1⟩
instance : IntCast (BinaryFloat F) := ⟨fun n => ofRat F n⟩
instance : Add (BinaryFloat F) := ⟨add⟩
instance : Sub (BinaryFloat F) := ⟨fun x y => add x y.opposite⟩
instance : Mul (BinaryFloat F) := ⟨mul⟩
instance : Div (BinaryFloat F) := ⟨div⟩

/-! ### Comparison -/

/-- The number is less than another one. -/
def Less (x : BinaryFloat F) : BinaryFloat F → Prop
  | .nan => False
  | .inf neg => neg = false ∧ x ≠ .nan ∧ x ≠ .inf false
  | .finite neg m e _ => x.Lt (signed neg (dyadic m e))

instance (x : BinaryFloat F) : (y : BinaryFloat F) → Decidable (x.Less y)
  | .nan => isFalse id
  | .inf neg => inferInstanceAs (Decidable (neg = false ∧ x ≠ .nan ∧ x ≠ .inf false))
  | .finite neg m e _ => inferInstanceAs (Decidable (x.Lt (signed neg (dyadic m e))))

instance : LT (BinaryFloat F) := ⟨Less⟩
instance : LE (BinaryFloat F) := ⟨fun x y => x.Less y ∨ x.Eqv y⟩
instance : BEq (BinaryFloat F) := ⟨fun x y => decide (x.Eqv y)⟩

instance : DecidableLT (BinaryFloat F) := fun x y => inferInstanceAs (Decidable (x.Less y))
instance : DecidableLE (BinaryFloat F) := fun x y =>
  inferInstanceAs (Decidable (x.Less y ∨ x.Eqv y))

theorem not_nan_lt (y : BinaryFloat F) : ¬ (nan : BinaryFloat F) < y := by
  intro h
  cases y with
  | nan => exact h
  | inf neg => exact h.2.1 rfl
  | finite neg m e hsig => exact h

theorem not_lt_nan (x : BinaryFloat F) : ¬ x < nan := fun h => h

/-- Finite numbers are compared by their values. -/
theorem lt_iff_toRat_lt {x y : BinaryFloat F} (hx : x.IsFinite) (hy : y.IsFinite) :
    x < y ↔ x.toRat < y.toRat := by
  cases x with
  | nan => exact hx.elim
  | inf neg => exact hx.elim
  | finite neg m e hsig =>
      cases y with
      | nan => exact hy.elim
      | inf neg' => exact hy.elim
      | finite neg' m' e' hsig' => rfl

/-- An infinity lies outside of every range of finite numbers. -/
theorem inf_lt_or_lt_inf {x y : BinaryFloat F} (hx : x.IsFinite) (hy : y.IsFinite) (neg : Bool) :
    inf neg < x ∨ y < inf neg := by
  cases neg with
  | true =>
      cases x with
      | nan => exact hx.elim
      | inf neg' => exact hx.elim
      | finite neg' m e hsig => exact .inl rfl
  | false =>
      refine .inr ⟨rfl, ?_, ?_⟩
      · rintro rfl
        exact hy
      · rintro rfl
        exact hy

/-- **What passes a test that it is not out of range:** NaN, and the finite numbers in the range. -/
theorem not_lt_and_not_lt_iff {x lower upper : BinaryFloat F} (hl : lower.IsFinite)
    (hu : upper.IsFinite) :
    (¬ x < lower ∧ ¬ upper < x) ↔
      x = nan ∨ (x.IsFinite ∧ lower.toRat ≤ x.toRat ∧ x.toRat ≤ upper.toRat) := by
  cases x with
  | nan => exact iff_of_true ⟨not_nan_lt lower, not_lt_nan upper⟩ (.inl rfl)
  | inf neg =>
      refine iff_of_false (fun h => ?_) ?_
      · exact (inf_lt_or_lt_inf hl hu neg).elim h.1 h.2
      · rintro (h | h)
        · cases h
        · exact h.1
  | finite neg m e hsig =>
      have hx : (finite neg m e hsig).IsFinite := trivial
      rw [lt_iff_toRat_lt hx hl, lt_iff_toRat_lt hu hx, not_lt, not_lt]
      simp [hx]

end BinaryFloat
