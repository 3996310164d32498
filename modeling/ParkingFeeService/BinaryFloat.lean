/-
**Binary floating-point numbers.**

A format is given by its precision and by the exponents of the last place of its smallest and
largest numbers.  A finite number is an integer significand times a power of two, in the one
representation that the format has for it, so that a number that is not one of the format cannot be
built. Conversion between formats rounds to nearest, ties to even, and overflows to infinity.

Comparisons are those of IEEE 754 with a constant: they are exact, and false of NaN.

Main definitions:

* `FloatFormat`, `FloatFormat.binary32`, `FloatFormat.binary64`;
* `BinaryFloat` — NaN, the infinities and the finite numbers of a format;
* `BinaryFloat.Ge`, `BinaryFloat.Lt` — comparison with a rational number;
* `BinaryFloat.convert` — conversion to another format.

Main results:

* `BinaryFloat.isSig_round` — a rounded number is of the format unless its exponent is too large;
* `BinaryFloat.ge_convert` — a number that is at least a power of two stays so when converted.
-/

import Mathlib.Algebra.Order.Field.Power
import Mathlib.Algebra.Order.Field.Rat
import Mathlib.Tactic.Common
import Mathlib.Tactic.Linarith
import Mathlib.Tactic.Positivity

set_option relaxedAutoImplicit false
set_option autoImplicit false

/-- A binary format: the number of digits of a significand, and the exponents of the last place of
the smallest and of the largest numbers. -/
structure FloatFormat where
  prec : ℕ
  emin : ℤ
  emax : ℤ
  prec_pos : 0 < prec

namespace FloatFormat

/-- The format of `f32`. -/
def binary32 : FloatFormat := ⟨24, -149, 104, by decide⟩

/-- The format of `f64`. -/
def binary64 : FloatFormat := ⟨53, -1074, 971, by decide⟩

/-- The significand and the exponent are those of a number of the format: all digits are used unless
the exponent is the smallest. -/
structure IsSig (F : FloatFormat) (m : ℕ) (e : ℤ) : Prop where
  lt : m < 2 ^ F.prec
  lower : F.emin ≤ e
  upper : e ≤ F.emax
  canonical : e = F.emin ∨ 2 ^ (F.prec - 1) ≤ m

instance (F : FloatFormat) (m : ℕ) (e : ℤ) : Decidable (F.IsSig m e) :=
  decidable_of_iff (m < 2 ^ F.prec ∧ F.emin ≤ e ∧ e ≤ F.emax ∧ (e = F.emin ∨ 2 ^ (F.prec - 1) ≤ m))
    ⟨fun ⟨h₁, h₂, h₃, h₄⟩ => ⟨h₁, h₂, h₃, h₄⟩, fun ⟨h₁, h₂, h₃, h₄⟩ => ⟨h₁, h₂, h₃, h₄⟩⟩

end FloatFormat

/-- The numbers of a format. -/
inductive BinaryFloat (F : FloatFormat)
  | nan
  | inf (neg : Bool)
  | finite (neg : Bool) (m : ℕ) (e : ℤ) (h : F.IsSig m e)
  deriving DecidableEq

namespace BinaryFloat

variable {F G : FloatFormat}

/-! ### Values and comparisons -/

/-- The value of a significand at an exponent. -/
def dyadic (m : ℕ) (e : ℤ) : ℚ := m * 2 ^ e

/-- A magnitude with a sign. -/
def signed (neg : Bool) (q : ℚ) : ℚ := if neg then -q else q

/-- The number is at least `q`. -/
def Ge : BinaryFloat F → ℚ → Prop
  | .nan, _ => False
  | .inf neg, _ => neg = false
  | .finite neg m e _, q => q ≤ signed neg (dyadic m e)

/-- The number is less than `q`. -/
def Lt : BinaryFloat F → ℚ → Prop
  | .nan, _ => False
  | .inf neg, _ => neg = true
  | .finite neg m e _, q => signed neg (dyadic m e) < q

instance : (x : BinaryFloat F) → (q : ℚ) → Decidable (x.Ge q)
  | .nan, _ => isFalse not_false
  | .inf neg, _ => inferInstanceAs (Decidable (neg = false))
  | .finite neg m e _, q => inferInstanceAs (Decidable (q ≤ signed neg (dyadic m e)))

instance : (x : BinaryFloat F) → (q : ℚ) → Decidable (x.Lt q)
  | .nan, _ => isFalse not_false
  | .inf neg, _ => inferInstanceAs (Decidable (neg = true))
  | .finite neg m e _, q => inferInstanceAs (Decidable (signed neg (dyadic m e) < q))

/-- Of a number that is not NaN exactly one of the two comparisons holds. -/
theorem lt_iff_not_ge {x : BinaryFloat F} {q : ℚ} (h : x ≠ .nan) : x.Lt q ↔ ¬ x.Ge q := by
  cases x with
  | nan => exact absurd rfl h
  | inf neg => simp [Lt, Ge]
  | finite neg m e hm => simp [Lt, Ge]

/-! ### Rounding -/

/-- Dropping the last `k` digits, to nearest, ties to even. -/
def roundHalfEven (m k : ℕ) : ℕ :=
  if 2 * (m % 2 ^ k) < 2 ^ k then m / 2 ^ k
  else if 2 ^ k < 2 * (m % 2 ^ k) then m / 2 ^ k + 1
  else m / 2 ^ k + m / 2 ^ k % 2

theorem div_le_roundHalfEven (m k : ℕ) : m / 2 ^ k ≤ roundHalfEven m k := by
  rw [roundHalfEven]
  split
  · exact le_rfl
  · split <;> omega

theorem roundHalfEven_le (m k : ℕ) : roundHalfEven m k ≤ m / 2 ^ k + 1 := by
  rw [roundHalfEven]
  split
  · omega
  · split <;> omega

/-- The significand with its last place moved up by `k` digits. -/
def shift (m : ℕ) (k : ℤ) : ℕ :=
  if k ≤ 0 then m * 2 ^ (-k).toNat else roundHalfEven m k.toNat

/-- The exponent at which a significand is rounded. -/
def targetExp (F : FloatFormat) (m : ℕ) (e : ℤ) : ℤ := max F.emin (e + m.log2 + 1 - F.prec)

/-- The number with a significand and an exponent, or infinity if the format has none. -/
def pack (F : FloatFormat) (neg : Bool) (m : ℕ) (e : ℤ) : BinaryFloat F :=
  if h : F.IsSig m e then .finite neg m e h else .inf neg

/-- The number nearest to a significand at an exponent. -/
def round (F : FloatFormat) (neg : Bool) (m : ℕ) (e : ℤ) : BinaryFloat F :=
  if m = 0 then pack F neg 0 F.emin
  else
    let e' := targetExp F m e
    let m' := shift m (e' - e)
    -- rounding up can carry into one digit more, and then the significand is a power of two
    if m' < 2 ^ F.prec then pack F neg m' e' else pack F neg (2 ^ (F.prec - 1)) (e' + 1)

/-- Conversion to another format. -/
def convert (G : FloatFormat) : BinaryFloat F → BinaryFloat G
  | .nan => .nan
  | .inf neg => .inf neg
  | .finite neg m e _ => round G neg m e

/-- Shifting keeps the leading digit. -/
theorem two_pow_le_shift {m : ℕ} (hm : m ≠ 0) {k : ℤ} (hk : k ≤ m.log2) :
    2 ^ ((m.log2 : ℤ) - k).toNat ≤ shift m k := by
  have hlog : 2 ^ m.log2 ≤ m := Nat.log2_self_le hm
  rw [shift]
  split
  · next hneg =>
      have hexp : ((m.log2 : ℤ) - k).toNat = m.log2 + (-k).toNat := by omega
      rw [hexp, pow_add]
      exact Nat.mul_le_mul_right _ hlog
  · next hpos =>
      refine le_trans ?_ (div_le_roundHalfEven m k.toNat)
      rw [Nat.le_div_iff_mul_le (by positivity), ← pow_add]
      have hexp : ((m.log2 : ℤ) - k).toNat + k.toNat = m.log2 := by omega
      rwa [hexp]

/-- A significand rounded to its leading `prec` digits has at most one digit more, and then it is a
power of two. -/
theorem shift_le_two_pow (m : ℕ) {k : ℤ} {p : ℕ} (hk : (m.log2 : ℤ) + 1 - p ≤ k) :
    shift m k ≤ 2 ^ p := by
  have hlog : m < 2 ^ (m.log2 + 1) := Nat.lt_log2_self
  rw [shift]
  split
  · next hneg =>
      have hexp : m.log2 + 1 + (-k).toNat ≤ p := by omega
      have hmul : m * 2 ^ (-k).toNat ≤ 2 ^ (m.log2 + 1) * 2 ^ (-k).toNat :=
        Nat.mul_le_mul_right _ hlog.le
      rw [← pow_add] at hmul
      exact hmul.trans (Nat.pow_le_pow_right (by decide) hexp)
  · next hpos =>
      have hdiv : m / 2 ^ k.toNat < 2 ^ p := by
        rw [Nat.div_lt_iff_lt_mul (by positivity), ← pow_add]
        exact hlog.trans_le (Nat.pow_le_pow_right (by decide) (by omega))
      have hround := roundHalfEven_le m k.toNat
      omega

/-- A rounded number is one of the format unless its exponent is too large. -/
theorem isSig_round {m : ℕ} (hm : m ≠ 0) {e : ℤ}
    (hlt : shift m (targetExp F m e - e) < 2 ^ F.prec) (hmax : targetExp F m e ≤ F.emax) :
    F.IsSig (shift m (targetExp F m e - e)) (targetExp F m e) := by
  have hprec := F.prec_pos
  refine ⟨hlt, le_max_left _ _, hmax, ?_⟩
  by_cases hmin : targetExp F m e = F.emin
  · exact .inl hmin
  · right
    have htarget : targetExp F m e = e + m.log2 + 1 - F.prec := by
      unfold targetExp at hmin ⊢
      omega
    have hle : targetExp F m e - e ≤ (m.log2 : ℤ) := by omega
    have hexp : ((m.log2 : ℤ) - (targetExp F m e - e)).toNat = F.prec - 1 := by omega
    rw [← hexp]
    exact two_pow_le_shift hm hle

/-- When the significand is rounded up to a power of two, the next exponent has it. -/
theorem isSig_carry {m : ℕ} {e : ℤ} (hmax : targetExp F m e + 1 ≤ F.emax) :
    F.IsSig (2 ^ (F.prec - 1)) (targetExp F m e + 1) := by
  have hlt : 2 ^ (F.prec - 1) < 2 ^ F.prec :=
    Nat.pow_lt_pow_right (by decide) (Nat.sub_lt F.prec_pos Nat.one_pos)
  refine ⟨hlt, ?_, hmax, .inr le_rfl⟩
  have hmin : F.emin ≤ targetExp F m e := le_max_left _ _
  omega

/-! ### Conversion keeps powers of two as bounds -/

/-- A value that is at least a power of two has a leading digit that is. -/
theorem le_of_two_pow_le_dyadic {m : ℕ} {e j : ℤ} (h : (2 : ℚ) ^ j ≤ dyadic m e) :
    m ≠ 0 ∧ j ≤ e + m.log2 := by
  have hpow : (0 : ℚ) < 2 ^ j := by positivity
  have hm : m ≠ 0 := by
    rintro rfl
    simp [dyadic] at h
    linarith
  refine ⟨hm, ?_⟩
  have hlt : (m : ℚ) < 2 ^ ((m.log2 : ℤ) + 1) := by
    have hlog : m < 2 ^ (m.log2 + 1) := Nat.lt_log2_self
    exact_mod_cast hlog
  have hdyadic : dyadic m e < 2 ^ ((m.log2 : ℤ) + 1 + e) := by
    rw [zpow_add₀ (by norm_num : (2 : ℚ) ≠ 0)]
    exact mul_lt_mul_of_pos_right hlt (by positivity)
  have hexp : j < (m.log2 : ℤ) + 1 + e :=
    (zpow_lt_zpow_iff_right₀ (by norm_num : (1 : ℚ) < 2)).1 (h.trans_lt hdyadic)
  omega

/-- A natural number that is at least a power of two, at an exponent. -/
theorem two_pow_le_dyadic {m n : ℕ} {e j : ℤ} (hm : 2 ^ n ≤ m) (hj : j ≤ n + e) :
    (2 : ℚ) ^ j ≤ dyadic m e := by
  have hcast : (2 : ℚ) ^ (n : ℤ) ≤ m := by exact_mod_cast hm
  calc (2 : ℚ) ^ j ≤ 2 ^ ((n : ℤ) + e) := zpow_le_zpow_right₀ (by norm_num) hj
    _ = 2 ^ (n : ℤ) * 2 ^ e := zpow_add₀ (by norm_num) _ _
    _ ≤ m * 2 ^ e := mul_le_mul_of_nonneg_right hcast (by positivity)

theorem ge_pack {m : ℕ} {e : ℤ} {q : ℚ} (h : q ≤ dyadic m e) : (pack F false m e).Ge q := by
  rw [pack]
  split
  · exact h
  · rfl

/-- Rounding does not fall below a power of two that the format has. -/
theorem ge_round {m : ℕ} {e j : ℤ} (hj : F.emin ≤ j) (h : (2 : ℚ) ^ j ≤ dyadic m e) :
    (round F false m e).Ge (2 ^ j) := by
  obtain ⟨hm, hlog⟩ := le_of_two_pow_le_dyadic h
  have hprec := F.prec_pos
  -- the shift is at most the position of the leading digit
  have hk : targetExp F m e - e ≤ (m.log2 : ℤ) := by
    rw [targetExp]
    omega
  have hshift := two_pow_le_shift hm hk
  rw [round, if_neg hm]
  dsimp only
  -- without a carry the leading digit is kept, with one it moves up
  split
  · exact ge_pack (two_pow_le_dyadic hshift (by omega))
  · next hcarry =>
      refine ge_pack (two_pow_le_dyadic le_rfl ?_)
      have hmin : e + m.log2 + 1 - F.prec ≤ targetExp F m e := le_max_right _ _
      omega

theorem not_ge_neg {m : ℕ} {e j : ℤ} : ¬ (2 : ℚ) ^ j ≤ signed true (dyadic m e) := by
  have hpow : (0 : ℚ) < 2 ^ j := by positivity
  have hdyadic : (0 : ℚ) ≤ dyadic m e := by unfold dyadic; positivity
  simp only [signed, if_true, not_le]
  linarith

/-- **A number that is at least a power of two stays so when converted** to a format that has the
power. -/
theorem ge_convert {x : BinaryFloat F} {j : ℤ} (hj : G.emin ≤ j) (h : x.Ge (2 ^ j)) :
    (x.convert G).Ge (2 ^ j) := by
  cases x with
  | nan => exact h
  | inf neg => exact h
  | finite neg m e hm =>
      cases neg with
      | true => exact absurd h not_ge_neg
      | false => exact ge_round hj h

/-- The largest number of `f64` below one becomes one as an `f32`. -/
example : (convert .binary32 (F := .binary64)
    (.finite false (2 ^ 53 - 1) (-53) (by decide +kernel))).Ge 1 := by decide +kernel

end BinaryFloat
