/-
**Decimal numbers read as binary floating-point numbers.**

A rational number is read as the nearest number of a format: its quotient is taken to more digits
than the format has, with one more digit for what is left over, and then rounded.  Rounding depends
on the value alone, and a number of the format is its own rounding; a number that is written exactly
is therefore read as the number it was, except that zero has lost its sign.

Main definitions:

* `BinaryFloat.IsFinite`, `BinaryFloat.toRat`, `BinaryFloat.Eqv` — values, and equality as IEEE 754
  has it;
* `BinaryFloat.ofRat` — the nearest number of a format;
* `JsonNumber.toRat`, `JsonNumber.exact` — the value of a literal, and a literal for a value;
* `FloatText` — how numbers are written and read.

Main results:

* `BinaryFloat.toRat_round` — the value of a rounded number;
* `BinaryFloat.round_congr` — rounding depends on the value alone;
* `BinaryFloat.round_of_isSig` — a number of the format is its own rounding;
* `BinaryFloat.ofRat_toRat_exact` — a number written exactly is read as it was.
-/

import ParkingFeeService.BinaryFloat
import ParkingFeeService.Json
import Mathlib.Data.Nat.Prime.Basic
import Mathlib.Tactic.FieldSimp
import Mathlib.Tactic.Ring

set_option relaxedAutoImplicit false
set_option autoImplicit false

namespace BinaryFloat

variable {F : FloatFormat}

/-! ### Values -/

/-- The number is neither NaN nor an infinity. -/
def IsFinite : BinaryFloat F → Prop
  | .finite _ _ _ _ => True
  | .nan | .inf _ => False

instance : (x : BinaryFloat F) → Decidable x.IsFinite
  | .finite _ _ _ _ => isTrue trivial
  | .nan | .inf _ => isFalse id

/-- The value of a finite number, and zero for the others. -/
def toRat : BinaryFloat F → ℚ
  | .finite neg m e _ => signed neg (dyadic m e)
  | .nan | .inf _ => 0

/-- Equality of IEEE 754: NaN is not equal to itself, and the two zeros are equal. -/
def Eqv : BinaryFloat F → BinaryFloat F → Prop
  | .inf neg, .inf neg' => neg = neg'
  | .finite neg m e _, .finite neg' m' e' _ => signed neg (dyadic m e) = signed neg' (dyadic m' e')
  | _, _ => False

instance : (x y : BinaryFloat F) → Decidable (x.Eqv y)
  | .inf neg, .inf neg' => inferInstanceAs (Decidable (neg = neg'))
  | .finite neg m e _, .finite neg' m' e' _ =>
      inferInstanceAs (Decidable (signed neg (dyadic m e) = signed neg' (dyadic m' e')))
  | .nan, _ | .inf _, .nan | .inf _, .finite _ _ _ _ | .finite _ _ _ _, .nan
  | .finite _ _ _ _, .inf _ => isFalse id

theorem Eqv.symm {x y : BinaryFloat F} (h : x.Eqv y) : y.Eqv x := by
  cases x <;> cases y <;> first | exact h.elim | exact Eq.symm h

theorem Eqv.trans {x y z : BinaryFloat F} (h : x.Eqv y) (h' : y.Eqv z) : x.Eqv z := by
  cases x <;> cases y <;> first | exact h.elim | skip
  all_goals cases z <;> first | exact h'.elim | exact Eq.trans h h'

theorem eqv_refl {x : BinaryFloat F} (h : x ≠ .nan) : x.Eqv x := by
  cases x with
  | nan => exact absurd rfl h
  | inf neg => rfl
  | finite neg m e hsig => rfl

/-- The numbers have one value, NaN being one as well. -/
def Same (x y : BinaryFloat F) : Prop := x.Eqv y ∨ (x = .nan ∧ y = .nan)

theorem Same.refl (x : BinaryFloat F) : x.Same x := by
  by_cases h : x = .nan
  · exact .inr ⟨h, h⟩
  · exact .inl (eqv_refl h)

theorem Same.trans_eqv {x y z : BinaryFloat F} (h : x.Same y) (h' : y.Eqv z) : x.Same z := by
  rcases h with h | ⟨-, rfl⟩
  · exact .inl (h.trans h')
  · exact h'.elim

theorem same_and_ne_nan_iff {x y : BinaryFloat F} : x.Same y ∧ y ≠ .nan ↔ x.Eqv y := by
  constructor
  · rintro ⟨h | ⟨-, hy⟩, hne⟩
    · exact h
    · exact absurd hy hne
  · refine fun h => ⟨.inl h, ?_⟩
    rintro rfl
    cases x <;> exact h

theorem Eqv.isFinite {x y : BinaryFloat F} (h : x.Eqv y) (hy : y.IsFinite) : x.IsFinite := by
  cases y with
  | nan => exact hy.elim
  | inf neg => exact hy.elim
  | finite neg m e hsig =>
      cases x with
      | nan => exact h.elim
      | inf neg' => exact h.elim
      | finite neg' m' e' hsig' => trivial

/-- A significand that is rounded up to one digit more is a power of two. -/
theorem shift_eq_of_carry {m : ℕ} {e : ℤ}
    (h : ¬ shift m (targetExp F m e - e) < 2 ^ F.prec) :
    shift m (targetExp F m e - e) = 2 ^ (F.prec - 1) * 2 := by
  have hle : shift m (targetExp F m e - e) ≤ 2 ^ F.prec := by
    refine shift_le_two_pow m ?_
    have htarget : e + m.log2 + 1 - F.prec ≤ targetExp F m e := le_max_right _ _
    omega
  rw [← pow_succ, Nat.sub_add_cancel F.prec_pos]
  omega

/-- The value of a rounded number: that of the significand at the last place it was rounded to. -/
theorem toRat_round {neg : Bool} {m : ℕ} {e : ℤ} (hm : m ≠ 0)
    (hmax : targetExp F m e + 1 ≤ F.emax) :
    (round F neg m e).IsFinite ∧ (round F neg m e).toRat =
      signed neg (dyadic (shift m (targetExp F m e - e)) (targetExp F m e)) := by
  rw [round, if_neg hm]
  dsimp only
  split
  · next hlt =>
      rw [pack, dif_pos (isSig_round hm hlt (by omega))]
      exact ⟨trivial, rfl⟩
  · next hcarry =>
      rw [pack, dif_pos (isSig_carry hmax)]
      refine ⟨trivial, ?_⟩
      rw [toRat, shift_eq_of_carry hcarry, dyadic, dyadic, zpow_add_one₀ (by norm_num)]
      push_cast
      ring_nf

/-! ### Rounding depends on the value -/

theorem roundHalfEven_mul_two_pow (m k t : ℕ) :
    roundHalfEven (m * 2 ^ t) (k + t) = roundHalfEven m k := by
  have hpos : 0 < 2 ^ t := by positivity
  have hmod : m * 2 ^ t % 2 ^ (k + t) = m % 2 ^ k * 2 ^ t := by
    rw [pow_add, Nat.mul_mod_mul_right]
  have hdiv : m * 2 ^ t / 2 ^ (k + t) = m / 2 ^ k := by
    rw [pow_add, Nat.mul_div_mul_right _ _ hpos]
  have hbelow : 2 * (m % 2 ^ k * 2 ^ t) < 2 ^ (k + t) ↔ 2 * (m % 2 ^ k) < 2 ^ k := by
    rw [pow_add, ← mul_assoc, Nat.mul_lt_mul_right hpos]
  have habove : 2 ^ (k + t) < 2 * (m % 2 ^ k * 2 ^ t) ↔ 2 ^ k < 2 * (m % 2 ^ k) := by
    rw [pow_add, ← mul_assoc, Nat.mul_lt_mul_right hpos]
  simp only [roundHalfEven, hmod, hdiv, hbelow, habove]

theorem shift_mul_two_pow (m t : ℕ) (k : ℤ) : shift (m * 2 ^ t) (k + t) = shift m k := by
  by_cases hk : k ≤ 0
  · by_cases hkt : k + t ≤ 0
    · have hexp : (-k).toNat = t + (-(k + t)).toNat := by omega
      rw [shift, if_pos hkt, shift, if_pos hk, hexp, pow_add, mul_assoc]
    · -- the digits dropped are all zero
      have hexp : t = (-k).toNat + (k + t).toNat := by omega
      rw [shift, if_neg hkt, shift, if_pos hk]
      conv_lhs => rw [hexp, pow_add, ← mul_assoc, ← hexp]
      have hround := roundHalfEven_mul_two_pow (m * 2 ^ (-k).toNat) 0 (k + t).toNat
      rw [Nat.zero_add] at hround
      rw [hround]
      simp [roundHalfEven, Nat.mod_one]
  · have hkt : ¬ k + t ≤ 0 := by omega
    have hexp : (k + t).toNat = k.toNat + t := by omega
    rw [shift, if_neg hkt, shift, if_neg hk, hexp, roundHalfEven_mul_two_pow]

theorem log2_mul_two_pow {m : ℕ} (hm : m ≠ 0) (t : ℕ) : (m * 2 ^ t).log2 = m.log2 + t := by
  induction t with
  | zero => simp
  | succ t ih =>
      have hne : m * 2 ^ t ≠ 0 := by positivity
      rw [pow_succ, ← mul_assoc, mul_comm _ 2, Nat.log2_two_mul hne, ih, Nat.add_assoc]

theorem round_mul_two_pow (F : FloatFormat) (neg : Bool) (m t : ℕ) (e : ℤ) :
    round F neg (m * 2 ^ t) (e - t) = round F neg m e := by
  by_cases hm : m = 0
  · simp [round, hm]
  · have hne : m * 2 ^ t ≠ 0 := by positivity
    have htarget : targetExp F (m * 2 ^ t) (e - t) = targetExp F m e := by
      rw [targetExp, targetExp, log2_mul_two_pow hm]
      congr 1
      omega
    have hexp : targetExp F m e - (e - t) = targetExp F m e - e + t := by omega
    rw [round, if_neg hne, round, if_neg hm]
    simp only [htarget, hexp, shift_mul_two_pow]

/-- **Rounding depends on the value alone.** -/
theorem round_congr {neg : Bool} {m m' : ℕ} {e e' : ℤ} (h : dyadic m e = dyadic m' e') :
    round F neg m e = round F neg m' e' := by
  wlog hle : e' ≤ e generalizing m m' e e'
  · exact (this h.symm (by omega)).symm
  · obtain ⟨t, rfl⟩ : ∃ t : ℕ, e' = e - t := ⟨(e - e').toNat, by omega⟩
    have htwo : (2 : ℚ) ≠ 0 := by norm_num
    have hpos : (0 : ℚ) < 2 ^ (e - t) := by positivity
    have hm : m * 2 ^ t = m' := by
      have hcast : (m : ℚ) * 2 ^ (t : ℤ) = m' := by
        refine mul_right_cancel₀ hpos.ne' ?_
        rw [mul_assoc, ← zpow_add₀ htwo, add_sub_cancel]
        exact h
      exact_mod_cast hcast
    rw [← hm, round_mul_two_pow]

/-- **A number of the format is its own rounding.** -/
theorem round_of_isSig {neg : Bool} {m : ℕ} {e : ℤ} (h : F.IsSig m e) :
    round F neg m e = .finite neg m e h := by
  by_cases hm : m = 0
  · subst hm
    have he : e = F.emin := by
      rcases h.canonical with he | hle
      · exact he
      · have hpos : 0 < 2 ^ (F.prec - 1) := by positivity
        omega
    subst he
    rw [round, if_pos rfl, pack, dif_pos h]
  · have hlog : m.log2 < F.prec := (Nat.log2_lt hm).2 h.lt
    have htarget : targetExp F m e = e := by
      have hlower := h.lower
      rw [targetExp]
      rcases h.canonical with he | hle
      · omega
      · have hge : F.prec - 1 ≤ m.log2 := (Nat.le_log2 hm).2 hle
        omega
    have hshift : shift m (e - e) = m := by simp [shift]
    rw [round, if_neg hm]
    simp only [htarget, hshift, if_pos h.lt]
    rw [pack, dif_pos h]

/-! ### Reading a rational number -/

/-- The number of the format nearest to a rational number. -/
def ofRat (F : FloatFormat) (q : ℚ) : BinaryFloat F :=
  let k := F.prec + q.den.log2 + 2
  let a := q.num.natAbs * 2 ^ k
  -- the last digit says whether the quotient is exact
  round F (q < 0) (2 * (a / q.den) + if a % q.den = 0 then 0 else 1) (-k - 1)

theorem abs_mul_den (q : ℚ) : |q| * q.den = q.num.natAbs := by
  rw [← Rat.den_abs_eq_den, Rat.mul_den_eq_num, Rat.num_abs_eq_abs_num, Int.abs_eq_natAbs]
  rfl

/-- A fraction of a power of two is read by rounding it. -/
theorem ofRat_eq_round {q : ℚ} {j m : ℕ} {e : ℤ} (hden : q.den = 2 ^ j) (habs : |q| = dyadic m e) :
    ofRat F q = round F (q < 0) m e := by
  have hlog : q.den.log2 = j := by rw [hden, Nat.log2_two_pow]
  have hdvd : q.den ∣ q.num.natAbs * 2 ^ (F.prec + q.den.log2 + 2) := by
    rw [hlog, hden]
    exact Dvd.dvd.mul_left (pow_dvd_pow 2 (by omega)) _
  rw [ofRat]
  generalize hk : F.prec + q.den.log2 + 2 = k at hdvd ⊢
  obtain ⟨c, hc⟩ := hdvd
  simp only [hc, Nat.mul_mod_right, if_pos, Nat.mul_div_cancel_left _ q.den_pos, add_zero]
  refine round_congr ?_
  have hden0 : (q.den : ℚ) ≠ 0 := Nat.cast_ne_zero.2 q.den_pos.ne'
  have hcast : (q.num.natAbs : ℚ) * 2 ^ k = q.den * c := by exact_mod_cast hc
  have hexp : (2 : ℚ) * 2 ^ (-(k : ℤ) - 1) = (2 ^ k)⁻¹ := by
    rw [zpow_sub_one₀ (by norm_num), zpow_neg, zpow_natCast]
    ring
  calc dyadic (2 * c) (-k - 1)
      = c * (2 * 2 ^ (-(k : ℤ) - 1)) := by rw [dyadic]; push_cast; ring
    _ = q.den * c * ((2 ^ k)⁻¹ * (q.den : ℚ)⁻¹) := by rw [hexp]; field_simp
    _ = q.num.natAbs * (q.den : ℚ)⁻¹ := by rw [← hcast]; field_simp
    _ = |q| := by rw [← abs_mul_den]; field_simp
    _ = dyadic m e := habs

/-- The denominator of a number of the format is a power of two. -/
theorem exists_den_eq_two_pow (neg : Bool) (m : ℕ) (e : ℤ) :
    ∃ j, (signed neg (dyadic m e)).den = 2 ^ j := by
  have hdvd : (dyadic m e).den ∣ 2 ^ (-e).toNat := by
    have heq : dyadic m e = Rat.divInt (m * 2 ^ e.toNat : ℕ) (2 ^ (-e).toNat : ℕ) := by
      have hexp : e + ((-e).toNat : ℤ) = (e.toNat : ℤ) := by omega
      rw [Rat.divInt_eq_div, dyadic]
      push_cast
      rw [eq_div_iff (by positivity), mul_assoc, ← zpow_natCast, ← zpow_natCast,
        ← zpow_add₀ (by norm_num), hexp]
    rw [heq]
    exact Int.natCast_dvd_natCast.1 (Rat.den_dvd _ _)
  obtain ⟨j, -, hj⟩ := (Nat.dvd_prime_pow Nat.prime_two).1 hdvd
  refine ⟨j, ?_⟩
  cases neg with
  | false => exact hj
  | true => exact (Rat.den_neg_eq_den _).trans hj

theorem abs_signed (neg : Bool) (m : ℕ) (e : ℤ) : |signed neg (dyadic m e)| = dyadic m e := by
  have hpos : 0 ≤ dyadic m e := by unfold dyadic; positivity
  cases neg with
  | false => exact abs_of_nonneg hpos
  | true => exact (abs_neg _).trans (abs_of_nonneg hpos)

/-- **A number of the format is read as it was**, up to the sign of zero. -/
theorem eqv_ofRat_toRat {x : BinaryFloat F} (h : x.IsFinite) : (ofRat F x.toRat).Eqv x := by
  cases x with
  | nan => exact h.elim
  | inf neg => exact h.elim
  | finite neg m e hsig =>
      obtain ⟨j, hj⟩ := exists_den_eq_two_pow neg m e
      have hpos : 0 ≤ dyadic m e := by unfold dyadic; positivity
      rw [toRat, ofRat_eq_round hj (abs_signed neg m e), round_of_isSig hsig]
      cases neg with
      | false => simp [Eqv, signed, hpos]
      | true =>
          by_cases hzero : dyadic m e = 0
          · simp [Eqv, signed, hzero]
          · have hlt : 0 < dyadic m e := lt_of_le_of_ne hpos (Ne.symm hzero)
            simp [Eqv, signed, hlt]

end BinaryFloat

/-! ### Literals -/

namespace JsonNumber

/-- The value of a literal. -/
def toRat : JsonNumber → ℚ
  | .int n => n
  | .decimal mantissa exponent => mantissa * 10 ^ exponent

/-- A literal for a rational number whose denominator is a power of two. -/
def exact (q : ℚ) : JsonNumber :=
  if q.den = 1 then .int q.num else .decimal (q.num * 5 ^ q.den.log2) (-(q.den.log2 : ℤ))

example : exact (5 / 2) = .decimal 25 (-1) := by decide +kernel

theorem toRat_exact {q : ℚ} {j : ℕ} (hden : q.den = 2 ^ j) : (exact q).toRat = q := by
  rw [exact]
  split
  · next hone => exact Rat.coe_int_num_of_den_eq_one hone
  · have hlog : q.den.log2 = j := by rw [hden, Nat.log2_two_pow]
    have hten : (5 : ℚ) ^ j * 10 ^ (-(j : ℤ)) = (2 ^ j)⁻¹ := by
      rw [zpow_neg, zpow_natCast, show (10 : ℚ) = 5 * 2 by norm_num, mul_pow]
      field_simp
    calc toRat (.decimal (q.num * 5 ^ q.den.log2) (-(q.den.log2 : ℤ)))
        = q.num * (5 ^ j * 10 ^ (-(j : ℤ))) := by rw [hlog, toRat]; push_cast; ring
      _ = q.num / q.den := by rw [hten, hden]; push_cast; rfl
      _ = q := Rat.num_div_den q

end JsonNumber

/-- **A number written exactly is read as it was**, up to the sign of zero. -/
theorem BinaryFloat.eqv_ofRat_toRat_exact {F : FloatFormat} {x : BinaryFloat F} (h : x.IsFinite) :
    (ofRat F (JsonNumber.exact x.toRat).toRat).Eqv x := by
  obtain ⟨j, hj⟩ : ∃ j, x.toRat.den = 2 ^ j := by
    cases x with
    | nan => exact h.elim
    | inf neg => exact h.elim
    | finite neg m e _ => exact exists_den_eq_two_pow neg m e
  rw [JsonNumber.toRat_exact hj]
  exact eqv_ofRat_toRat h

/-! ### Numbers as text -/

/-- How floating-point numbers are written and read: the literal of a finite number, and the number
read from a literal. -/
structure FloatText where
  write : BinaryFloat .binary64 → JsonNumber
  read : JsonNumber → Option (BinaryFloat .binary64)

namespace FloatText

/-- What is written for a number is read as an equal one. -/
def Reads (c : FloatText) (x : BinaryFloat .binary64) : Prop :=
  ∃ y, c.read (c.write x) = some y ∧ y.Eqv x

/-- A number is its value: it is written exactly, and read as the nearest one. -/
def exact : FloatText where
  write x := .exact x.toRat
  read n :=
    let x := BinaryFloat.ofRat .binary64 n.toRat
    if x.IsFinite then some x else none

theorem read_exact {n : JsonNumber} (h : (BinaryFloat.ofRat .binary64 n.toRat).IsFinite) :
    exact.read n = some (.ofRat .binary64 n.toRat) := if_pos h

theorem reads_exact {x : BinaryFloat .binary64} (h : x.IsFinite) : exact.Reads x := by
  have heqv := BinaryFloat.eqv_ofRat_toRat_exact h
  exact ⟨_, read_exact (heqv.isFinite h), heqv⟩

/-- Go's encoding of a `float64`, which rejects NaN and the infinities. -/
def encodeFloat64 (c : FloatText) (x : BinaryFloat .binary64) : Option Json :=
  if x.IsFinite then some (.num (c.write x)) else none

/-- The reading of an `f64` in Rust. -/
def asF64 (c : FloatText) : Json → Option (BinaryFloat .binary64)
  | .num n => c.read n
  | _ => none

end FloatText
