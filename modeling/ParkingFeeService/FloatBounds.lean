/-
**Rounding at a bound.**

A number is rounded to at most a bound of the format exactly if it is at most half a unit in the
last place above it, where the bound is even, so that a tie goes down to it.  The bound has all its
digits, and what is rounded may be given by a significand or as a rational number.

Main definitions:

* `BinaryFloat.Within` — finite and of at most a magnitude;
* `BinaryFloat.EvenBound` — an even significand with all its digits.

Main results:

* `BinaryFloat.roundHalfEven_le_iff` — rounding a significand to at most an even one;
* `BinaryFloat.within_round_iff` — rounding a significand at an exponent;
* `BinaryFloat.within_ofRat_iff` — rounding a rational number.
-/

import ParkingFeeService.DecimalFloat

set_option relaxedAutoImplicit false
set_option autoImplicit false

namespace BinaryFloat

variable {F : FloatFormat}

/-! ### Values at an exponent -/

theorem dyadic_le_dyadic_iff {m n : ℕ} {e : ℤ} : dyadic m e ≤ dyadic n e ↔ m ≤ n := by
  have hpos : (0 : ℚ) < 2 ^ e := by positivity
  rw [dyadic, dyadic, mul_le_mul_iff_left₀ hpos, Nat.cast_le]

theorem dyadic_add (m j : ℕ) (e : ℤ) : dyadic m (e + j) = dyadic (m * 2 ^ j) e := by
  rw [dyadic, dyadic, zpow_add₀ (by norm_num), zpow_natCast]
  push_cast
  ring

/-- A significand at an exponent is less than the power of two after its leading digit. -/
theorem dyadic_lt_two_pow {m n : ℕ} {e j : ℤ} (hm : m < 2 ^ n) (hj : n + e ≤ j) :
    dyadic m e < 2 ^ j := by
  have hcast : (m : ℚ) < 2 ^ (n : ℤ) := by exact_mod_cast hm
  calc dyadic m e < 2 ^ (n : ℤ) * 2 ^ e := mul_lt_mul_of_pos_right hcast (by positivity)
    _ = 2 ^ ((n : ℤ) + e) := (zpow_add₀ (by norm_num) _ _).symm
    _ ≤ 2 ^ j := zpow_le_zpow_right₀ (by norm_num) hj

theorem dyadic_le_two_pow {m n : ℕ} {e j : ℤ} (hm : m ≤ 2 ^ n) (hj : n + e ≤ j) :
    dyadic m e ≤ 2 ^ j := by
  have hcast : (m : ℚ) ≤ 2 ^ (n : ℤ) := by exact_mod_cast hm
  calc dyadic m e ≤ 2 ^ (n : ℤ) * 2 ^ e := mul_le_mul_of_nonneg_right hcast (by positivity)
    _ = 2 ^ ((n : ℤ) + e) := (zpow_add₀ (by norm_num) _ _).symm
    _ ≤ 2 ^ j := zpow_le_zpow_right₀ (by norm_num) hj

/-- The same value at the next lower exponent. -/
theorem dyadic_double (m : ℕ) (e : ℤ) : dyadic m e = dyadic (2 * m) (e - 1) := by
  have h := dyadic_add m 1 (e - 1)
  rwa [Nat.cast_one, sub_add_cancel, pow_one, mul_comm] at h

theorem dyadic_le_half (N : ℕ) (E : ℤ) : dyadic N E ≤ dyadic (2 * N + 1) (E - 1) := by
  rw [dyadic_double, dyadic_le_dyadic_iff]
  omega

/-! ### Significands -/

/-- **A significand is rounded to at most an even one** exactly if it is at most a half above it. -/
theorem roundHalfEven_le_iff {m k N : ℕ} (heven : N % 2 = 0) :
    roundHalfEven m k ≤ N ↔ 2 * m ≤ (2 * N + 1) * 2 ^ k := by
  have hpos : 0 < 2 ^ k := by positivity
  have hm := Nat.div_add_mod m (2 ^ k)
  have hr := Nat.mod_lt m hpos
  rw [roundHalfEven]
  generalize 2 ^ k = d at *
  generalize m / d = f at *
  generalize m % d = r at *
  have hsplit : (2 * N + 1) * d = 2 * (d * N) + d := by ring
  rw [hsplit]
  rcases Nat.lt_trichotomy f N with hlt | rfl | hgt
  · have hmul : d * (f + 1) ≤ d * N := Nat.mul_le_mul_left d hlt
    rw [Nat.mul_succ] at hmul
    refine iff_of_true ?_ (by omega)
    split
    · omega
    · split <;> omega
  · split
    · omega
    · split <;> omega
  · have hmul : d * (N + 1) ≤ d * f := Nat.mul_le_mul_left d hgt
    rw [Nat.mul_succ] at hmul
    refine iff_of_false ?_ (by omega)
    split
    · omega
    · split <;> omega

/-- A significand is shifted to at most an even one exactly if its value is at most a half above. -/
theorem shift_le_iff {m N : ℕ} {e E : ℤ} (heven : N % 2 = 0) :
    shift m (E - e) ≤ N ↔ dyadic m e ≤ dyadic (2 * N + 1) (E - 1) := by
  rw [shift]
  split
  · next hk =>
      -- the value is a multiple of the unit in the last place
      obtain ⟨j, hj⟩ : ∃ j : ℕ, e = E + j := ⟨(e - E).toNat, by omega⟩
      have hexp : (-(E - e)).toNat = j := by omega
      rw [hexp, hj, dyadic_add, dyadic_double, dyadic_le_dyadic_iff]
      omega
  · next hk =>
      obtain ⟨k, hk⟩ : ∃ k : ℕ, E = e + k := ⟨(E - e).toNat, by omega⟩
      have hexp : (E - e).toNat = k := by omega
      have hbound : E - 1 = e - 1 + (k : ℤ) := by omega
      rw [hexp, roundHalfEven_le_iff heven, hbound, dyadic_add, dyadic_double m,
        dyadic_le_dyadic_iff]

/-! ### Rounding -/

/-- The number is finite and its magnitude is at most `q`. -/
def Within (q : ℚ) (x : BinaryFloat F) : Prop := x.IsFinite ∧ |x.toRat| ≤ q

instance (q : ℚ) (x : BinaryFloat F) : Decidable (x.Within q) :=
  inferInstanceAs (Decidable (_ ∧ _))

/-- An even significand with all its digits, at an exponent that is not the largest. -/
structure EvenBound (F : FloatFormat) (N : ℕ) (E : ℤ) : Prop where
  even : N % 2 = 0
  full : 2 ^ (F.prec - 1) ≤ N
  lt : N < 2 ^ F.prec
  lower : F.emin ≤ E
  upper : E + 1 ≤ F.emax

namespace EvenBound

variable {N : ℕ} {E : ℤ}

theorem two_pow_le (h : EvenBound F N E) : (2 : ℚ) ^ (F.prec - 1 + E) ≤ dyadic N E :=
  two_pow_le_dyadic h.full (by have := F.prec_pos; omega)

theorem lt_two_pow (h : EvenBound F N E) : dyadic N E < 2 ^ (F.prec + E) :=
  dyadic_lt_two_pow h.lt le_rfl

/-- Half a unit more is still less than the next power of two. -/
theorem half_lt_two_pow (h : EvenBound F N E) : dyadic (2 * N + 1) (E - 1) < 2 ^ (F.prec + E) := by
  refine dyadic_lt_two_pow (n := F.prec + 1) ?_ (by push_cast; omega)
  have hlt := h.lt
  rw [pow_succ]
  omega

end EvenBound

theorem abs_toRat_pack {neg : Bool} {m : ℕ} {e : ℤ} (h : (pack F neg m e).IsFinite) :
    |(pack F neg m e).toRat| = dyadic m e := by
  rw [pack] at h ⊢
  split at h
  · next hsig =>
      rw [dif_pos hsig]
      exact abs_signed neg m e
  · exact h.elim

/-- The magnitude of a rounded number that is finite. -/
theorem abs_toRat_round {neg : Bool} {m : ℕ} {e : ℤ} (hm : m ≠ 0)
    (h : (round F neg m e).IsFinite) :
    |(round F neg m e).toRat| = dyadic (shift m (targetExp F m e - e)) (targetExp F m e) := by
  rw [round, if_neg hm] at h ⊢
  dsimp only at h ⊢
  split at h
  · next hlt =>
      rw [if_pos hlt]
      exact abs_toRat_pack h
  · next hcarry =>
      rw [if_neg hcarry, abs_toRat_pack h, shift_eq_of_carry hcarry, dyadic_double,
        add_sub_cancel_right, mul_comm]

/-- The significand of a rounded number against the bound. -/
theorem dyadic_shift_le_iff {m N : ℕ} {e E : ℤ} (hm : m ≠ 0) (h : EvenBound F N E) :
    dyadic (shift m (targetExp F m e - e)) (targetExp F m e) ≤ dyadic N E ↔
      dyadic m e ≤ dyadic (2 * N + 1) (E - 1) := by
  have hprec := F.prec_pos
  have hlower := h.lower
  have hlog : m < 2 ^ (m.log2 + 1) := Nat.lt_log2_self
  have hmax : e + m.log2 + 1 - F.prec ≤ targetExp F m e := le_max_right _ _
  rcases lt_trichotomy (targetExp F m e) E with hlt | heq | hgt
  · -- all is below the power of two that the bound has reached
    have hshift : shift m (targetExp F m e - e) ≤ 2 ^ F.prec := shift_le_two_pow m (by omega)
    refine iff_of_true ?_ ?_
    · exact (dyadic_le_two_pow hshift (by omega)).trans h.two_pow_le
    · refine (dyadic_lt_two_pow hlog ?_).le.trans (h.two_pow_le.trans (dyadic_le_half N E))
      push_cast
      omega
  · rw [heq, dyadic_le_dyadic_iff, shift_le_iff h.even]
  · -- all is above the next power of two
    have htarget : targetExp F m e = e + m.log2 + 1 - F.prec := by
      rw [targetExp] at hgt ⊢
      omega
    have hshift := two_pow_le_shift hm (k := targetExp F m e - e) (by omega)
    refine iff_of_false ?_ ?_
    · refine not_le.2 (h.lt_two_pow.trans_le (two_pow_le_dyadic hshift ?_))
      omega
    · refine not_le.2 (h.half_lt_two_pow.trans_le ?_)
      exact two_pow_le_dyadic (Nat.log2_self_le hm) (by omega)

/-- **Rounding a significand at an exponent** to at most a bound. -/
theorem within_round_iff {neg : Bool} {m N : ℕ} {e E : ℤ} (h : EvenBound F N E) :
    (round F neg m e).Within (dyadic N E) ↔ dyadic m e ≤ dyadic (2 * N + 1) (E - 1) := by
  by_cases hm : m = 0
  · subst hm
    have hzero : ∀ e, dyadic 0 e = 0 := fun e => by simp [dyadic]
    have hnonneg : ∀ m e, 0 ≤ dyadic m e := fun m e => by unfold dyadic; positivity
    have hsig : F.IsSig 0 F.emin :=
      ⟨by positivity, le_rfl, by have := h.lower; have := h.upper; omega, .inl rfl⟩
    have hfinite : (pack F neg 0 F.emin).IsFinite := by
      rw [pack, dif_pos hsig]
      trivial
    rw [round, if_pos rfl, hzero]
    refine iff_of_true ⟨hfinite, ?_⟩ (hnonneg _ _)
    rw [abs_toRat_pack hfinite, hzero]
    exact hnonneg _ _
  · constructor
    · rintro ⟨hfinite, hle⟩
      rw [abs_toRat_round hm hfinite] at hle
      exact (dyadic_shift_le_iff hm h).1 hle
    · intro hle
      have hlog : (m.log2 : ℤ) + e < F.prec + E := by
        refine (zpow_lt_zpow_iff_right₀ (by norm_num : (1 : ℚ) < 2)).1 ?_
        exact (two_pow_le_dyadic (Nat.log2_self_le hm) le_rfl).trans_lt
          (hle.trans_lt h.half_lt_two_pow)
      have htarget : targetExp F m e + 1 ≤ F.emax := by
        have hlower := h.lower
        have hupper := h.upper
        rw [targetExp]
        omega
      have hfinite : (round F neg m e).IsFinite := (toRat_round hm htarget).1
      exact ⟨hfinite, (abs_toRat_round hm hfinite).trans_le ((dyadic_shift_le_iff hm h).2 hle)⟩

/-- A quotient with its last digit, which says whether it is exact, against a whole number. -/
theorem twice_quotient_le_iff {a d T : ℕ} (hd : 0 < d) :
    2 * (a / d) + (if a % d = 0 then 0 else 1) ≤ 2 * T ↔ a ≤ T * d := by
  have ha := Nat.div_add_mod a d
  have hr := Nat.mod_lt a hd
  rw [mul_comm T]
  generalize a / d = f at *
  generalize a % d = r at *
  rcases Nat.lt_trichotomy f T with hlt | rfl | hgt
  · have hmul : d * (f + 1) ≤ d * T := Nat.mul_le_mul_left d hlt
    rw [Nat.mul_succ] at hmul
    split <;> omega
  · split <;> omega
  · have hmul : d * (T + 1) ≤ d * f := Nat.mul_le_mul_left d hgt
    rw [Nat.mul_succ] at hmul
    split <;> omega

theorem abs_le_dyadic_iff {q : ℚ} {T k : ℕ} :
    |q| ≤ dyadic T (-k) ↔ q.num.natAbs * 2 ^ k ≤ T * q.den := by
  have hden : (0 : ℚ) < q.den := Nat.cast_pos.2 q.den_pos
  have hpow : (0 : ℚ) < 2 ^ k := by positivity
  have hq : |q| = q.num.natAbs / q.den := by rw [eq_div_iff hden.ne', abs_mul_den]
  have hT : dyadic T (-k) = T / 2 ^ k := by
    rw [dyadic, zpow_neg, zpow_natCast, div_eq_mul_inv]
  rw [hq, hT, div_le_div_iff₀ hden hpow]
  exact_mod_cast Iff.rfl

/-- **Rounding a rational number** to at most a bound whose last place is not too small. -/
theorem within_ofRat_iff {q : ℚ} {N : ℕ} {E : ℤ} (h : EvenBound F N E) (hE : -F.prec ≤ E) :
    (ofRat F q).Within (dyadic N E) ↔ |q| ≤ dyadic (2 * N + 1) (E - 1) := by
  rw [ofRat, within_round_iff h]
  generalize hk : F.prec + q.den.log2 + 2 = k
  -- the bound, in units of the quotient
  obtain ⟨T, hT⟩ : ∃ T, dyadic (2 * N + 1) (E - 1) = dyadic T (-k) := by
    have hexp : E - 1 = -(k : ℤ) + ((E - 1 + k).toNat : ℤ) := by omega
    exact ⟨_, by rw [hexp, dyadic_add]⟩
  rw [hT, abs_le_dyadic_iff, ← twice_quotient_le_iff q.den_pos, dyadic_double T,
    dyadic_le_dyadic_iff]

end BinaryFloat
