/-
**Retrying an operation.**

An operation is attempted until it succeeds, a given number of times at most.  Every attempt may
change the world, also one that fails, so what the failed attempts left behind is part of the
outcome.

Main definitions:

* `retry` — the attempts `0, …, n`, the last error counts.

Main results:

* `retry_rule` — an invariant that failed attempts keep holds when the last attempt is made.
-/

import Mathlib.Data.List.Basic
import Mathlib.Tactic.Common

set_option relaxedAutoImplicit false
set_option autoImplicit false

variable {W ε R : Type*}

/-- The attempts `k, …, k + n`. -/
def retryFrom (attempt : ℕ → W → Except ε R × W) : ℕ → ℕ → W → Except ε R × W
  | 0, k, w => attempt k w
  | n + 1, k, w =>
      match attempt k w with
      | (.ok r, w') => (.ok r, w')
      | (.error _, w') => retryFrom attempt n (k + 1) w'

/-- An attempt and up to `n` retries. -/
def retry (attempt : ℕ → W → Except ε R × W) (n : ℕ) (w : W) : Except ε R × W :=
  retryFrom attempt n 0 w

variable {attempt : ℕ → W → Except ε R × W} {I : ℕ → W → Prop}

theorem retryFrom_rule (hstep : ∀ k w e w', I k w → attempt k w = (.error e, w') → I (k + 1) w')
    (n : ℕ) :
    ∀ {k : ℕ} {w : W}, I k w →
      (∃ j w₁ r w', j ≤ k + n ∧ I j w₁ ∧ attempt j w₁ = (.ok r, w') ∧
        retryFrom attempt n k w = (.ok r, w')) ∨
      ∃ e w', retryFrom attempt n k w = (.error e, w') ∧ I (k + n + 1) w' := by
  induction n with
  | zero =>
      intro k w hI
      rcases h : attempt k w with ⟨result, w'⟩
      cases result with
      | ok r => exact .inl ⟨k, w, r, w', by omega, hI, h, h⟩
      | error e => exact .inr ⟨e, w', h, hstep k w e w' hI h⟩
  | succ n ih =>
      intro k w hI
      rcases h : attempt k w with ⟨result, w₁⟩
      cases result with
      | ok r => exact .inl ⟨k, w, r, w₁, by omega, hI, h, by rw [retryFrom, h]⟩
      | error e =>
          have hrun : retryFrom attempt (n + 1) k w = retryFrom attempt n (k + 1) w₁ := by
            rw [retryFrom, h]
          have hlast : k + (n + 1) + 1 = k + 1 + n + 1 := by omega
          rw [hrun, hlast]
          rcases ih (hstep k w e w₁ hI h) with ⟨j, w₂, r, w', hj, hrest⟩ | hrest
          · exact .inl ⟨j, w₂, r, w', by omega, hrest⟩
          · exact .inr hrest

/-- **The rule for retrying.**  If failed attempts keep an invariant, indexed by the number of the
attempt, it holds when an attempt succeeds, and after the last one if none does. -/
theorem retry_rule (hstep : ∀ k w e w', I k w → attempt k w = (.error e, w') → I (k + 1) w')
    (n : ℕ) {w : W} (h0 : I 0 w) :
    (∃ k w₁ r w', k ≤ n ∧ I k w₁ ∧ attempt k w₁ = (.ok r, w') ∧
        retry attempt n w = (.ok r, w')) ∨
      ∃ e w', retry attempt n w = (.error e, w') ∧ I (n + 1) w' := by
  simpa [retry] using retryFrom_rule hstep n h0
