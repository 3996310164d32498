/-
**Labelled transition systems given by a partial step function.**

A system is a function `step : σ → α → Option σ`: every choice the environment makes — which
process moves, what an external command answers, in which order a collection is walked — is part
of the label `α`, so that the step itself is a function and a concrete run can be evaluated.  A
label that is not possible in a state is answered by `none`.

A run under a side condition on its steps is a run of the *restricted* system, in which the labels
that violate the condition are impossible; a statement about "every run whose steps all meet the
condition" is then a statement about the reachable states of another system, and needs no rule of
its own.

Main definitions:

* `Lts.run` — the state after a list of labels;
* `Lts.Reach` — reachability;
* `Lts.restrict` — the system whose steps meet a side condition.

Main results:

* `Lts.Reach.invariant` — what holds initially and is preserved by every step holds of every
  reachable state;
* `Lts.Reach.exists_enters` — a run into a set of states has a step into it;
* `Lts.exists_reach_of_measure` — a measure that can always be lowered leads to a final state;
* `Lts.length_le_of_measure` — a measure that every step lowers bounds every run;
* `Lts.reach_of_run` — an evaluated run witnesses reachability.
-/

import Mathlib.Logic.Basic
import Mathlib.Tactic.Common

set_option relaxedAutoImplicit false
set_option autoImplicit false

namespace Lts

variable {σ α : Type*}

/-- The state after a list of labels, if every one of them is possible in its turn. -/
def run (step : σ → α → Option σ) : σ → List α → Option σ
  | s, [] => some s
  | s, a :: as => (step s a).bind fun s' => run step s' as

@[simp] theorem run_nil (step : σ → α → Option σ) (s : σ) : run step s [] = some s := rfl

theorem run_cons (step : σ → α → Option σ) (s : σ) (a : α) (as : List α) :
    run step s (a :: as) = (step s a).bind fun s' => run step s' as := rfl

theorem run_append (step : σ → α → Option σ) (as bs : List α) :
    ∀ s : σ, run step s (as ++ bs) = (run step s as).bind fun s' => run step s' bs := by
  induction as with
  | nil => intro s; rfl
  | cons a as ih =>
      intro s
      rw [List.cons_append, run_cons, run_cons, Option.bind_assoc]
      exact Option.bind_congr fun s' _ => ih s'

/-- A run that takes one more step. -/
theorem run_concat_eq_some_iff {step : σ → α → Option σ} {s s' : σ} {as : List α} {a : α} :
    run step s (as ++ [a]) = some s' ↔ ∃ s₁, run step s as = some s₁ ∧ step s₁ a = some s' := by
  rw [run_append, Option.bind_eq_some_iff]
  refine exists_congr fun s₁ => and_congr_right fun _ => ?_
  rw [run_cons, Option.bind_eq_some_iff]
  simp

/-- The states reachable from `s₀`. -/
inductive Reach (step : σ → α → Option σ) (s₀ : σ) : σ → Prop
  | refl : Reach step s₀ s₀
  | tail {s s' : σ} (a : α) : Reach step s₀ s → step s a = some s' → Reach step s₀ s'

/-- What holds initially and is preserved by every step holds of every reachable state. -/
theorem Reach.invariant {step : σ → α → Option σ} {s₀ s : σ} {I : σ → Prop}
    (h : Reach step s₀ s) (h₀ : I s₀)
    (hstep : ∀ s a s', I s → step s a = some s' → I s') : I s := by
  induction h with
  | refl => exact h₀
  | tail a _ hs ih => exact hstep _ a _ ih hs

/-- A run from outside a set of states into it enters the set by one of its steps. -/
theorem Reach.exists_enters {step : σ → α → Option σ} {s₀ s : σ} {Q : σ → Prop}
    (h : Reach step s₀ s) (h₀ : ¬ Q s₀) (hs : Q s) :
    ∃ s₁ a s₂, Reach step s₀ s₁ ∧ ¬ Q s₁ ∧ step s₁ a = some s₂ ∧ Q s₂ := by
  induction h with
  | refl => exact absurd hs h₀
  | @tail s₁ s₂ a hreach hstep ih =>
      by_cases hQ : Q s₁
      · exact ih hQ
      · exact ⟨s₁, a, s₂, hreach, hQ, hstep, hs⟩

theorem Reach.trans {step : σ → α → Option σ} {s₀ s s' : σ} (h : Reach step s₀ s)
    (h' : Reach step s s') : Reach step s₀ s' := by
  induction h' with
  | refl => exact h
  | tail a _ hs ih => exact ih.tail a hs

/-- If every state of a set that is not final has a step to a smaller one of the set, then a final
state is reachable from each of them. -/
theorem exists_reach_of_measure {step : σ → α → Option σ} {I Q : σ → Prop} (m : σ → ℕ)
    (hstep : ∀ s, I s → ¬ Q s → ∃ a s', step s a = some s' ∧ I s' ∧ m s' < m s) :
    ∀ {s : σ}, I s → ∃ s', Reach step s s' ∧ Q s' := by
  intro s
  induction hm : m s using Nat.strongRecOn generalizing s with
  | ind n ih =>
      intro hI
      by_cases hQ : Q s
      · exact ⟨s, .refl, hQ⟩
      · obtain ⟨a, s₁, hs₁, hI₁, hlt⟩ := hstep s hI hQ
        obtain ⟨s', hreach, hQ'⟩ := ih _ (hm ▸ hlt) rfl hI₁
        exact ⟨s', (Reach.refl.tail a hs₁).trans hreach, hQ'⟩

/-- A run is no longer than a measure that every step lowers. -/
theorem length_le_of_measure {step : σ → α → Option σ} (m : σ → ℕ)
    (hstep : ∀ s a s', step s a = some s' → m s' < m s) {as : List α} :
    ∀ {s s' : σ}, run step s as = some s' → as.length ≤ m s := by
  induction as with
  | nil => intro s s' _; exact Nat.zero_le _
  | cons a as ih =>
      intro s s' h
      obtain ⟨s₁, hs₁, hrun⟩ := Option.bind_eq_some_iff.1 h
      exact Nat.lt_of_le_of_lt (ih hrun) (hstep s a s₁ hs₁)

/-- The states an evaluated run passes through are reachable. -/
theorem Reach.run {step : σ → α → Option σ} {s₀ s : σ} (h : Reach step s₀ s) :
    ∀ {as : List α} {s' : σ}, Lts.run step s as = some s' → Reach step s₀ s' := by
  intro as
  induction as generalizing s with
  | nil =>
      intro s' hs
      cases Option.some.inj hs
      exact h
  | cons a as ih =>
      intro s' hs
      rw [run_cons] at hs
      obtain ⟨s₁, hs₁, hrun⟩ := Option.bind_eq_some_iff.1 hs
      exact ih (h.tail a hs₁) hrun

theorem reach_of_run {step : σ → α → Option σ} {s₀ s : σ} {as : List α}
    (h : run step s₀ as = some s) : Reach step s₀ s := Reach.refl.run h

/-! ### Side conditions on the steps -/

/-- The system whose steps all meet the side condition `guard`. -/
def restrict (step : σ → α → Option σ) (guard : σ → α → Prop) [∀ s a, Decidable (guard s a)] :
    σ → α → Option σ := fun s a => if guard s a then step s a else none

variable {step : σ → α → Option σ} {guard : σ → α → Prop} [∀ s a, Decidable (guard s a)]

@[simp] theorem restrict_eq_some_iff {s s' : σ} {a : α} :
    restrict step guard s a = some s' ↔ guard s a ∧ step s a = some s' := by
  rw [restrict]
  split <;> simp_all

/-- A run under a side condition is a run. -/
theorem Reach.of_restrict {s₀ s : σ} (h : Reach (restrict step guard) s₀ s) : Reach step s₀ s := by
  induction h with
  | refl => exact .refl
  | tail a _ hs ih => exact ih.tail a (restrict_eq_some_iff.1 hs).2

end Lts
