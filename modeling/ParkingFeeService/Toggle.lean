/-
**A two-state automaton.**

The automaton is off, or on with a value.  It can be switched on only when it is off and off only
when it is on, so the inputs it takes alternate, and its state can be read off the last of them.

Main definitions:

* `Toggle` — the inputs; `Toggle.run` — the automaton;
* `Toggle.Alternating` — inputs that alternate;
* `Toggle.last`, `Toggle.lastOn` — the value of the last input, and of the last that switches on.

Main results:

* `Toggle.alternating_of_run` — the inputs taken alternate;
* `Toggle.eq_last_of_run` — the state is the value of the last input.
-/

import Mathlib.Data.List.Induction

set_option relaxedAutoImplicit false
set_option autoImplicit false

/-- Switching on with a value, or off. -/
inductive Toggle (α : Type*)
  | on (a : α)
  | off
  deriving DecidableEq

namespace Toggle

variable {α : Type*}

/-- Whether the input switches on. -/
def isOn : Toggle α → Bool
  | on _ => true
  | off => false

/-- The value after the input. -/
def value : Toggle α → Option α
  | on a => some a
  | off => none

/-- The automaton, whose state is the value it is on with. -/
def step (s : Option α) (x : Toggle α) : Option (Option α) :=
  if x.isOn = s.isNone then some x.value else none

/-- The state after a list of inputs, if they are all taken. -/
def run (s : Option α) (xs : List (Toggle α)) : Option (Option α) := xs.foldlM step s

@[simp] theorem run_nil (s : Option α) : run s [] = some s := rfl

theorem run_append (s : Option α) (xs ys : List (Toggle α)) :
    run s (xs ++ ys) = (run s xs).bind fun t => run t ys :=
  List.foldlM_append

theorem run_singleton (s : Option α) (x : Toggle α) : run s [x] = step s x := by
  simp [run]

/-- The inputs alternate; the first one switches on or off as given. -/
def Alternating : Bool → List (Toggle α) → Prop
  | _, [] => True
  | b, x :: xs => x.isOn = b ∧ Alternating (!b) xs

/-- The value after the last input. -/
def last (xs : List (Toggle α)) : Option α := xs.getLast?.bind value

/-- The value of the last input that switches on. -/
def lastOn (xs : List (Toggle α)) : Option α := xs.reverse.findSome? value

theorem isNone_of_step {s t : Option α} {x : Toggle α} (h : step s x = some t) :
    t.isNone = !s.isNone := by
  rw [step] at h
  split at h
  · next hx =>
      obtain rfl := Option.some.inj h
      rw [← hx]
      cases x <;> rfl
  · cases h

/-- **The inputs taken alternate.** -/
theorem alternating_of_run {xs : List (Toggle α)} :
    ∀ {s t : Option α}, run s xs = some t → Alternating s.isNone xs := by
  induction xs with
  | nil => intro s t _; trivial
  | cons x xs ih =>
      intro s t h
      obtain ⟨u, hstep, hrun⟩ := Option.bind_eq_some_iff.1 h
      have hx : x.isOn = s.isNone := by
        by_contra hne
        simp [step, hne] at hstep
      refine ⟨hx, ?_⟩
      rw [← isNone_of_step hstep]
      exact ih hrun

/-- **The state is the value after the last input.** -/
theorem eq_last_of_run {xs : List (Toggle α)} {t : Option α} (h : run none xs = some t) :
    t = last xs := by
  induction xs using List.reverseRecOn with
  | nil => exact (Option.some.inj h).symm
  | append_singleton xs x _ =>
      rw [run_append] at h
      obtain ⟨u, -, hstep⟩ := Option.bind_eq_some_iff.1 h
      rw [run_singleton, step] at hstep
      split at hstep
      · simpa [last] using (Option.some.inj hstep).symm
      · cases hstep

/-- A value that is on is the one last switched on. -/
theorem lastOn_of_last {xs : List (Toggle α)} {a : α} (h : last xs = some a) :
    lastOn xs = some a := by
  induction xs using List.reverseRecOn with
  | nil => cases h
  | append_singleton xs x _ =>
      have hx : x.value = some a := by simpa [last] using h
      simp [lastOn, hx]

end Toggle
