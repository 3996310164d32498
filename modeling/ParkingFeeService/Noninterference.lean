/-
**Noninterference by unwinding.**

A machine takes one event after the other, and an observer sees the outputs of some of them.  The
observer's outputs do not depend on the irrelevant events of a run if there is a view of the state
that an irrelevant event leaves as it is, that a relevant event takes to a view depending on nothing
else, and that determines what the observer sees.  These are conditions on one step.

Where the state is a family of cells and every event reads and writes one cell at most, the view of
an observer of one cell is that cell.

Main definitions:

* `observations` — what the observer sees of a run;
* `Unwinding` — the conditions on one step;
* `Local` — an operation that reads and writes one cell.

Main results:

* `Unwinding.observations_filter` — the irrelevant events can be left out;
* `Unwinding.noninterference` — two runs that agree on the relevant events look the same;
* `Unwinding.of_local` — the conditions hold of an observer of one cell.
-/

import Mathlib.Data.List.Basic

set_option relaxedAutoImplicit false
set_option autoImplicit false

variable {S E O V K C : Type*}

/-! ### Unwinding -/

/-- What the observer sees of a run, in order. -/
def observations (next : S → E → S) (observe : S → E → Option O) : S → List E → List O
  | _, [] => []
  | s, e :: es => (observe s e).toList ++ observations next observe (next s e) es

/-- A view of the state that only the relevant events change, and on which the changes and what the
observer sees depend. -/
structure Unwinding (next : S → E → S) (observe : S → E → Option O) (view : S → V)
    (relevant : E → Bool) : Prop where
  next_congr : ∀ {s t e}, relevant e = true → view s = view t → view (next s e) = view (next t e)
  next_frame : ∀ {s e}, relevant e = false → view (next s e) = view s
  observe_congr : ∀ {s t e}, relevant e = true → view s = view t → observe s e = observe t e
  observe_silent : ∀ {s e}, relevant e = false → observe s e = none

namespace Unwinding

variable {next : S → E → S} {observe : S → E → Option O} {view : S → V} {relevant : E → Bool}

/-- The observer sees the same if the irrelevant events are left out. -/
theorem observations_filter (h : Unwinding next observe view relevant) (es : List E) :
    ∀ {s t : S}, view s = view t →
      observations next observe s es = observations next observe t (es.filter relevant) := by
  induction es with
  | nil => intro s t _; rfl
  | cons e es ih =>
      intro s t hst
      cases he : relevant e with
      | true =>
          have hnext : view (next s e) = view (next t e) := h.next_congr he hst
          rw [List.filter_cons_of_pos he, observations, observations, h.observe_congr he hst,
            ih hnext]
      | false =>
          have hnext : view (next s e) = view t := (h.next_frame he).trans hst
          rw [List.filter_cons_of_neg (by simp [he]), observations, h.observe_silent he, ih hnext]
          rfl

/-- **Two runs that agree on the relevant events** look the same to the observer. -/
theorem noninterference (h : Unwinding next observe view relevant) (s : S) {es es' : List E}
    (hes : es.filter relevant = es'.filter relevant) :
    observations next observe s es = observations next observe s es' := by
  rw [h.observations_filter es rfl, hes, ← h.observations_filter es' rfl]

end Unwinding

/-! ### Locality -/

/-- An operation on a family of cells that writes one cell, or none, and depends, cell by cell, on
nothing but the cell. -/
structure Local (cell : S → K → C) (key : Option K) (op : S → S) : Prop where
  frame : ∀ {s k}, key ≠ some k → cell (op s) k = cell s k
  congr : ∀ {s t k}, cell s k = cell t k → cell (op s) k = cell (op t) k

/-- It is enough to look at the cell that is written. -/
theorem Local.of_key {cell : S → K → C} {key : K} {op : S → S}
    (hframe : ∀ s k, k ≠ key → cell (op s) k = cell s k)
    (hcongr : ∀ s t, cell s key = cell t key → cell (op s) key = cell (op t) key) :
    Local cell (some key) op := by
  have frame : ∀ {s k}, some key ≠ some k → cell (op s) k = cell s k := fun hne =>
    hframe _ _ fun heq => hne (congrArg some heq.symm)
  refine ⟨frame, ?_⟩
  intro s t k hst
  by_cases hk : some key = some k
  · obtain rfl := Option.some.inj hk
    exact hcongr s t hst
  · rw [frame hk, frame hk, hst]

/-- The observer of a cell, to whom every event that writes the cell is relevant. -/
theorem Unwinding.of_local {next : S → E → S} {observe : S → E → Option O} {relevant : E → Bool}
    {cell : S → K → C} {key : E → Option K} {k : K}
    (hlocal : ∀ e, Local cell (key e) fun s => next s e)
    (hrelevant : ∀ e, key e = some k → relevant e = true)
    (hcongr : ∀ s t e, cell s k = cell t k → observe s e = observe t e)
    (hsilent : ∀ s e, relevant e = false → observe s e = none) :
    Unwinding next observe (fun s => cell s k) relevant where
  next_congr _ hst := (hlocal _).congr hst
  next_frame he := (hlocal _).frame fun hk => by simp [hrelevant _ hk] at he
  observe_congr _ hst := hcongr _ _ _ hst
  observe_silent he := hsilent _ _ he
