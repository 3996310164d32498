/-
**Broadcast channels of bounded capacity.**

A channel keeps the last elements sent, up to its capacity, and every receiver has a position of its
own.  A receiver whose position has been overwritten is told how many elements it has missed, once,
and goes on at the oldest element kept; it does not hold up the sender.

What a receiver has been given is a walk through all the elements ever sent: from the position where
it subscribed, an element moves it one further, and a gap moves it over elements that are gone.

Main definitions:

* `Broadcast.Ring` — a channel, with `Ring.send` and `Ring.recv`;
* `Broadcast.Walk` — elements and gaps along the elements sent;
* `Broadcast.Ring.Keeps` — the channel keeps the last elements sent.

Main results:

* `Broadcast.Ring.Keeps.send` — sending keeps the last elements;
* `Broadcast.Walk.recv` — receiving goes on with the walk;
* `Broadcast.Walk.prefix_of_forall_ok` — without gaps, all elements from the start on are received.
-/

import Mathlib.Data.List.Basic
import Mathlib.Tactic.Common

set_option relaxedAutoImplicit false
set_option autoImplicit false

namespace Broadcast

variable {α : Type*} {cap : ℕ}

/-- A channel: the number of elements that are gone, and those kept, the oldest first. -/
structure Ring (cap : ℕ) (α : Type*) where
  dropped : ℕ
  kept : List α
  bounded : kept.length ≤ cap

namespace Ring

/-- A channel to which nothing has been sent. -/
def new : Ring cap α := ⟨0, [], Nat.zero_le cap⟩

/-- The position of the next element to be sent. -/
def tail (r : Ring cap α) : ℕ := r.dropped + r.kept.length

/-- Sending an element, which overwrites the oldest one if the channel is full. -/
def send (r : Ring cap α) (a : α) : Ring cap α where
  dropped := r.dropped + (r.kept.length + 1 - cap)
  kept := (r.kept ++ [a]).drop (r.kept.length + 1 - cap)
  bounded := by
    rw [List.length_drop, List.length_append, List.length_singleton]
    omega

/-- Receiving at a position: an element, or the number of those missed, or nothing yet. -/
def recv (r : Ring cap α) (next : ℕ) : Option (Except ℕ α) :=
  if next < r.dropped then some (.error (r.dropped - next))
  else (r.kept[next - r.dropped]?).map .ok

/-- The channel keeps the last of the elements sent. -/
structure Keeps (r : Ring cap α) (sent : List α) : Prop where
  dropped_eq : r.dropped = sent.length - cap
  kept_eq : r.kept = sent.drop r.dropped

theorem keeps_new : (new : Ring cap α).Keeps [] := ⟨by simp [new], rfl⟩

theorem Keeps.tail_eq {r : Ring cap α} {sent : List α} (h : r.Keeps sent) :
    r.tail = sent.length := by
  have hdropped := h.dropped_eq
  rw [tail, h.kept_eq, List.length_drop]
  omega

theorem Keeps.send {r : Ring cap α} {sent : List α} (h : r.Keeps sent) (a : α) :
    (r.send a).Keeps (sent ++ [a]) := by
  have htail : r.dropped + r.kept.length = sent.length := h.tail_eq
  have hdropped := h.dropped_eq
  have hle : r.dropped ≤ sent.length := by omega
  refine ⟨?_, ?_⟩
  · simp only [Ring.send, List.length_append, List.length_singleton]
    omega
  · simp only [Ring.send]
    rw [← List.drop_drop, List.drop_append_of_le_length hle, ← h.kept_eq]

theorem Keeps.foldl_send {as : List α} :
    ∀ {r : Ring cap α} {sent : List α}, r.Keeps sent →
      (as.foldl Ring.send r).Keeps (sent ++ as) := by
  induction as with
  | nil => intro r sent h; simpa using h
  | cons a as ih =>
      intro r sent h
      have hstep := ih (h.send a)
      rwa [List.append_assoc, List.singleton_append] at hstep

/-- What is received at a position is the element sent there. -/
theorem Keeps.recv_ok {r : Ring cap α} {sent : List α} (h : r.Keeps sent) {next : ℕ} {a : α}
    (hr : r.recv next = some (.ok a)) : sent[next]? = some a := by
  rw [recv] at hr
  split at hr
  · cases hr
  · next hge =>
      obtain ⟨b, hb, heq⟩ := Option.map_eq_some_iff.1 hr
      cases heq
      rw [h.kept_eq, List.getElem?_drop] at hb
      rwa [Nat.add_sub_cancel' (Nat.le_of_not_lt hge)] at hb

/-- A receiver that has missed elements goes on at the oldest one kept. -/
theorem Keeps.recv_error {r : Ring cap α} {sent : List α} (h : r.Keeps sent) {next n : ℕ}
    (hr : r.recv next = some (.error n)) : 0 < n ∧ next + n + cap = sent.length := by
  rw [recv] at hr
  split at hr
  · next hlt =>
      have hdropped := h.dropped_eq
      cases hr
      omega
  · obtain ⟨b, -, heq⟩ := Option.map_eq_some_iff.1 hr
    cases heq

/-- A receiver for which there is nothing has come to the end. -/
theorem Keeps.recv_none {r : Ring cap α} {sent : List α} (h : r.Keeps sent) {next : ℕ}
    (hr : r.recv next = none) : sent.length ≤ next := by
  have htail := h.tail_eq
  rw [tail] at htail
  rw [recv] at hr
  split at hr
  · cases hr
  · have hend := List.getElem?_eq_none_iff.1 (Option.map_eq_none_iff.1 hr)
    omega

end Ring

/-! ### Walks -/

/-- How far an item moves a receiver. -/
def width : Except ℕ α → ℕ
  | .ok _ => 1
  | .error n => n

/-- The items lead along the elements sent from the first position to the second: an element is the
one at its position, and a gap is over elements that are gone from the channel. -/
def Walk (cap : ℕ) (sent : List α) : ℕ → List (Except ℕ α) → ℕ → Prop
  | p, [], q => p = q
  | p, .ok a :: items, q => sent[p]? = some a ∧ Walk cap sent (p + 1) items q
  | p, .error n :: items, q =>
      0 < n ∧ p + n + cap ≤ sent.length ∧ Walk cap sent (p + n) items q

namespace Walk

variable {sent : List α} {items : List (Except ℕ α)} {p q : ℕ}

theorem concat {item : Except ℕ α} :
    ∀ {p : ℕ}, Walk cap sent p items q → Walk cap sent q [item] (q + width item) →
      Walk cap sent p (items ++ [item]) (q + width item) := by
  induction items with
  | nil =>
      intro p h hitem
      obtain rfl : p = q := h
      exact hitem
  | cons i items ih =>
      intro p h hitem
      cases i with
      | ok a => exact ⟨h.1, ih h.2 hitem⟩
      | error n => exact ⟨h.1, h.2.1, ih h.2.2 hitem⟩

/-- More elements are sent. -/
theorem append (more : List α) :
    ∀ {p : ℕ}, Walk cap sent p items q → Walk cap (sent ++ more) p items q := by
  induction items with
  | nil => intro p h; exact h
  | cons i items ih =>
      intro p h
      cases i with
      | ok a =>
          obtain ⟨hlt, hget⟩ := List.getElem?_eq_some_iff.1 h.1
          refine ⟨?_, ih h.2⟩
          rw [List.getElem?_append_left hlt]
          exact h.1
      | error n =>
          obtain ⟨hpos, hgone, hrest⟩ := h
          refine ⟨hpos, ?_, ih hrest⟩
          rw [List.length_append]
          omega

theorem le (h : Walk cap sent p items q) (hp : p ≤ sent.length) : q ≤ sent.length := by
  induction items generalizing p with
  | nil =>
      obtain rfl : p = q := h
      exact hp
  | cons i items ih =>
      cases i with
      | ok a => exact ih h.2 (List.getElem?_eq_some_iff.1 h.1).1
      | error n =>
          obtain ⟨-, hgone, hrest⟩ := h
          exact ih hrest (by omega)

/-- Receiving goes on with the walk. -/
theorem recv {r : Ring cap α} {item : Except ℕ α} (h : Walk cap sent p items q)
    (hr : r.Keeps sent) (hitem : r.recv q = some item) :
    Walk cap sent p (items ++ [item]) (q + width item) := by
  refine h.concat ?_
  cases item with
  | ok a => exact ⟨hr.recv_ok hitem, rfl⟩
  | error n =>
      obtain ⟨hpos, hgone⟩ := hr.recv_error hitem
      exact ⟨hpos, Nat.le_of_eq hgone, rfl⟩

/-- The elements from the start of a walk on, if it begins with an element. -/
theorem drop_eq_cons {a : α} (h : Walk cap sent p (.ok a :: items) q) :
    sent.drop p = a :: sent.drop (p + 1) := by
  obtain ⟨hlt, rfl⟩ := List.getElem?_eq_some_iff.1 h.1
  exact List.drop_eq_getElem_cons hlt

/-- **Without gaps, the elements received are the first ones from the start on.** -/
theorem prefix_of_forall_ok (h : Walk cap sent p items q)
    (hok : ∀ n, (.error n : Except ℕ α) ∉ items) :
    items.filterMap Except.toOption <+: sent.drop p := by
  induction items generalizing p with
  | nil => exact List.nil_prefix
  | cons i items ih =>
      cases i with
      | ok a =>
          rw [h.drop_eq_cons]
          refine List.cons_prefix_cons.2 ⟨rfl, ih h.2 fun n hn => ?_⟩
          exact hok n (List.mem_cons_of_mem _ hn)
      | error n => exact absurd List.mem_cons_self (hok n)

/-- Without gaps, a receiver that has come to the end has received all elements from the start
on. -/
theorem eq_of_forall_ok (h : Walk cap sent p items q)
    (hok : ∀ n, (.error n : Except ℕ α) ∉ items) (hq : q = sent.length) :
    items.filterMap Except.toOption = sent.drop p := by
  induction items generalizing p with
  | nil =>
      obtain rfl : p = q := h
      rw [hq, List.drop_length]
      rfl
  | cons i items ih =>
      cases i with
      | ok a =>
          rw [h.drop_eq_cons]
          exact congrArg (a :: ·) (ih h.2 fun n hn => hok n (List.mem_cons_of_mem _ hn))
      | error n => exact absurd List.mem_cons_self (hok n)

/-- The elements received are, in order, some of those from the start on. -/
theorem sublist (h : Walk cap sent p items q) :
    (items.filterMap Except.toOption).Sublist (sent.drop p) := by
  induction items generalizing p with
  | nil => exact List.nil_sublist _
  | cons i items ih =>
      cases i with
      | ok a =>
          rw [h.drop_eq_cons]
          exact (ih h.2).cons_cons _
      | error n =>
          refine (ih h.2.2).trans ?_
          rw [← List.drop_drop]
          exact List.drop_sublist _ _

end Walk

end Broadcast
