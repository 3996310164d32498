/-
**Pools of tasks.**

A pool is a list in which the position of a task is its name.  A task that moves leaves its
position and the tasks it starts are appended; what the rules below give is the membership and the
pairwise relations of the pool after such a move from those before it.

Main results:

* `Pool.eq_or_mem_eraseIdx` — a member of the pool is the one at the position or one of the others;
* `Pool.pairwise_move` — a symmetric relation survives a move if it holds between the started tasks
  and everything else;
* `Pool.pairwise_others` — the task at a position is related to all others;
* `Pool.eq_or_mem_set`, `Pool.pairwise_set` — a task changes at its position;
* `Pool.filter_of_neg`, `Pool.filter_of_singleton` — what a move does to the tasks of one kind.
-/

import Mathlib.Data.List.Pairwise
import Mathlib.Data.List.Basic
import Mathlib.Tactic.Common

set_option relaxedAutoImplicit false
set_option autoImplicit false

namespace Pool

variable {α : Type*}

/-- What is left when a task leaves its position was there before. -/
theorem mem_of_mem_eraseIdx {l : List α} {i : ℕ} {b : α} (h : b ∈ l.eraseIdx i) : b ∈ l :=
  List.eraseIdx_subset h

/-- A member of the pool is the one at the position or one of the others. -/
theorem eq_or_mem_eraseIdx {l : List α} {i : ℕ} {a b : α} (ha : l[i]? = some a) (hb : b ∈ l) :
    b = a ∨ b ∈ l.eraseIdx i := by
  obtain ⟨j, hj⟩ := List.mem_iff_getElem?.1 hb
  by_cases hij : j = i
  · subst hij
    rw [ha] at hj
    exact .inl (Option.some.inj hj).symm
  · exact .inr (List.mem_eraseIdx_iff_getElem?.2 ⟨j, hij, hj⟩)

/-- Replacing the task at a position changes the members by that one task. -/
theorem eq_or_mem_of_mem_set {l : List α} {i : ℕ} {a b : α} (h : b ∈ l.set i a) :
    b = a ∨ b ∈ l := (List.mem_or_eq_of_mem_set h).symm

theorem mem_set_self {l : List α} {i : ℕ} {a : α} (ha : l[i]? = some a) (a' : α) :
    a' ∈ l.set i a' :=
  List.mem_set (List.getElem?_eq_some_iff.1 ha).1 a'

/-- Replacing the task at a position keeps the others. -/
theorem eq_or_mem_set {l : List α} {i : ℕ} {a b : α} (ha : l[i]? = some a) (hb : b ∈ l) (a' : α) :
    b = a ∨ b ∈ l.set i a' := by
  rcases eq_or_mem_eraseIdx ha hb with heq | hb
  · exact .inl heq
  · obtain ⟨j, hji, hj⟩ := List.mem_eraseIdx_iff_getElem?.1 hb
    refine .inr (List.mem_iff_getElem?.2 ⟨j, ?_⟩)
    rw [List.getElem?_set_ne (Ne.symm hji), hj]

/-- The task at a position is related to all others. -/
theorem pairwise_others {R : α → α → Prop} (hR : ∀ {a b}, R a b → R b a) {l : List α}
    (h : l.Pairwise R) {i : ℕ} {a : α} (ha : l[i]? = some a) : ∀ b ∈ l.eraseIdx i, R a b := by
  intro b hb
  obtain ⟨j, hji, hj⟩ := List.mem_eraseIdx_iff_getElem?.1 hb
  obtain ⟨hi', rfl⟩ := List.getElem?_eq_some_iff.1 ha
  obtain ⟨hj', rfl⟩ := List.getElem?_eq_some_iff.1 hj
  have hpw := List.pairwise_iff_getElem.1 h
  rcases Nat.lt_or_gt_of_ne hji with hlt | hlt
  · exact hR (hpw j i hj' hi' hlt)
  · exact hpw i j hi' hj' hlt

/-- A symmetric relation survives a move if it holds among the started tasks and between them and
the ones that stay. -/
theorem pairwise_move {R : α → α → Prop} {l new : List α} (h : l.Pairwise R) (i : ℕ)
    (hnew : new.Pairwise R) (hcross : ∀ a ∈ l.eraseIdx i, ∀ b ∈ new, R a b) :
    (l.eraseIdx i ++ new).Pairwise R :=
  List.pairwise_append.2 ⟨h.sublist (List.eraseIdx_sublist ..), hnew, hcross⟩

/-- Replacing a task by one with the same relations. -/
theorem pairwise_set {R : α → α → Prop} {l : List α} (h : l.Pairwise R) {a : α} (a' : α)
    (hl : ∀ b, R a b → R a' b) (hr : ∀ b, R b a → R b a') :
    ∀ {i : ℕ}, l[i]? = some a → (l.set i a').Pairwise R := by
  induction h with
  | nil => intro i hi; cases hi
  | @cons b l hb hpw ih =>
      intro i hi
      cases i with
      | zero =>
          cases hi
          exact List.pairwise_cons.2 ⟨fun c hc => hl c (hb c hc), hpw⟩
      | succ i =>
          refine List.pairwise_cons.2 ⟨fun c hc => ?_, ih hi⟩
          rcases eq_or_mem_of_mem_set hc with rfl | hc
          · exact hr b (hb a (List.mem_of_getElem? hi))
          · exact hb c hc

theorem pairwise_of_length_le_one {R : α → α → Prop} {l : List α} (h : l.length ≤ 1) :
    l.Pairwise R := by
  match l, h with
  | [], _ => exact List.Pairwise.nil
  | [a], _ => exact List.pairwise_singleton R a

/-- The tasks of one kind, around a position. -/
theorem filter_position {l : List α} {i : ℕ} {a : α} (ha : l[i]? = some a) (p : α → Bool) :
    ∃ pre post, l.filter p = pre ++ [a].filter p ++ post ∧
      (l.eraseIdx i).filter p = pre ++ post ∧
      ∀ a', (l.set i a').filter p = pre ++ [a'].filter p ++ post := by
  obtain ⟨hi, hget⟩ := List.getElem?_eq_some_iff.1 ha
  refine ⟨(l.take i).filter p, (l.drop (i + 1)).filter p, ?_, ?_, fun a' => ?_⟩
  · conv_lhs => rw [← List.take_append_drop i l, List.drop_eq_getElem_cons hi, hget]
    rw [← List.filter_append, ← List.filter_append, List.append_assoc, List.singleton_append]
  · rw [List.eraseIdx_eq_take_drop_succ, List.filter_append]
  · rw [List.set_eq_take_append_cons_drop, if_pos hi, ← List.filter_append, ← List.filter_append,
      List.append_assoc, List.singleton_append]

/-- A task of another kind moves. -/
theorem filter_of_neg {l : List α} {i : ℕ} {a : α} {p : α → Bool} (ha : l[i]? = some a)
    (hp : p a = false) :
    (l.eraseIdx i).filter p = l.filter p ∧
      ∀ a', p a' = false → (l.set i a').filter p = l.filter p := by
  obtain ⟨pre, post, hall, herase, hset⟩ := filter_position ha p
  simp only [List.filter_singleton, hp] at hall
  exact ⟨by simp [hall, herase], fun a' hp' => by simp [hset, hall, hp']⟩

/-- The only task of its kind moves. -/
theorem filter_of_singleton {l : List α} {i : ℕ} {a b : α} {p : α → Bool} (ha : l[i]? = some a)
    (hp : p a = true) (hone : l.filter p = [b]) :
    a = b ∧ (l.eraseIdx i).filter p = [] ∧
      ∀ a', p a' = true → (l.set i a').filter p = [a'] := by
  obtain ⟨pre, post, hall, herase, hset⟩ := filter_position ha p
  simp only [List.filter_singleton, hp] at hall
  rw [hone] at hall
  have hlen := congrArg List.length hall
  simp only [List.length_append, cond_true, List.length_singleton] at hlen
  obtain rfl : pre = [] := List.eq_nil_of_length_eq_zero (by omega)
  obtain rfl : post = [] := List.eq_nil_of_length_eq_zero (by omega)
  refine ⟨by simpa using hall.symm, herase, fun a' hp' => ?_⟩
  simp [hset, hp']

end Pool
