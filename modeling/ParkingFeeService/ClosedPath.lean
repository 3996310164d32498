/-
**Closed paths.**

A list of stops is walked from the last stop back to the first and on through the list.  The legs of
this walk, as a collection, depend on the cyclic order of the stops alone, and walking the list
backwards turns every leg round.

Main definitions:

* `ClosedPath.legs` — the legs of a walk from a given stop;
* `ClosedPath.closed` — the legs of the walk round the list.

Main results:

* `ClosedPath.closed_perm_of_isRotated`, `ClosedPath.closed_reverse` — other ways to write the walk;
* `ClosedPath.closed_chord` — a walk cut in two along a chord;
* `ClosedPath.countP_enter_eq_leave`, `ClosedPath.countP_change_closed` — a property of stops is
  entered as often as it is left;
* `ClosedPath.exists_isRotated_of_mem` — every leg is the first one of some rotation.
-/

import Mathlib.Data.List.Rotate
import Mathlib.Data.List.Induction
import Mathlib.Data.List.Perm.Basic
import Mathlib.Data.Nat.Bits

set_option relaxedAutoImplicit false
set_option autoImplicit false

namespace ClosedPath

variable {α : Type*}

/-- The legs of the walk from `z` through the stops. -/
def legs (z : α) : List α → List (α × α)
  | [] => []
  | a :: l => (z, a) :: legs a l

/-- The legs of the walk round the list, which starts at the last stop. -/
def closed (l : List α) : List (α × α) :=
  match l.getLast? with
  | none => []
  | some z => legs z l

@[simp] theorem legs_nil (z : α) : legs z [] = [] := rfl

@[simp] theorem legs_cons (z a : α) (l : List α) : legs z (a :: l) = (z, a) :: legs a l := rfl

@[simp] theorem closed_nil : closed ([] : List α) = [] := rfl

/-- A walk is cut in two at any of its stops. -/
theorem legs_append_cons (z a : α) (l m : List α) :
    legs z (l ++ a :: m) = legs z (l ++ [a]) ++ legs a m := by
  induction l generalizing z with
  | nil => rfl
  | cons b l ih => simp [ih]

theorem map_snd_legs (z : α) (l : List α) : (legs z l).map Prod.snd = l := by
  induction l generalizing z with
  | nil => rfl
  | cons a l ih => simp [ih]

theorem map_fst_legs (z a : α) (l : List α) : (legs z (l ++ [a])).map Prod.fst = z :: l := by
  induction l generalizing z with
  | nil => rfl
  | cons b l ih => simp [ih]

theorem closed_concat (l : List α) (a : α) : closed (l ++ [a]) = legs a (l ++ [a]) := by
  simp [closed]

/-- The walk may as well start at the first stop. -/
theorem closed_cons_perm (a : α) (l : List α) : (closed (a :: l)).Perm (legs a (l ++ [a])) := by
  induction l using List.reverseRecOn with
  | nil => exact .refl _
  | append_singleton m b _ =>
      rw [← List.cons_append, closed_concat, List.append_assoc]
      have h : legs a (m ++ ([b] ++ [a])) = legs a (m ++ [b]) ++ [(b, a)] :=
        legs_append_cons a b m [a]
      rw [h]
      exact (List.perm_append_comm : ([(b, a)] ++ legs a (m ++ [b])).Perm _)

/-! ### Other ways to write the walk -/

theorem closed_perm_rotate (l : List α) (k : ℕ) : (closed (l.rotate k)).Perm (closed l) := by
  induction k with
  | zero => simp
  | succ k ih =>
      refine .trans ?_ ih
      rw [← List.rotate_rotate]
      cases l.rotate k with
      | nil => simp
      | cons a m =>
          have h : (a :: m).rotate 1 = m ++ [a] := by simp
          rw [h, closed_concat]
          exact (closed_cons_perm a m).symm

/-- **A rotated list is the same walk.** -/
theorem closed_perm_of_isRotated {l m : List α} (h : l ~r m) : (closed l).Perm (closed m) := by
  obtain ⟨k, rfl⟩ := h
  exact (closed_perm_rotate l k).symm

theorem legs_reverse (a b : α) (l : List α) :
    legs b (l.reverse ++ [a]) = ((legs a (l ++ [b])).map Prod.swap).reverse := by
  induction l generalizing a with
  | nil => rfl
  | cons c l ih =>
      rw [List.reverse_cons, List.append_assoc, List.singleton_append, legs_append_cons, ih]
      simp

/-- **Walked backwards, every leg is turned round.** -/
theorem closed_reverse (l : List α) : (closed l.reverse).Perm ((closed l).map Prod.swap) := by
  cases l with
  | nil => exact .refl _
  | cons a l =>
      rw [List.reverse_cons, closed_concat, legs_reverse]
      exact (List.reverse_perm _).trans ((closed_cons_perm a l).symm.map _)

/-- The legs as pairs of a stop and the next one. -/
theorem zip_rotate_perm (l : List α) : (l.zip (l.rotate 1)).Perm (closed l) := by
  have key : ∀ (z a : α) (m : List α), (z :: m).zip (m ++ [a]) = legs z (m ++ [a]) := by
    intro z a m
    induction m generalizing z with
    | nil => rfl
    | cons b m ih => simpa using ih b
  cases l with
  | nil => exact .refl _
  | cons a l =>
      have h : (a :: l).rotate 1 = l ++ [a] := by simp
      rw [h, key]
      exact (closed_cons_perm a l).symm

/-- **A walk cut along the chord between two stops.**  The two parts walk the chord in both
directions. -/
theorem closed_chord (u w : α) (l m : List α) :
    (closed (u :: l ++ [w]) ++ closed (w :: m ++ [u])).Perm
      ((u, w) :: (w, u) :: closed (u :: l ++ w :: m)) := by
  have hl : closed (u :: l ++ [w]) = (w, u) :: legs u (l ++ [w]) := closed_concat (u :: l) w
  have hm : closed (w :: m ++ [u]) = (u, w) :: legs w (m ++ [u]) := closed_concat (w :: m) u
  have hall : (closed (u :: l ++ w :: m)).Perm (legs u (l ++ [w]) ++ legs w (m ++ [u])) := by
    refine (closed_cons_perm u (l ++ w :: m)).trans ?_
    rw [List.append_assoc, List.cons_append, legs_append_cons]
  rw [hl, hm]
  refine List.perm_middle.trans (.cons _ ?_)
  exact .cons _ hall.symm

/-! ### The stops of the walk -/

theorem map_snd_closed (l : List α) : (closed l).map Prod.snd = l := by
  cases h : l.getLast? with
  | none => simp [List.getLast?_eq_none_iff.1 h]
  | some z => simp [closed, h, map_snd_legs]

theorem map_fst_closed_perm (l : List α) : ((closed l).map Prod.fst).Perm l := by
  cases l with
  | nil => exact .refl _
  | cons a l =>
      refine ((closed_cons_perm a l).map _).trans ?_
      rw [map_fst_legs]

theorem snd_mem_of_mem_closed {l : List α} {e : α × α} (h : e ∈ closed l) : e.2 ∈ l := by
  have := List.mem_map_of_mem (f := Prod.snd) h
  rwa [map_snd_closed] at this

theorem fst_mem_of_mem_closed {l : List α} {e : α × α} (h : e ∈ closed l) : e.1 ∈ l :=
  (map_fst_closed_perm l).subset (List.mem_map_of_mem h)

/-- Every stop is reached by a leg. -/
theorem exists_leg_to {l : List α} {b : α} (h : b ∈ l) : ∃ a, (a, b) ∈ closed l := by
  rw [← map_snd_closed l] at h
  obtain ⟨⟨a, _⟩, he, rfl⟩ := List.mem_map.1 h
  exact ⟨a, he⟩

theorem exists_eq_append_of_mem_legs {z a b : α} {l : List α} (h : (a, b) ∈ legs z l) :
    ∃ s t, z :: l = s ++ a :: b :: t := by
  induction l generalizing z with
  | nil => cases h
  | cons c l ih =>
      rcases List.mem_cons.1 h with h | h
      · cases h
        exact ⟨[], l, rfl⟩
      · obtain ⟨s, t, hst⟩ := ih h
        exact ⟨z :: s, t, by rw [hst]; rfl⟩

/-- **Every leg is the first one of some rotation.** -/
theorem exists_isRotated_of_mem {l : List α} {a b : α} (h : (a, b) ∈ closed l)
    (hl : 2 ≤ l.length) : ∃ m, l ~r a :: b :: m := by
  induction l using List.reverseRecOn with
  | nil => cases h
  | append_singleton l z _ =>
      rw [closed_concat] at h
      obtain ⟨s, t, hst⟩ := exists_eq_append_of_mem_legs h
      cases s with
      | nil =>
          -- the leg that closes the walk
          obtain ⟨rfl, hbt⟩ := List.cons.inj hst
          cases l with
          | nil => simp at hl
          | cons c l =>
              obtain ⟨rfl, -⟩ := List.cons.inj hbt
              have hrot : c :: l ++ [z] ~r [z] ++ c :: l := List.isRotated_append
              exact ⟨l, hrot⟩
      | cons c s =>
          obtain ⟨-, hl⟩ := List.cons.inj hst
          rw [hl]
          exact ⟨t ++ s, List.isRotated_append⟩

/-! ### Entering and leaving -/

/-- Along a walk a property of stops is entered as often as it is left, up to where the walk starts
and ends. -/
theorem countP_enter_add (p : α → Bool) (z a : α) (l : List α) :
    (legs z (l ++ [a])).countP (fun e => !p e.1 && p e.2) + (p z).toNat =
      (legs z (l ++ [a])).countP (fun e => p e.1 && !p e.2) + (p a).toNat := by
  induction l generalizing z with
  | nil => cases hz : p z <;> cases ha : p a <;> simp [hz, ha]
  | cons b l ih =>
      have := ih b
      rw [List.cons_append, legs_cons, List.countP_cons, List.countP_cons]
      cases hz : p z <;> cases hb : p b <;> simp [hb] at this ⊢ <;> omega

/-- **Round the list a property of stops is entered as often as it is left.** -/
theorem countP_enter_eq_leave (p : α → Bool) (l : List α) :
    (closed l).countP (fun e => !p e.1 && p e.2) =
      (closed l).countP (fun e => p e.1 && !p e.2) := by
  cases l with
  | nil => rfl
  | cons a l =>
      rw [(closed_cons_perm a l).countP_eq, (closed_cons_perm a l).countP_eq]
      exact Nat.add_right_cancel (countP_enter_add p a a l)

/-- A leg that changes the property enters or leaves it. -/
theorem countP_change (p : α → Bool) (l : List (α × α)) :
    l.countP (fun e => p e.2 != p e.1) =
      l.countP (fun e => !p e.1 && p e.2) + l.countP (fun e => p e.1 && !p e.2) := by
  induction l with
  | nil => rfl
  | cons e l ih =>
      rw [List.countP_cons, List.countP_cons, List.countP_cons, ih]
      cases p e.1 <;> cases p e.2 <;> simp <;> omega

/-- **Round the list a property of stops changes an even number of times.** -/
theorem countP_change_closed (p : α → Bool) (l : List α) :
    (closed l).countP (fun e => p e.2 != p e.1) =
      2 * (closed l).countP (fun e => p e.1 && !p e.2) := by
  rw [countP_change, countP_enter_eq_leave, Nat.two_mul]

theorem eq_of_mem_legs {p : α → Bool} {z : α} {l : List α}
    (h : ∀ e ∈ legs z l, p e.1 = p e.2) : ∀ v ∈ l, p v = p z := by
  induction l generalizing z with
  | nil => intro v hv; cases hv
  | cons a l ih =>
      have ha : p z = p a := h (z, a) List.mem_cons_self
      intro v hv
      rcases List.mem_cons.1 hv with rfl | hv
      · exact ha.symm
      · exact (ih (fun e he => h e (List.mem_cons_of_mem _ he)) v hv).trans ha.symm

/-- **A property that some stops have and some have not is entered.** -/
theorem countP_enter_pos {p : α → Bool} {l : List α} (htrue : ∃ v ∈ l, p v = true)
    (hfalse : ∃ v ∈ l, p v = false) :
    0 < (closed l).countP (fun e => !p e.1 && p e.2) := by
  by_contra h
  have hleave := countP_enter_eq_leave p l
  rw [Nat.eq_zero_of_not_pos h] at hleave
  have hsame : ∀ e ∈ closed l, p e.1 = p e.2 := by
    intro e he
    have h1 := List.countP_eq_zero.1 (Nat.eq_zero_of_not_pos h) e he
    have h2 := List.countP_eq_zero.1 hleave.symm e he
    revert h1 h2
    cases p e.1 <;> cases p e.2 <;> simp
  obtain ⟨v, hv, hpv⟩ := htrue
  obtain ⟨w, hw, hpw⟩ := hfalse
  rw [closed] at hsame
  cases hz : l.getLast? with
  | none => rw [List.getLast?_eq_none_iff.1 hz] at hv; cases hv
  | some z =>
      rw [hz] at hsame
      have heq := (eq_of_mem_legs hsame v hv).trans (eq_of_mem_legs hsame w hw).symm
      rw [hpv, hpw] at heq
      cases heq

end ClosedPath
