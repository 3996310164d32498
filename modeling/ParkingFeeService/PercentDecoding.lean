/-
**Percent-decoding.**

Text is a list of characters that stand for bytes; `%` followed by two hexadecimal digits stands for
one of them, and every other character for itself.  A separator that is neither `%` nor a digit
divides a text as it divides what the text stands for, except that an escape may put further
separators into a part.

Main definitions:

* `PercentDecoding.unhex`, `PercentDecoding.decodePair` — an escape;
* `PercentDecoding.unescape` — the text decoded, if all its escapes are well formed;
* `PercentDecoding.Escaped` — a character is written as an escape.

Main results:

* `PercentDecoding.unescape_append_sep` — decoding goes part by part;
* `PercentDecoding.mem_unescape_iff` — a separator in the text decoded is there or escaped.
-/

import Mathlib.Data.List.Basic
import Mathlib.Tactic.Common

set_option relaxedAutoImplicit false
set_option autoImplicit false

namespace PercentDecoding

/-- The value of a hexadecimal digit. -/
def unhex (c : Char) : Option ℕ :=
  if '0' ≤ c ∧ c ≤ '9' then some (c.toNat - 48)
  else if 'a' ≤ c ∧ c ≤ 'f' then some (c.toNat - 87)
  else if 'A' ≤ c ∧ c ≤ 'F' then some (c.toNat - 55)
  else none

theorem unhex_eq_some_iff {c : Char} {n : ℕ} :
    unhex c = some n ↔ n < 16 ∧
      (n < 10 ∧ c.toNat = n + 48 ∨ 10 ≤ n ∧ (c.toNat = n + 87 ∨ c.toNat = n + 55)) := by
  have hle : ∀ a b : Char, a ≤ b ↔ a.toNat ≤ b.toNat := fun a b => by
    rw [Char.le_def, UInt32.le_iff_toNat_le, Char.toNat_val, Char.toNat_val]
  simp only [unhex, hle]
  rw [show '0'.toNat = 48 from rfl, show '9'.toNat = 57 from rfl, show 'a'.toNat = 97 from rfl,
    show 'f'.toNat = 102 from rfl, show 'A'.toNat = 65 from rfl, show 'F'.toNat = 70 from rfl]
  split
  · simp only [Option.some.injEq]
    omega
  · split
    · simp only [Option.some.injEq]
      omega
    · split
      · simp only [Option.some.injEq]
        omega
      · simp only [reduceCtorEq, false_iff]
        omega

/-- What the escape with two digits stands for. -/
def decodePair (a b : Char) : Option Char :=
  (unhex a).bind fun x => (unhex b).map fun y => Char.ofNat (16 * x + y)

/-- The text decoded, if all its escapes are well formed. -/
def unescape : List Char → Option (List Char)
  | [] => some []
  | c :: cs =>
      if c = '%' then
        match cs with
        | a :: b :: rest => (decodePair a b).bind fun d => (unescape rest).map (d :: ·)
        | _ => none
      else (unescape cs).map (c :: ·)

@[simp] theorem unescape_nil : unescape [] = some [] := rfl

theorem unescape_escape (a b : Char) (rest : List Char) :
    unescape ('%' :: a :: b :: rest) =
      (decodePair a b).bind fun d => (unescape rest).map (d :: ·) := by
  rw [unescape, if_pos rfl]

theorem unescape_cons_of_ne {c : Char} (h : c ≠ '%') (cs : List Char) :
    unescape (c :: cs) = (unescape cs).map (c :: ·) := by
  rw [unescape.eq_def]
  exact if_neg h

theorem unescape_cut_short {cs : List Char} (h : ∀ a b rest, cs = a :: b :: rest → False) :
    unescape ('%' :: cs) = none := by
  match cs, h with
  | [], _ => rfl
  | [a], _ => rfl
  | a :: b :: rest, h => exact (h a b rest rfl).elim

/-- The cases of a text that can be decoded. -/
theorem unescape_cases {motive : List Char → List Char → Prop} {cs ds : List Char}
    (h : unescape cs = some ds) (nil : motive [] [])
    (escape : ∀ a b d rest ds, decodePair a b = some d → unescape rest = some ds →
      motive rest ds → motive ('%' :: a :: b :: rest) (d :: ds))
    (plain : ∀ c cs ds, c ≠ '%' → unescape cs = some ds → motive cs ds →
      motive (c :: cs) (c :: ds)) : motive cs ds := by
  induction cs using unescape.induct generalizing ds with
  | case1 =>
      cases h
      exact nil
  | case2 a b rest ih =>
      rw [unescape_escape] at h
      obtain ⟨d, hd, h⟩ := Option.bind_eq_some_iff.1 h
      obtain ⟨ds', hds, rfl⟩ := Option.map_eq_some_iff.1 h
      exact escape a b d rest ds' hd hds (ih hds)
  | case3 cs hshort =>
      rw [unescape_cut_short hshort] at h
      cases h
  | case4 c cs hc ih =>
      rw [unescape_cons_of_ne hc] at h
      obtain ⟨ds', hds, rfl⟩ := Option.map_eq_some_iff.1 h
      exact plain c cs ds' hc hds (ih hds)

/-! ### Escapes in a text -/

/-- Some escape in the text stands for the character. -/
def Escaped (d : Char) (cs : List Char) : Prop :=
  ∃ a b, decodePair a b = some d ∧ ['%', a, b] <:+: cs

theorem escaped_cons_of_ne {c : Char} (h : c ≠ '%') (d : Char) (cs : List Char) :
    Escaped d (c :: cs) ↔ Escaped d cs := by
  refine exists_congr fun a => exists_congr fun b => and_congr_right fun _ => ?_
  rw [List.infix_cons_iff]
  refine or_iff_right fun hpre => ?_
  exact h (List.cons_prefix_cons.1 hpre).1.symm

theorem isSome_unhex_of_decodePair {a b d : Char} (h : decodePair a b = some d) :
    (unhex a).isSome ∧ (unhex b).isSome := by
  obtain ⟨x, hx, h⟩ := Option.bind_eq_some_iff.1 h
  obtain ⟨y, hy, -⟩ := Option.map_eq_some_iff.1 h
  simp [hx, hy]

theorem ne_of_isSome_unhex {a c : Char} (ha : (unhex a).isSome) (hc : unhex c = none) : a ≠ c := by
  rintro rfl
  simp [hc] at ha

/-- The first escape of a text, and those that follow. -/
theorem escaped_escape_iff {a b d : Char} (hd : decodePair a b = some d) (d' : Char)
    (rest : List Char) : Escaped d' ('%' :: a :: b :: rest) ↔ d = d' ∨ Escaped d' rest := by
  obtain ⟨ha, hb⟩ := isSome_unhex_of_decodePair hd
  have hpercent : unhex '%' = none := by decide
  have hrest : Escaped d' (a :: b :: rest) ↔ Escaped d' rest := by
    rw [escaped_cons_of_ne (ne_of_isSome_unhex ha hpercent),
      escaped_cons_of_ne (ne_of_isSome_unhex hb hpercent)]
  rw [← hrest]
  constructor
  · rintro ⟨a', b', hd', hin⟩
    rcases List.infix_cons_iff.1 hin with hpre | hin
    · obtain ⟨-, hdigits⟩ := List.cons_prefix_cons.1 hpre
      obtain ⟨rfl, hdigit⟩ := List.cons_prefix_cons.1 hdigits
      obtain ⟨rfl, -⟩ := List.cons_prefix_cons.1 hdigit
      exact .inl (Option.some.inj (hd.symm.trans hd'))
    · exact .inr ⟨a', b', hd', hin⟩
  · rintro (rfl | ⟨a', b', hd', hin⟩)
    · exact ⟨a, b, hd, ⟨[], rest, rfl⟩⟩
    · exact ⟨a', b', hd', List.infix_cons_iff.2 (.inr hin)⟩

/-! ### Separators -/

section Separator

variable {sep : Char} (hsep : sep ≠ '%') (hex : unhex sep = none)
include hsep hex

/-- A text divided by a separator is decoded part by part. -/
theorem unescape_append_sep (xs ys : List Char) :
    unescape (xs ++ sep :: ys) =
      (unescape xs).bind fun x => (unescape ys).map fun y => x ++ sep :: y := by
  induction xs using unescape.induct with
  | case1 =>
      rw [List.nil_append, unescape_cons_of_ne hsep]
      rfl
  | case2 a b rest ih =>
      rw [List.cons_append, List.cons_append, List.cons_append, unescape_escape, unescape_escape,
        ih]
      cases decodePair a b with
      | none => rfl
      | some d =>
          simp only [Option.bind_some, Option.bind_map, Option.map_bind]
          refine Option.bind_congr fun x _ => ?_
          simp [Function.comp_def]
  | case3 cs hshort =>
      -- the separator is no digit, so the escape cut short by it is not well formed
      rw [unescape_cut_short hshort]
      match cs, hshort with
      | [], _ =>
          cases ys with
          | nil => rfl
          | cons b ys =>
              rw [List.cons_append, List.nil_append, unescape_escape, decodePair, hex]
              rfl
      | [a], _ =>
          rw [List.cons_append, List.cons_append, List.nil_append, unescape_escape, decodePair, hex]
          cases unhex a <;> rfl
      | a :: b :: rest, hshort => exact (hshort a b rest rfl).elim
  | case4 c cs hc ih =>
      rw [List.cons_append, unescape_cons_of_ne hc, unescape_cons_of_ne hc, ih]
      simp only [Option.bind_map, Option.map_bind]
      refine Option.bind_congr fun x _ => ?_
      simp [Function.comp_def]

/-- A separator of the text decoded is in the text, or an escape stands for it. -/
theorem mem_unescape_iff {cs ds : List Char} (h : unescape cs = some ds) :
    sep ∈ ds ↔ sep ∈ cs ∨ Escaped sep cs := by
  refine unescape_cases (motive := fun cs ds => sep ∈ ds ↔ sep ∈ cs ∨ Escaped sep cs) h ?_ ?_ ?_
  · simp [Escaped]
  · intro a b d rest ds hd _ ih
    obtain ⟨ha, hb⟩ := isSome_unhex_of_decodePair hd
    have hne : sep ≠ a ∧ sep ≠ b :=
      ⟨(ne_of_isSome_unhex ha hex).symm, (ne_of_isSome_unhex hb hex).symm⟩
    rw [escaped_escape_iff hd, List.mem_cons, ih, eq_comm (a := sep)]
    simp only [List.mem_cons, hsep, hne, false_or]
    exact or_left_comm
  · intro c cs ds hc _ ih
    rw [escaped_cons_of_ne hc, List.mem_cons, List.mem_cons, ih, or_assoc]

end Separator

end PercentDecoding
