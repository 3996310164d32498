/-
**Adapter ids.**

The id of an adapter is the last path segment of its image reference with the colon between name and
tag replaced by a hyphen.  A hyphen may stand in a name and in a tag as well, so that an id does not
tell where the name ends: `park-a:1` and `park:a-1` have the same id.

Two references are confused exactly if one name goes on, after the other, with a hyphen and a piece
with which the other's tag begins.

Main definitions:

* `UpdateService.lastSegment`, `UpdateService.Names` — the name and the tag in a reference;
* `UpdateService.OciLegal` — the texts that may be names and tags;
* `UpdateService.Straddles` — a hyphen of one name stands where the other reference has its colon.

Main results:

* `List.append_cons_eq_append_cons_iff` — two ways to cut a list at a separator;
* `UpdateService.deriveAdapterId_identifies_iff` — when ids tell two references apart;
* `UpdateService.hyphen_confuses_ids` — two references with one id.
-/

import ParkingFeeService.UpdateState

set_option relaxedAutoImplicit false
set_option autoImplicit false

/-- Two pairs of lists joined by a separator are the same list exactly if they are the same pairs,
or one first list goes on after the other with the separator and a piece that begins the other's
second list. -/
theorem List.append_cons_eq_append_cons_iff {α : Type*} {sep : α} {as bs cs ds : List α} :
    as ++ sep :: bs = cs ++ sep :: ds ↔
      (as = cs ∧ bs = ds) ∨ (∃ ms, as = cs ++ sep :: ms ∧ ds = ms ++ sep :: bs) ∨
        ∃ ms, cs = as ++ sep :: ms ∧ bs = ms ++ sep :: ds := by
  constructor
  · intro h
    rcases List.append_eq_append_iff.1 h with ⟨ms, hcs, hbs⟩ | ⟨ms, has, hds⟩
    · cases ms with
      | nil => simp_all
      | cons m ms =>
          obtain ⟨rfl, rfl⟩ := List.cons.inj hbs
          exact .inr (.inr ⟨ms, hcs, rfl⟩)
    · cases ms with
      | nil => simp_all
      | cons m ms =>
          obtain ⟨rfl, rfl⟩ := List.cons.inj hds
          exact .inr (.inl ⟨ms, has, rfl⟩)
  · rintro (⟨rfl, rfl⟩ | ⟨ms, rfl, rfl⟩ | ⟨ms, rfl, rfl⟩)
    · rfl
    · simp
    · simp

namespace UpdateService

/-! ### References -/

/-- The last path segment of an image reference. -/
def lastSegment (imageRef : String) : List Char :=
  (imageRef.toList.reverse.takeWhile (· ≠ '/')).reverse

/-- The last path segment of the reference is `name:tag`. -/
def Names (imageRef name tag : String) : Prop := lastSegment imageRef = (name ++ ":" ++ tag).toList

/-- The characters of names and tags. -/
def OciLegal (s : String) : Prop := ∀ c ∈ s.toList, c.isAlphanum = true ∨ c ∈ ['.', '_', '-']

instance (imageRef name tag : String) : Decidable (Names imageRef name tag) :=
  inferInstanceAs (Decidable (_ = _))

instance (s : String) : Decidable (OciLegal s) := List.decidableBAll _ s.toList

theorem OciLegal.colon_notMem {s : String} (h : OciLegal s) : ':' ∉ s.toList := by
  intro hc
  have := h ':' hc
  revert this
  decide

/-- The first name goes on after the second with a hyphen and a piece with which, before another
hyphen, the second tag begins. -/
def Straddles (name₁ tag₁ name₂ tag₂ : String) : Prop :=
  ∃ piece, name₁ = name₂ ++ "-" ++ piece ∧ tag₂ = piece ++ "-" ++ tag₁

theorem Straddles.ne {name₁ tag₁ name₂ tag₂ : String} (h : Straddles name₁ tag₁ name₂ tag₂) :
    name₁ ≠ name₂ := by
  obtain ⟨piece, rfl, -⟩ := h
  intro heq
  have hlen := congrArg String.length heq
  simp only [String.length_append] at hlen
  have hhyphen : "-".length = 1 := rfl
  omega

/-! ### Ids -/

theorem map_hyphen_of_colon_notMem {cs : List Char} (h : ':' ∉ cs) :
    cs.map (fun c => if c = ':' then '-' else c) = cs := by
  refine (List.map_congr_left fun c hc => ?_).trans (List.map_id cs)
  rw [if_neg]
  · rfl
  · rintro rfl
    exact h hc

/-- The id of a reference: its name and its tag joined by a hyphen. -/
theorem deriveAdapterId_of_names {imageRef name tag : String} (h : Names imageRef name tag)
    (hname : OciLegal name) (htag : OciLegal tag) :
    deriveAdapterId imageRef = name ++ "-" ++ tag := by
  have hsplit : lastSegment imageRef = name.toList ++ ':' :: tag.toList := by
    rw [h, String.toList_append, String.toList_append, List.append_assoc]
    rfl
  have hid : deriveAdapterId imageRef =
      String.ofList ((lastSegment imageRef).map fun c => if c = ':' then '-' else c) := rfl
  rw [hid, hsplit, List.map_append, List.map_cons, if_pos rfl,
    map_hyphen_of_colon_notMem hname.colon_notMem, map_hyphen_of_colon_notMem htag.colon_notMem]
  simp [String.ext_iff]

/-- Two pairs of name and tag with one id: they are equal, or one name straddles the other's
colon. -/
theorem hyphenated_eq_iff {name₁ tag₁ name₂ tag₂ : String} :
    name₁ ++ "-" ++ tag₁ = name₂ ++ "-" ++ tag₂ ↔
      (name₁ = name₂ ∧ tag₁ = tag₂) ∨ Straddles name₁ tag₁ name₂ tag₂ ∨
        Straddles name₂ tag₂ name₁ tag₁ := by
  have hpieces : ∀ n t n' t' : String, Straddles n t n' t' ↔ ∃ ms : List Char,
      n.toList = n'.toList ++ '-' :: ms ∧ t'.toList = ms ++ '-' :: t.toList := by
    intro n t n' t'
    constructor
    · rintro ⟨piece, rfl, rfl⟩
      exact ⟨piece.toList, by simp, by simp⟩
    · rintro ⟨ms, hn, ht⟩
      exact ⟨String.ofList ms, String.ext (by simp [hn]), String.ext (by simp [ht])⟩
  rw [hpieces, hpieces, String.ext_iff, @String.ext_iff name₁, @String.ext_iff tag₁]
  have hcut := @List.append_cons_eq_append_cons_iff Char '-' name₁.toList tag₁.toList
    name₂.toList tag₂.toList
  simpa using hcut

/-- **Ids tell two references apart** exactly if neither name straddles the other's colon. -/
theorem deriveAdapterId_identifies_iff {imageRef₁ imageRef₂ name₁ tag₁ name₂ tag₂ : String}
    (h₁ : Names imageRef₁ name₁ tag₁) (h₂ : Names imageRef₂ name₂ tag₂)
    (hname₁ : OciLegal name₁) (htag₁ : OciLegal tag₁) (hname₂ : OciLegal name₂)
    (htag₂ : OciLegal tag₂) :
    (deriveAdapterId imageRef₁ = deriveAdapterId imageRef₂ ↔ name₁ = name₂ ∧ tag₁ = tag₂) ↔
      ¬ Straddles name₁ tag₁ name₂ tag₂ ∧ ¬ Straddles name₂ tag₂ name₁ tag₁ := by
  rw [deriveAdapterId_of_names h₁ hname₁ htag₁, deriveAdapterId_of_names h₂ hname₂ htag₂,
    hyphenated_eq_iff]
  constructor
  · intro hiff
    exact ⟨fun h => h.ne (hiff.1 (.inr (.inl h))).1,
      fun h => h.ne (hiff.1 (.inr (.inr h))).1.symm⟩
  · rintro ⟨hnot, hnot'⟩
    constructor
    · rintro (heq | h | h)
      · exact heq
      · exact absurd h hnot
      · exact absurd h hnot'
    · exact .inl

/-- Different tags of one name are told apart. -/
theorem deriveAdapterId_identifies_parkhaus :
    (deriveAdapterId "registry/adapters/parkhaus:v1" = deriveAdapterId "registry/parkhaus:v2" ↔
        "parkhaus" = "parkhaus" ∧ "v1" = "v2") ↔
      ¬ Straddles "parkhaus" "v1" "parkhaus" "v2" ∧ ¬ Straddles "parkhaus" "v2" "parkhaus" "v1" :=
  deriveAdapterId_identifies_iff (by decide) (by decide) (by decide) (by decide) (by decide)
    (by decide)

/-- **Two references with one id**: `park-a:1` and `park:a-1`. -/
theorem hyphen_confuses_ids :
    ¬ ∀ imageRef₁ imageRef₂ name₁ tag₁ name₂ tag₂ : String,
      Names imageRef₁ name₁ tag₁ → Names imageRef₂ name₂ tag₂ → OciLegal name₁ → OciLegal tag₁ →
        OciLegal name₂ → OciLegal tag₂ →
          (deriveAdapterId imageRef₁ = deriveAdapterId imageRef₂ ↔
            name₁ = name₂ ∧ tag₁ = tag₂) := by
  intro hall
  have hiff := hall "registry/park-a:1" "registry/park:a-1" "park-a" "1" "park" "a-1" (by decide)
    (by decide) (by decide) (by decide) (by decide) (by decide)
  exact absurd (hiff.1 (by decide)).1 (by decide)

end UpdateService
