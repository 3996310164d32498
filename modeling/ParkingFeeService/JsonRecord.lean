/-
**Records read from JSON objects.**

A typed reading of an object visits the fields in the order in which they were written and keeps,
for every field of the record, what it has read so far.  A field that is visited a second time, or
whose value does not have its type, ends the reading.  So the fields of the record can be looked at
one by one: a reading succeeds exactly if it does for each of them, and whether it does for one
depends on the occurrences of its name alone.

Main definitions:

* `Json.occurrences` — the values under a name, in order;
* `Json.Visits` — what visiting all fields does to one field of the record;
* `Json.Once`, `Json.AtMostOnce` — the field can be read, as one that is required or optional.

Main results:

* `Json.get_eq_getLast?` — the generic reading of an object takes the last occurrence;
* `Json.visits_cons_of_ne`, `Json.visits_cons_self` — one more field is visited;
* `Json.visits_some_iff`, `Json.exists_visits_iff` — a required and an optional field of a fresh
  record;
* `Except.foldlM_eq_ok_iff` — the rule for readings: what a reading does is what it does to one
  field and then to the others;
* `Except.foldlM_eq_error_iff` — a reading fails at the first field that cannot be visited.
-/

import ParkingFeeService.Json

set_option relaxedAutoImplicit false
set_option autoImplicit false

namespace Except

theorem bind_eq_ok_iff {ε α β : Type} {x : Except ε α} {f : α → Except ε β} {b : β} :
    (x >>= f) = .ok b ↔ ∃ a, x = .ok a ∧ f a = .ok b := by
  cases x with
  | error e => exact iff_of_false (by rintro ⟨⟩) (by rintro ⟨a, ⟨⟩, -⟩)
  | ok a => exact ⟨fun h => ⟨a, rfl, h⟩, by rintro ⟨a', ⟨⟩, h⟩; exact h⟩

theorem bind_eq_error_iff {ε α β : Type} {x : Except ε α} {f : α → Except ε β} {e : ε} :
    (x >>= f) = .error e ↔ x = .error e ∨ ∃ a, x = .ok a ∧ f a = .error e := by
  cases x with
  | error e' =>
      constructor
      · exact fun h => .inl (congrArg Except.error (Except.error.inj h))
      · rintro (h | ⟨a, ⟨⟩, -⟩)
        exact congrArg Except.error (Except.error.inj h)
  | ok a =>
      constructor
      · exact fun h => .inr ⟨a, rfl, h⟩
      · rintro (h | ⟨a', ha, h⟩)
        · cases h
        · cases ha
          exact h

/-- A fold fails at the first element that cannot be taken. -/
theorem foldlM_eq_error_iff {ε σ β : Type} {step : σ → β → Except ε σ} {e : ε} {bs : List β} :
    ∀ {s : σ}, bs.foldlM step s = .error e ↔
      ∃ before b after s₁, bs = before ++ b :: after ∧ before.foldlM step s = .ok s₁ ∧
        step s₁ b = .error e := by
  induction bs with
  | nil =>
      intro s
      refine iff_of_false (by rintro ⟨⟩) ?_
      rintro ⟨before, b, after, s₁, hbs, -, -⟩
      simp at hbs
  | cons b bs ih =>
      intro s
      rw [List.foldlM_cons, bind_eq_error_iff]
      constructor
      · rintro (h | ⟨s₁, hs₁, h⟩)
        · exact ⟨[], b, bs, s, rfl, rfl, h⟩
        · obtain ⟨before, b', after, s₂, rfl, hbefore, h⟩ := ih.1 h
          exact ⟨b :: before, b', after, s₂, rfl, bind_eq_ok_iff.2 ⟨s₁, hs₁, hbefore⟩, h⟩
      · rintro ⟨before, b', after, s₂, hbs, hbefore, h⟩
        cases before with
        | nil =>
            obtain ⟨rfl, rfl⟩ := List.cons.inj hbs
            cases hbefore
            exact .inl h
        | cons c before =>
            obtain ⟨rfl, rfl⟩ := List.cons.inj hbs
            obtain ⟨s₁, hs₁, hrest⟩ := bind_eq_ok_iff.1 hbefore
            exact .inr ⟨s₁, hs₁, ih.2 ⟨before, b', after, s₂, rfl, hrest, h⟩⟩

/-- A relation that does nothing on no elements, and one element after the other, is that of the
fold. -/
theorem foldlM_eq_ok_iff {ε σ β : Type} {step : σ → β → Except ε σ}
    {R : σ → List β → σ → Prop} (hnil : ∀ s s', R s [] s' ↔ s' = s)
    (hcons : ∀ s b bs s', R s (b :: bs) s' ↔ ∃ s₁, step s b = .ok s₁ ∧ R s₁ bs s') {bs : List β} :
    ∀ {s s' : σ}, bs.foldlM step s = .ok s' ↔ R s bs s' := by
  induction bs with
  | nil =>
      intro s s'
      rw [hnil]
      exact ⟨fun h => (Except.ok.inj h).symm, fun h => congrArg Except.ok h.symm⟩
  | cons b bs ih =>
      intro s s'
      rw [List.foldlM_cons, bind_eq_ok_iff, hcons]
      exact exists_congr fun s₁ => and_congr_right fun _ => ih

end Except

namespace Json

variable {α : Type*}

/-- The values under a name, in the order in which they occur. -/
def occurrences (name : String) (fields : List (String × Json)) : List Json :=
  (fields.filter fun field => field.1 = name).map Prod.snd

@[simp] theorem occurrences_nil (name : String) : occurrences name [] = [] := rfl

theorem occurrences_cons_of_ne {name name' : String} (h : name' ≠ name) (value : Json)
    (fields : List (String × Json)) :
    occurrences name ((name', value) :: fields) = occurrences name fields := by
  rw [occurrences, List.filter_cons_of_neg (by simpa using h), occurrences]

@[simp] theorem occurrences_cons_self (name : String) (value : Json)
    (fields : List (String × Json)) :
    occurrences name ((name, value) :: fields) = value :: occurrences name fields := by
  rw [occurrences, List.filter_cons_of_pos (by simp), List.map_cons, occurrences]

theorem occurrences_append (name : String) (fields fields' : List (String × Json)) :
    occurrences name (fields ++ fields') =
      occurrences name fields ++ occurrences name fields' := by
  rw [occurrences, List.filter_append, List.map_append, occurrences, occurrences]

/-- The generic reading of an object takes the last occurrence of a name. -/
theorem get_eq_getLast? (fields : List (String × Json)) (name : String) :
    get fields name = (occurrences name fields).getLast? := by
  rw [get, occurrences, ← List.head?_filter, List.filter_reverse, List.head?_reverse,
    List.getLast?_map]

/-- Visiting all fields takes the record's field `name` from `old` to `new`: either it does not
occur, or nothing has been read for it yet and it occurs once, with a value that can be read. -/
def Visits (name : String) (read : Json → Option α) (old : Option α)
    (fields : List (String × Json)) (new : Option α) : Prop :=
  (occurrences name fields = [] ∧ new = old) ∨
    (old = none ∧ ∃ value a, occurrences name fields = [value] ∧ read value = some a ∧
      new = some a)

/-- The name occurs once, with a value that can be read. -/
def Once (name : String) (read : Json → Option α) (fields : List (String × Json)) : Prop :=
  ∃ value, occurrences name fields = [value] ∧ (read value).isSome = true

/-- The name occurs at most once, and if it does, with a value that can be read. -/
def AtMostOnce (name : String) (read : Json → Option α) (fields : List (String × Json)) : Prop :=
  occurrences name fields = [] ∨ Once name read fields

section Visits

variable {name : String} {read : Json → Option α} {old new : Option α}
  {fields : List (String × Json)}

@[simp] theorem visits_nil : Visits name read old [] new ↔ new = old := by
  simp [Visits]

/-- A field of another name is visited. -/
theorem visits_cons_of_ne {name' : String} {value : Json} (h : name' ≠ name) :
    Visits name read old ((name', value) :: fields) new ↔ Visits name read old fields new := by
  rw [Visits, occurrences_cons_of_ne h, Visits]

/-- The field is visited. -/
theorem visits_cons_self {value : Json} :
    Visits name read old ((name, value) :: fields) new ↔
      old = none ∧ ∃ a, read value = some a ∧ Visits name read (some a) fields new := by
  rw [Visits, occurrences_cons_self]
  constructor
  · rintro (⟨hocc, -⟩ | ⟨hold, v, a, hocc, hread, hnew⟩)
    · cases hocc
    · obtain ⟨rfl, hrest⟩ := List.cons.inj hocc
      exact ⟨hold, a, hread, .inl ⟨hrest, hnew⟩⟩
  · rintro ⟨hold, a, hread, ⟨hrest, hnew⟩ | ⟨habsurd, -⟩⟩
    · exact .inr ⟨hold, value, a, by rw [hrest], hread, hnew⟩
    · cases habsurd

/-- From a fresh record the field is missing, or is read from its only occurrence. -/
theorem visits_none_iff :
    Visits name read none fields new ↔
      (occurrences name fields = [] ∧ new = none) ∨
        ∃ value a, occurrences name fields = [value] ∧ read value = some a ∧ new = some a := by
  simp [Visits]

/-- A field that is required is read from its only occurrence. -/
theorem visits_some_iff {a : α} :
    Visits name read none fields (some a) ↔
      ∃ value, occurrences name fields = [value] ∧ read value = some a := by
  rw [visits_none_iff]
  constructor
  · rintro (⟨-, habsurd⟩ | ⟨value, a', hocc, hread, ha⟩)
    · cases habsurd
    · exact ⟨value, hocc, ha ▸ hread⟩
  · rintro ⟨value, hocc, hread⟩
    exact .inr ⟨value, a, hocc, hread, rfl⟩

theorem exists_visits_some_iff :
    (∃ a, Visits name read none fields (some a)) ↔ Once name read fields := by
  simp only [visits_some_iff, Once, Option.isSome_iff_exists]
  constructor
  · rintro ⟨a, value, hocc, hread⟩
    exact ⟨value, hocc, a, hread⟩
  · rintro ⟨value, hocc, a, hread⟩
    exact ⟨a, value, hocc, hread⟩

/-- A field that is optional is read from its only occurrence, if it occurs. -/
theorem exists_visits_iff :
    (∃ new, Visits name read none fields new) ↔ AtMostOnce name read fields := by
  rw [AtMostOnce, ← exists_visits_some_iff]
  constructor
  · rintro ⟨new, h⟩
    rcases visits_none_iff.1 h with ⟨hocc, -⟩ | ⟨value, a, -, -, rfl⟩
    · exact .inl hocc
    · exact .inr ⟨a, h⟩
  · rintro (hocc | ⟨a, h⟩)
    · exact ⟨none, .inl ⟨hocc, rfl⟩⟩
    · exact ⟨some a, h⟩

/-- A field that the generic reading finds is there once exactly if it is not repeated. -/
theorem once_iff_of_get {v : Json} (h : get fields name = some v) :
    Once name read fields ↔ (occurrences name fields).length ≤ 1 ∧ (read v).isSome = true := by
  rw [get_eq_getLast?] at h
  rw [Once]
  match hocc : occurrences name fields with
  | [] => simp [hocc] at h
  | [w] =>
      obtain rfl : w = v := by simpa [hocc] using h
      simp
  | w :: w' :: ws => simp

/-- The generic reading finds a name that occurs once. -/
theorem get_of_occurrences {v : Json} (h : occurrences name fields = [v]) :
    get fields name = some v := by
  rw [get_eq_getLast?, h, List.getLast?_singleton]

/-- A required field, by what the generic reading finds. -/
theorem once_iff :
    Once name read fields ↔
      (occurrences name fields).length ≤ 1 ∧ ∃ v, get fields name = some v ∧ (read v).isSome := by
  constructor
  · intro h
    obtain ⟨v, hocc, hread⟩ := h
    exact ⟨by simp [hocc], v, get_of_occurrences hocc, hread⟩
  · rintro ⟨hlen, v, hv, hread⟩
    exact (once_iff_of_get hv).2 ⟨hlen, hread⟩

/-- An optional field, by what the generic reading finds. -/
theorem atMostOnce_iff :
    AtMostOnce name read fields ↔
      (occurrences name fields).length ≤ 1 ∧
        ∀ v, get fields name = some v → (read v).isSome := by
  rw [AtMostOnce, once_iff]
  cases h : get fields name with
  | none =>
      have hnil : occurrences name fields = [] := by
        rwa [get_eq_getLast?, List.getLast?_eq_none_iff] at h
      simp [hnil]
  | some v =>
      have hne : occurrences name fields ≠ [] := by
        intro hnil
        rw [get_eq_getLast?, hnil] at h
        cases h
      simp [hne]

end Visits

end Json
