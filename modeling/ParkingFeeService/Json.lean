/-
**JSON at the level of field-name/value trees.**

The fields of an object are kept as the list in which they were written, so that a reader can give
repeated names the meaning its own library gives them.  A number is kept as it was written: readers
distinguish `1` from `1.0`.

Main definitions:

* `Json` — value trees;
* `Json.get` — the field of a name in the reading in which the last occurrence counts;
* `Json.ofStrings`, `Json.strings` — lists of strings as arrays and back.

Main results:

* `Json.get_eq_none_iff` — a field is missing exactly if its name does not occur.
-/

import Mathlib.Data.Int.Notation
import Mathlib.Data.List.Basic
import Mathlib.Tactic.Common

set_option relaxedAutoImplicit false
set_option autoImplicit false

/-- A number literal: an integer, or a decimal `mantissa * 10 ^ exponent` written with a fraction or
an exponent. -/
inductive JsonNumber
  | int (n : ℤ)
  | decimal (mantissa exponent : ℤ)
  deriving DecidableEq, Repr

/-- A JSON value. -/
inductive Json
  | null
  | bool (b : Bool)
  | num (n : JsonNumber)
  | str (s : String)
  | arr (items : List Json)
  | obj (fields : List (String × Json))

namespace Json

/-- The value of a field, if its name occurs; the last occurrence counts. -/
def get (fields : List (String × Json)) (name : String) : Option Json :=
  (fields.reverse.find? fun field => field.1 = name).map Prod.snd

theorem get_eq_none_iff {fields : List (String × Json)} {name : String} :
    get fields name = none ↔ ∀ field ∈ fields, field.1 ≠ name := by
  simp [get, List.find?_eq_none]

theorem get_append (fields fields' : List (String × Json)) (name : String) :
    get (fields ++ fields') name = (get fields' name).or (get fields name) := by
  rw [get, get, get, List.reverse_append, List.find?_append]
  cases fields'.reverse.find? fun field => field.1 = name <;> rfl

theorem get_singleton (name name' : String) (v : Json) :
    get [(name', v)] name = if name' = name then some v else none := by
  by_cases h : name' = name <;> simp [get, h]

/-- A string value. -/
def asStr : Json → Option String
  | .str s => some s
  | _ => none

@[simp] theorem asStr_eq_some_iff {v : Json} {s : String} : v.asStr = some s ↔ v = .str s := by
  cases v <;> simp [asStr]

/-- The items of an array. -/
def asArr : Json → Option (List Json)
  | .arr items => some items
  | _ => none

@[simp] theorem asArr_eq_some_iff {v : Json} {items : List Json} :
    v.asArr = some items ↔ v = .arr items := by
  cases v <;> simp [asArr]

/-- The array of the given strings. -/
def ofStrings (ss : List String) : Json := .arr (ss.map .str)

/-- The strings of an array that has nothing else in it. -/
def strings : Json → Option (List String)
  | .arr items => items.mapM asStr
  | _ => none

/-- The strings of an array can be read exactly if it has nothing else in it. -/
theorem isSome_strings_iff {v : Json} :
    v.strings.isSome = true ↔ ∃ items, v = .arr items ∧ ∀ item ∈ items, ∃ s, item = .str s := by
  cases v with
  | arr items =>
      simp only [strings, arr.injEq, exists_eq_left']
      induction items with
      | nil => simp
      | cons item items ih =>
          cases item <;> simp_all [asStr, Option.isSome_bind]
  | _ => simp [strings]

end Json
