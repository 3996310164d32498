/-
**Subjects of a publish-subscribe network.**

A subject is a string of tokens with dots between them.  A subscription names a pattern: a token of
it stands for itself, for any one token, or, at the end, for all the tokens that are left.

Main definitions:

* `Subject.tokens` — the tokens of a subject;
* `Subject.PatternToken`, `Subject.matchesTokens`, `Subject.Matches` — patterns;
* `Subject.Literal` — a pattern without wildcards.

Main results:

* `Subject.tokens_dot`, `Subject.tokens_injective` — subjects that are joined by a dot;
* `Subject.matchesTokens_exact_append_iff`, `Subject.matchesTokens_any_cons_iff` — what a pattern
  matches, from left to right;
* `Subject.matches_iff_eq` — a pattern without wildcards matches itself only.
-/

import Mathlib.Data.List.Basic
import Mathlib.Tactic.Common

set_option relaxedAutoImplicit false
set_option autoImplicit false

namespace Subject

/-! ### Tokens -/

/-- The tokens of a subject. -/
def tokens (subject : String) : List String := (subject.toList.splitOn '.').map String.ofList

/-- The tokens of two subjects that are joined by a dot. -/
theorem tokens_dot (s t : String) : tokens (s ++ "." ++ t) = tokens s ++ tokens t := by
  have hchars : (s ++ "." ++ t).toList = s.toList ++ '.' :: t.toList := by simp
  rw [tokens, hchars, List.splitOn_append_cons_self, List.map_append]
  rfl

theorem tokens_injective : Function.Injective tokens := by
  intro s t h
  have hsplit : s.toList.splitOn '.' = t.toList.splitOn '.' :=
    List.map_injective_iff.2 (fun _ _ => String.ofList_injective) h
  have hjoin := congrArg (List.intercalate ['.']) hsplit
  rw [List.intercalate_splitOn, List.intercalate_splitOn] at hjoin
  exact String.toList_injective hjoin

/-- A string with a dot has several tokens. -/
theorem two_le_length_tokens {s : String} (h : '.' ∈ s.toList) : 2 ≤ (tokens s).length := by
  obtain ⟨l, r, hlr⟩ := List.append_of_mem h
  have hl := List.length_pos_of_ne_nil (List.splitOn_ne_nil '.' l)
  have hr := List.length_pos_of_ne_nil (List.splitOn_ne_nil '.' r)
  rw [tokens, hlr, List.splitOn_append_cons_self, List.length_map, List.length_append]
  omega

theorem tokens_of_no_dot {s : String} (h : '.' ∉ s.toList) : tokens s = [s] := by
  rw [tokens, List.splitOn_eq_singleton h]
  simp

/-- A string is a single token exactly if it has no dot. -/
theorem length_tokens_eq_one_iff {s : String} : (tokens s).length = 1 ↔ '.' ∉ s.toList := by
  constructor
  · intro h hdot
    have hlen := two_le_length_tokens hdot
    omega
  · intro h
    rw [tokens_of_no_dot h]
    rfl

/-! ### Patterns -/

/-- A token of a pattern. -/
inductive PatternToken
  | exact (token : String)
  | any
  | rest
  deriving DecidableEq, Repr

/-- The token of a pattern, as it is written. -/
def patternToken (token : String) : PatternToken :=
  if token = "*" then .any else if token = ">" then .rest else .exact token

/-- A pattern matches tokens. -/
def matchesTokens : List PatternToken → List String → Prop
  | [], [] => True
  | [.rest], _ :: _ => True
  | .exact token :: ps, t :: ts => token = t ∧ matchesTokens ps ts
  | .any :: ps, _ :: ts => matchesTokens ps ts
  | _, _ => False

instance decidableMatchesTokens : ∀ ps ts, Decidable (matchesTokens ps ts)
  | [], [] => .isTrue trivial
  | [.rest], _ :: _ => .isTrue trivial
  | .exact token :: ps, t :: ts =>
      have := decidableMatchesTokens ps ts
      inferInstanceAs (Decidable (token = t ∧ matchesTokens ps ts))
  | .any :: ps, _ :: ts =>
      have := decidableMatchesTokens ps ts
      inferInstanceAs (Decidable (matchesTokens ps ts))
  | [], _ :: _ => .isFalse id
  | [.rest], [] => .isFalse id
  | .rest :: _ :: _, _ => .isFalse (by intro h; simp [matchesTokens] at h)
  | .exact _ :: _, [] => .isFalse id
  | .any :: _, [] => .isFalse id

/-- A subscription to the pattern receives what is published on the subject. -/
def Matches (pattern subject : String) : Prop :=
  matchesTokens ((tokens pattern).map patternToken) (tokens subject)

instance (pattern subject : String) : Decidable (Matches pattern subject) :=
  inferInstanceAs (Decidable (matchesTokens _ _))

/-- The pattern has no wildcards. -/
def Literal (pattern : String) : Prop := ∀ t ∈ tokens pattern, t ≠ "*" ∧ t ≠ ">"

instance (pattern : String) : Decidable (Literal pattern) :=
  inferInstanceAs (Decidable (∀ t ∈ tokens pattern, t ≠ "*" ∧ t ≠ ">"))

theorem patternToken_of_literal {t : String} (h : t ≠ "*" ∧ t ≠ ">") :
    patternToken t = .exact t := by
  simp [patternToken, h.1, h.2]

theorem map_patternToken_of_literal {ts : List String} (h : ∀ t ∈ ts, t ≠ "*" ∧ t ≠ ">") :
    ts.map patternToken = ts.map .exact :=
  List.map_congr_left fun t ht => patternToken_of_literal (h t ht)

/-- The tokens that stand for themselves at the beginning of a pattern. -/
theorem matchesTokens_exact_append_iff {ts us : List String} {ps : List PatternToken} :
    matchesTokens (ts.map .exact ++ ps) us ↔ ∃ vs, us = ts ++ vs ∧ matchesTokens ps vs := by
  induction ts generalizing us with
  | nil => simp
  | cons t ts ih =>
      cases us with
      | nil => simp [matchesTokens]
      | cons u us =>
          simp only [List.map_cons, List.cons_append, matchesTokens, ih, List.cons.injEq]
          constructor
          · rintro ⟨rfl, vs, rfl, hvs⟩
            exact ⟨vs, ⟨rfl, rfl⟩, hvs⟩
          · rintro ⟨vs, ⟨rfl, rfl⟩, hvs⟩
            exact ⟨rfl, vs, rfl, hvs⟩

/-- A wildcard for one token. -/
theorem matchesTokens_any_cons_iff {us : List String} {ps : List PatternToken} :
    matchesTokens (.any :: ps) us ↔ ∃ u vs, us = u :: vs ∧ matchesTokens ps vs := by
  cases us with
  | nil => simp [matchesTokens]
  | cons u us =>
      simp only [matchesTokens, List.cons.injEq]
      constructor
      · intro h
        exact ⟨u, us, ⟨rfl, rfl⟩, h⟩
      · rintro ⟨u', vs, ⟨rfl, rfl⟩, h⟩
        exact h

theorem matchesTokens_nil_iff {us : List String} : matchesTokens [] us ↔ us = [] := by
  cases us <;> simp [matchesTokens]

/-- Tokens that all stand for themselves match nothing else. -/
theorem matchesTokens_exact_iff {ts us : List String} :
    matchesTokens (ts.map .exact) us ↔ us = ts := by
  rw [← List.append_nil (ts.map PatternToken.exact), matchesTokens_exact_append_iff]
  simp [matchesTokens_nil_iff]

/-- A pattern that ends with a token for itself matches only what ends with it. -/
theorem getLast?_of_matchesTokens {ps : List PatternToken} {token : String} :
    ∀ {us : List String}, matchesTokens (ps ++ [.exact token]) us → us.getLast? = some token := by
  induction ps with
  | nil =>
      intro us h
      rw [List.nil_append, ← List.map_singleton, matchesTokens_exact_iff] at h
      rw [h]
      rfl
  | cons p ps ih =>
      intro us h
      cases us with
      | nil => cases p <;> cases ps <;> cases h
      | cons u us =>
          have htail : matchesTokens (ps ++ [.exact token]) us := by
            cases p with
            | exact t => exact h.2
            | any => exact h
            | rest => cases ps <;> cases h
          have hlast := ih htail
          rw [List.getLast?_cons, hlast]
          rfl

/-- **A pattern without wildcards matches itself only.** -/
theorem matches_iff_eq {pattern subject : String} (h : Literal pattern) :
    Matches pattern subject ↔ subject = pattern := by
  rw [Matches, map_patternToken_of_literal h, matchesTokens_exact_iff, tokens_injective.eq_iff]

end Subject
