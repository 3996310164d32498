/-
**Reading a floating-point number from a text.**

The grammar is that of Go's `strconv.ParseFloat`: a decimal or hexadecimal numeral, whose digits may
be separated by underscores, or the name of an infinity or of NaN, in letters of either case.  A
numeral is read as the number nearest to its exact value, and a numeral whose value is out of range
is an error.  A text is a list of characters that stand for bytes.

Main definitions:

* `ParseFloat.Numeral`, `ParseFloat.Numeral.toRat` — a numeral and its exact value;
* `ParseFloat.readFloat` — the numeral that a text is;
* `ParseFloat.special` — the number that a text names;
* `ParseFloat.parseFloat` — the number read.

Main results:

* `ParseFloat.parseFloat_eq_nan_iff` — only its name is read as NaN;
* `ParseFloat.parseFloat_eq_some_iff` — the finite numbers are read from numerals;
* `ParseFloat.exists_parseFloat_within_iff` — the texts read as a number of at most a magnitude.
-/

import ParkingFeeService.FloatArithmetic
import ParkingFeeService.FloatBounds
import ParkingFeeService.PercentDecoding

set_option relaxedAutoImplicit false
set_option autoImplicit false

namespace ParseFloat

/-! ### Numerals -/

/-- A numeral: its sign and base, its digits as one number, how many of them come after the point,
and its exponent, which is one of two in a hexadecimal numeral. -/
structure Numeral where
  neg : Bool
  hex : Bool
  mantissa : ℕ
  frac : ℕ
  exponent : ℤ
  deriving DecidableEq

/-- The exact value of a numeral. -/
def Numeral.toRat (n : Numeral) : ℚ :=
  BinaryFloat.signed n.neg <|
    if n.hex then n.mantissa * 2 ^ (n.exponent - 4 * n.frac)
    else n.mantissa * 10 ^ (n.exponent - n.frac)

/-- The nearest number.  A numeral for zero keeps its sign. -/
def Numeral.toFloat (F : FloatFormat) (n : Numeral) : BinaryFloat F :=
  if n.mantissa = 0 then .zero F n.neg else .ofRat F n.toRat

def digit (base : ℕ) (c : Char) : Option ℕ := (PercentDecoding.unhex c).filter (· < base)

def takeSign : List Char → Bool × List Char
  | '+' :: cs => (false, cs)
  | '-' :: cs => (true, cs)
  | cs => (false, cs)

/-- What has been read of a mantissa. -/
structure Mantissa where
  value : ℕ := 0
  frac : ℕ := 0
  sawDot : Bool := false
  sawDigits : Bool := false
  deriving DecidableEq

def Mantissa.push (m : Mantissa) (base n : ℕ) : Mantissa where
  value := m.value * base + n
  frac := if m.sawDot then m.frac + 1 else m.frac
  sawDot := m.sawDot
  sawDigits := true

/-- The digits of a mantissa and its point, and the rest of the text.  Where the underscores are is
checked later. -/
def scanMantissa (base : ℕ) (m : Mantissa) : List Char → Mantissa × List Char
  | [] => (m, [])
  | c :: cs =>
      if c = '_' then scanMantissa base m cs
      else if c = '.' then
        if m.sawDot then (m, c :: cs) else scanMantissa base { m with sawDot := true } cs
      else
        match digit base c with
        | some n => scanMantissa base (m.push base n) cs
        | none => (m, c :: cs)

/-- The digits of an exponent, and the rest of the text. -/
def scanExponent (e : ℕ) : List Char → ℕ × List Char
  | [] => (e, [])
  | c :: cs =>
      if c = '_' then scanExponent e cs
      else
        match digit 10 c with
        | some n => scanExponent (e * 10 + n) cs
        | none => (e, c :: cs)

/-- The exponent after a mantissa, and the rest of the text.  A hexadecimal numeral must have
one. -/
def readExponent (hex : Bool) : List Char → Option (ℤ × List Char)
  | [] => if hex then none else some (0, [])
  | c :: cs =>
      if c.toLower = (if hex then 'p' else 'e') then
        let (neg, cs) := takeSign cs
        if (cs.head?.bind (digit 10)).isSome then
          let (e, rest) := scanExponent 0 cs
          some (if neg then -e else e, rest)
        else none
      else if hex then none else some (0, c :: cs)

/-- What was seen last in a search for misplaced underscores. -/
inductive Saw
  | start
  | digit
  | underscore
  | other
  deriving DecidableEq

/-- Underscores come after a digit, or the prefix of the base, and before a digit. -/
def underscoresFrom (base : ℕ) (saw : Saw) : List Char → Bool
  | [] => saw ≠ .underscore
  | c :: cs =>
      if (digit base c).isSome then underscoresFrom base .digit cs
      else if c = '_' then saw = .digit && underscoresFrom base .underscore cs
      else saw ≠ .underscore && underscoresFrom base .other cs

/-- The base of a numeral without its sign, and what comes after its prefix. -/
def takeBase : List Char → Bool × List Char
  | '0' :: x :: c :: cs => if x.toLower = 'x' then (true, c :: cs) else (false, '0' :: x :: c :: cs)
  | cs => (false, cs)

/-- `readFloat`: the numeral that the whole text is. -/
def readFloat (s : List Char) : Option Numeral :=
  let (neg, unsigned) := takeSign s
  let (hex, digits) := takeBase unsigned
  let base := if hex then 16 else 10
  let (m, rest) := scanMantissa base {} digits
  if m.sawDigits then
    match readExponent hex rest with
    | some (e, []) =>
        if underscoresFrom base (if hex then .digit else .start) digits then
          some ⟨neg, hex, m.value, m.frac, e⟩
        else none
    | _ => none
  else none

example : readFloat "-1_2.5e+1".toList = some ⟨true, false, 125, 1, 1⟩ := by decide

example : readFloat "0X_5.ap3".toList = some ⟨false, true, 90, 1, 3⟩ := by decide

example : readFloat "1_.5".toList = none := by decide

/-! ### Reading -/

/-- The text in small letters. -/
def lower (s : List Char) : List Char := s.map Char.toLower

/-- The text names NaN. -/
def NamesNan (s : List Char) : Prop := lower s = "nan".toList

instance (s : List Char) : Decidable (NamesNan s) := inferInstanceAs (Decidable (_ = _))

/-- `special`: the infinity or NaN that the text names.  Only an infinity may have a sign. -/
def special (F : FloatFormat) (s : List Char) : Option (BinaryFloat F) :=
  if NamesNan s then some .nan
  else
    let (neg, name) := takeSign s
    if lower name = "inf".toList ∨ lower name = "infinity".toList then some (.inf neg) else none

/-- `ParseFloat`: a numeral whose nearest number would be an infinity is out of range. -/
def parseFloat (F : FloatFormat) (s : String) : Option (BinaryFloat F) :=
  match special F s.toList with
  | some x => some x
  | none =>
      match readFloat s.toList with
      | some n => if (n.toFloat F).IsFinite then some (n.toFloat F) else none
      | none => none

variable {F : FloatFormat}

theorem digit_eq_none {c : Char} (hc : c.toLower = 'i' ∨ c.toLower = 'n') : digit 10 c = none := by
  have hletter : ∀ d < 10, ¬ ((Char.ofNat (d + 48)).toLower = 'i' ∨
      (Char.ofNat (d + 48)).toLower = 'n') := by decide
  refine Option.eq_none_iff_forall_ne_some.2 fun d hd => ?_
  obtain ⟨hunhex, hlt⟩ := Option.filter_eq_some_iff.1 hd
  have hlt : d < 10 := of_decide_eq_true hlt
  have hnat : c.toNat = d + 48 := by
    obtain ⟨-, hnat⟩ := PercentDecoding.unhex_eq_some_iff.1 hunhex
    omega
  rw [← Char.ofNat_toNat c, hnat] at hc
  exact hletter d hlt hc

/-- No numeral begins with the first letter of a name. -/
theorem readFloat_eq_none {s cs : List Char} {c : Char} (hs : (takeSign s).2 = c :: cs)
    (hc : c.toLower = 'i' ∨ c.toLower = 'n') : readFloat s = none := by
  have hne : ∀ d : Char, ¬ (d.toLower = 'i' ∨ d.toLower = 'n') → c ≠ d := by
    rintro d hd rfl
    exact hd hc
  have hbase : takeBase (c :: cs) = (false, c :: cs) := by
    rw [takeBase]
    intro x d ds h
    exact absurd (List.cons.inj h).1 (hne '0' (by decide))
  have hscan : scanMantissa 10 {} (c :: cs) = ({}, c :: cs) := by
    rw [scanMantissa, if_neg (hne '_' (by decide)), if_neg (hne '.' (by decide)), digit_eq_none hc]
  simp [readFloat, hs, hbase, hscan]

theorem takeSign_eq_self {c : Char} {cs : List Char} (hplus : c ≠ '+') (hminus : c ≠ '-') :
    takeSign (c :: cs) = (false, c :: cs) := by
  rw [takeSign]
  · exact fun ds h => hplus (List.cons.inj h).1
  · exact fun ds h => hminus (List.cons.inj h).1

/-- A text in small letters and what it was. -/
theorem lower_eq_cons {s ds : List Char} {d : Char} (h : lower s = d :: ds) :
    ∃ c cs, s = c :: cs ∧ c.toLower = d := by
  obtain ⟨c, cs, hs, hc, -⟩ := List.map_eq_cons_iff.1 h
  exact ⟨c, cs, hs, hc⟩

/-- A name is not a numeral. -/
theorem readFloat_of_special {s : List Char} {x : BinaryFloat F} (h : special F s = some x) :
    readFloat s = none := by
  rw [special] at h
  split at h
  · next hnan =>
      obtain ⟨c, cs, rfl, hc⟩ := lower_eq_cons hnan
      have hsign : takeSign (c :: cs) = (false, c :: cs) := by
        refine takeSign_eq_self ?_ ?_
        · rintro rfl
          exact absurd hc (by decide)
        · rintro rfl
          exact absurd hc (by decide)
      exact readFloat_eq_none (congrArg Prod.snd hsign) (.inr hc)
  · dsimp only at h
    split at h
    · next hname =>
        obtain ⟨c, cs, hcs, hc⟩ : ∃ c cs, (takeSign s).2 = c :: cs ∧ c.toLower = 'i' := by
          rcases hname with hname | hname
          · exact lower_eq_cons hname
          · exact lower_eq_cons hname
        exact readFloat_eq_none hcs (.inl hc)
    · cases h

theorem not_isFinite_of_special {s : List Char} {x : BinaryFloat F} (h : special F s = some x) :
    ¬ x.IsFinite := by
  rw [special] at h
  split at h
  · cases h
    exact not_false
  · dsimp only at h
    split at h
    · cases h
      exact not_false
    · cases h

theorem special_eq_nan_iff {s : List Char} : special F s = some .nan ↔ NamesNan s := by
  rw [special]
  split
  · next h => exact iff_of_true rfl h
  · next h =>
      refine iff_of_false (fun heq => ?_) h
      dsimp only at heq
      split at heq
      · simp only [Option.some.injEq, reduceCtorEq] at heq
      · cases heq

/-- **Only its name is read as NaN.** -/
theorem parseFloat_eq_nan_iff {s : String} : parseFloat F s = some .nan ↔ NamesNan s.toList := by
  rw [← special_eq_nan_iff (F := F), parseFloat]
  cases special F s.toList with
  | some x => rfl
  | none =>
      refine iff_of_false (fun h => ?_) (fun h => by cases h)
      dsimp only at h
      cases hread : readFloat s.toList with
      | none => simp only [hread, reduceCtorEq] at h
      | some n =>
          rw [hread] at h
          dsimp only at h
          split at h
          · next hfinite => rwa [Option.some.inj h] at hfinite
          · cases h

/-- **The finite numbers are read from numerals.** -/
theorem parseFloat_eq_some_iff {s : String} {x : BinaryFloat F} (hx : x.IsFinite) :
    parseFloat F s = some x ↔ ∃ n, readFloat s.toList = some n ∧ n.toFloat F = x := by
  rw [parseFloat]
  cases hspecial : special F s.toList with
  | some y =>
      rw [readFloat_of_special hspecial]
      refine iff_of_false (fun h => ?_) (by simp)
      cases h
      exact not_isFinite_of_special hspecial hx
  | none =>
      dsimp only
      cases hread : readFloat s.toList with
      | none => simp
      | some n =>
          dsimp only
          constructor
          · intro h
            split at h
            · exact ⟨n, rfl, Option.some.inj h⟩
            · cases h
          · rintro ⟨n', hn', rfl⟩
            cases hn'
            rw [if_pos hx]

/-- The numeral for a number of at most a magnitude, against the bound. -/
theorem Numeral.within_toFloat_iff {n : Numeral} {N : ℕ} {E : ℤ}
    (h : BinaryFloat.EvenBound F N E) (hE : -F.prec ≤ E) :
    (n.toFloat F).Within (BinaryFloat.dyadic N E) ↔
      |n.toRat| ≤ BinaryFloat.dyadic (2 * N + 1) (E - 1) := by
  rw [toFloat]
  split
  · next hzero =>
      have hround : BinaryFloat.zero F n.neg = BinaryFloat.round F n.neg 0 0 := rfl
      have hrat : |n.toRat| = BinaryFloat.dyadic 0 0 := by
        simp [toRat, hzero, BinaryFloat.dyadic, BinaryFloat.signed]
      rw [hround, BinaryFloat.within_round_iff h, hrat]
  · exact BinaryFloat.within_ofRat_iff h hE

/-- **The texts read as a number of at most a magnitude:** a numeral may be half a unit in the last
place above the bound. -/
theorem exists_parseFloat_within_iff {s : String} {N : ℕ} {E : ℤ}
    (h : BinaryFloat.EvenBound F N E) (hE : -F.prec ≤ E) :
    (∃ x, parseFloat F s = some x ∧ x.Within (BinaryFloat.dyadic N E)) ↔
      ∃ n, readFloat s.toList = some n ∧
        |n.toRat| ≤ BinaryFloat.dyadic (2 * N + 1) (E - 1) := by
  constructor
  · rintro ⟨x, hx, hwithin⟩
    obtain ⟨n, hn, rfl⟩ := (parseFloat_eq_some_iff hwithin.1).1 hx
    exact ⟨n, hn, (n.within_toFloat_iff h hE).1 hwithin⟩
  · rintro ⟨n, hn, hle⟩
    have hwithin := (n.within_toFloat_iff h hE).2 hle
    exact ⟨_, (parseFloat_eq_some_iff hwithin.1).2 ⟨n, hn, rfl⟩, hwithin⟩

end ParseFloat
