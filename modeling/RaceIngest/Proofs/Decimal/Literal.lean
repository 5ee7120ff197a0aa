import RaceIngest.Proofs.Decimal.Layout

/-!
# Written numerals are read back

A numeral is canonical when it is written the only way the reader accepts: at least one whole digit,
no superfluous zero in front, digits after the mark of an exponent. Canonical numerals are read back
from their characters, and all numerals that the library writes are canonical. Integers are read
back from their literals within the range of 64 bits.

## Main statements

* `Numeral.parse?_chars`: a canonical numeral is read back,
* `Numeral.canonical_ofInt`, `Single.canonical_of_toNumeral?`: the numerals that are written,
* `Numeral.toInteger?_ofInt`: an integer is read back from its literal.
-/

namespace RaceIngest.Decimal

namespace Digits

/-- Digits end where the text does not go on with a digit. -/
theorem takeChars_chars (ds : Digits) {rest : List Char}
    (hstop : rest.head?.bind Digit.ofChar? = none) : takeChars (chars ds ++ rest) = (ds, rest) := by
  induction ds with
  | nil =>
      cases rest with
      | nil => rfl
      | cons c rest =>
          have hnone : Digit.ofChar? c = none := hstop
          simp [chars, takeChars, hnone]
  | cons d ds ih =>
      have split : chars (d :: ds) ++ rest = Digit.toChar d :: (chars ds ++ rest) := rfl
      rw [split, takeChars, Digit.ofChar?_toChar]
      simp only [ih]

theorem ofChars?_chars (ds : Digits) : ofChars? (chars ds) = some ds := by
  induction ds with
  | nil => rfl
  | cons d ds ih =>
      have split : chars (d :: ds) = Digit.toChar d :: chars ds := rfl
      rw [ofChars?, split, List.mapM_cons, Digit.ofChar?_toChar]
      rw [ofChars?] at ih
      simp [ih]

/-- A row of digits that is no number with superfluous zeros. -/
def IsCanonical (ds : Digits) : Prop := ∃ d rest, ds = d :: rest ∧ (d ≠ 0 ∨ rest = [])

theorem isCanonical_ofNat (n : ℕ) : IsCanonical (ofNat n) := by
  rcases Nat.eq_zero_or_pos n with rfl | hpositive
  · exact ⟨0, [], by rw [ofNat]; rfl, .inr rfl⟩
  · obtain ⟨d, ds, hshape, hnonzero⟩ := ofNat_eq_cons hpositive
    exact ⟨d, ds, hshape, .inl hnonzero⟩

end Digits

namespace Numeral

open Digits

/-- A numeral as it has to be written. -/
structure Canonical (n : Numeral) : Prop where
  whole : Digits.IsCanonical n.whole
  exponent : ∀ e, n.exponent = some e → e.digits ≠ []

/-- The characters after the digits: an exponent or nothing. -/
def exponentChars (exponent : Option Exponent) : List Char :=
  match exponent with
  | none => []
  | some e => 'e' :: (if e.negative then '-' else '+') :: Digits.chars e.digits

/-- The characters after the whole digits. -/
def restChars (n : Numeral) : List Char :=
  (if n.fraction.isEmpty then [] else '.' :: Digits.chars n.fraction) ++ exponentChars n.exponent

theorem chars_eq (n : Numeral) :
    n.chars = (if n.negative then ['-'] else []) ++ (Digits.chars n.whole ++ n.restChars) := by
  simp only [chars, restChars, List.append_assoc]
  rfl

theorem stop_exponentChars (exponent : Option Exponent) :
    (exponentChars exponent).head?.bind Digit.ofChar? = none := by
  cases exponent <;> rfl

theorem stop_restChars (n : Numeral) : n.restChars.head?.bind Digit.ofChar? = none := by
  unfold restChars
  split
  · exact stop_exponentChars n.exponent
  · rfl

/-- An exponent is read back. -/
theorem parseExponent?_chars (whole fraction : Digits) (negative : Bool) {exponent : Option Exponent}
    (hnonempty : ∀ e, exponent = some e → e.digits ≠ []) :
    parseExponent? whole fraction negative (exponentChars exponent) =
      some { negative, whole, fraction, exponent } := by
  cases exponent with
  | none => rfl
  | some e =>
      obtain ⟨minus, digits⟩ := e
      have hsome := hnonempty _ rfl
      obtain ⟨d, ds, rfl⟩ := List.exists_cons_of_ne_nil hsome
      have hread := ofChars?_chars (d :: ds)
      cases minus with
      | true =>
          simp only [exponentChars, parseExponent?, if_true, true_or, hread]
      | false =>
          simp only [exponentChars, parseExponent?, if_true, true_or, Bool.false_eq_true,
            if_false, hread]

theorem toChar_ne_minus (d : Digit) : Digit.toChar d ≠ '-' := by
  revert d
  decide

/-- The part of a numeral after its sign. -/
def parseUnsigned? (negative : Bool) (unsigned : List Char) : Option Numeral :=
  let (whole, rest) := Digits.takeChars unsigned
  let canonical :=
    match whole with
    | [] => false
    | d :: ds => d ≠ 0 ∨ ds = []
  if canonical then
    match rest with
    | '.' :: rest =>
      let (fraction, rest) := Digits.takeChars rest
      if fraction.isEmpty then none else parseExponent? whole fraction negative rest
    | rest => parseExponent? whole [] negative rest
  else none

theorem parse?_minus (cs : List Char) : parse? ('-' :: cs) = parseUnsigned? true cs := rfl

theorem parse?_unsigned {c : Char} (hother : c ≠ '-') (cs : List Char) :
    parse? (c :: cs) = parseUnsigned? false (c :: cs) := by
  unfold parse?
  split
  rename_i negative unsigned hparts
  split at hparts
  · rename_i hsame
    cases hsame
    exact absurd rfl hother
  · cases hparts
    rfl

/-- The digits of a canonical numeral are read back, with whatever sign was read before. -/
theorem parseUnsigned?_chars {n : Numeral} (hcanonical : n.Canonical) :
    parseUnsigned? n.negative (Digits.chars n.whole ++ n.restChars) = some n := by
  obtain ⟨⟨d, ds, hwhole, hleading⟩, hnonempty⟩ := hcanonical
  have haccepted : (match n.whole with
      | [] => false
      | d :: ds => decide (d ≠ 0 ∨ ds = [])) = true := by
    rw [hwhole]
    exact decide_eq_true hleading
  simp only [parseUnsigned?, takeChars_chars n.whole n.stop_restChars, haccepted, if_true]
  have hexponent (fraction : Digits) :=
    parseExponent?_chars n.whole fraction n.negative hnonempty
  by_cases hintegral : n.fraction = []
  · have hrest : n.restChars = exponentChars n.exponent := by simp [restChars, hintegral]
    have hread := hexponent []
    rw [← hintegral] at hread
    rw [hrest]
    cases hshape : n.exponent with
    | none =>
        rw [hshape, hintegral] at hread
        exact hread.trans (congrArg some (by cases n; simp_all))
    | some e =>
        rw [hshape, hintegral] at hread
        exact hread.trans (congrArg some (by cases n; simp_all))
  · have hrest : n.restChars = '.' :: (Digits.chars n.fraction ++ exponentChars n.exponent) := by
      simp [restChars, hintegral]
    rw [hrest]
    simp only [takeChars_chars n.fraction (stop_exponentChars n.exponent), List.isEmpty_iff,
      hintegral, if_false]
    exact hexponent n.fraction

/-- **A canonical numeral is read back from its characters.** -/
theorem parse?_chars {n : Numeral} (hcanonical : n.Canonical) : parse? n.chars = some n := by
  have hread := parseUnsigned?_chars hcanonical
  rw [chars_eq]
  cases hnegative : n.negative with
  | true =>
      rw [hnegative] at hread
      exact (parse?_minus _).trans hread
  | false =>
      obtain ⟨d, ds, hwhole, -⟩ := hcanonical.whole
      rw [hnegative, hwhole] at hread
      rw [hwhole]
      exact (parse?_unsigned (toChar_ne_minus d) _).trans hread

/-! ## The numerals that are written -/

theorem canonical_ofNat (n : ℕ) : (ofNat n).Canonical :=
  ⟨isCanonical_ofNat n, fun _ hwritten => by cases hwritten⟩

theorem canonical_ofInt (i : ℤ) : (ofInt i).Canonical :=
  ⟨isCanonical_ofNat i.natAbs, fun _ hwritten => by cases hwritten⟩

/-- An integer in the range of 64-bit numbers is read back from its literal. -/
theorem toInteger?_ofInt {i : ℤ} (hlow : -2 ^ 63 ≤ i) (hhigh : i < 2 ^ 64) :
    (ofInt i).toInteger? = some i := by
  simp only [toInteger?, isInteger, ofInt, List.isEmpty_nil, Option.isNone_none, Bool.and_self,
    if_true, value_ofNat, decide_eq_true_eq]
  by_cases hnegative : i < 0
  · rw [if_pos hnegative, if_pos (by omega)]
    congr 1
    omega
  · rw [if_neg hnegative, if_pos (by omega)]
    congr 1
    omega

theorem toInteger?_ofNat {n : ℕ} (hhigh : n < 2 ^ 64) : (ofNat n).toInteger? = some (n : ℤ) := by
  simp only [toInteger?, isInteger, ofNat, List.isEmpty_nil, Option.isNone_none, Bool.and_self,
    if_true, Bool.false_eq_true, if_false, value_ofNat, if_pos hhigh]

theorem toNatBelow?_ofNat {bound n : ℕ} (hsmall : n < bound) (hlimit : bound ≤ 2 ^ 64) :
    (ofNat n).toNatBelow? bound = some n := by
  have hread : (ofNat n).toInteger? = some (Int.ofNat n) := toInteger?_ofNat (by omega)
  rw [toNatBelow?, hread]
  simp only [if_pos hsmall]

theorem toSigned?_ofInt {width : ℕ} {i : ℤ} (hlow : -2 ^ (width - 1) ≤ i)
    (hhigh : i < 2 ^ (width - 1)) (hlimit : width ≤ 64) : (ofInt i).toSigned? width = some i := by
  have hpower : (2 : ℤ) ^ (width - 1) ≤ 2 ^ 63 := pow_le_pow_right₀ (by norm_num) (by omega)
  rw [toSigned?, toInteger?_ofInt (by omega) (by omega)]
  simp only [if_pos (And.intro hlow hhigh)]

end Numeral

/-- A laid out numeral is canonical. -/
theorem Layout.canonical_numeral (layout : Layout) (negative : Bool) {x : Scaled}
    (hpositive : 0 < x.significand) : (layout.numeral negative x).Canonical := by
  obtain ⟨d, ds, hshape, hnonzero⟩ := Digits.ofNat_eq_cons hpositive
  unfold Layout.numeral
  simp only [hshape]
  split
  · split
    · refine ⟨⟨d, _, rfl, .inl hnonzero⟩, fun _ hwritten => by cases hwritten⟩
    · exact ⟨⟨0, [], rfl, .inr rfl⟩, fun _ hwritten => by cases hwritten⟩
  · refine ⟨⟨d, [], rfl, .inl hnonzero⟩, fun e hwritten => ?_⟩
    cases hwritten
    exact Digits.ofNat_ne_nil _

end RaceIngest.Decimal

namespace RaceIngest.Single

open Decimal

/-- The numeral of a word is canonical. -/
theorem canonical_of_toNumeral? {x : Single} {n : Numeral} (hwritten : x.toNumeral? = some n) :
    n.Canonical := by
  unfold toNumeral? at hwritten
  split at hwritten
  · rename_i hfinite
    split at hwritten
    · cases hwritten
      exact ⟨⟨0, [], rfl, .inr rfl⟩, fun _ hwritten => by cases hwritten⟩
    · rename_i hnonzero
      cases hwritten
      exact Layout.canonical_numeral _ _ (isShortest_shortest hfinite hnonzero).positive
  · cases hwritten

end RaceIngest.Single
